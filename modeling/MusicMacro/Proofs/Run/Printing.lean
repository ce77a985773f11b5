import MusicMacro.Proofs.Yaml.Numeral
import MusicMacro.Run

/-!
Events as they are printed. A line feed ends each numeral, so a printed list of events can be read
in one way only.
-/

namespace MusicMacro

/-- A numeral on a line of its own says which number it is and what follows that line. -/
theorem numeral_line_inj {m n : Nat} {cs ds : List Char}
    (h : Nat.toDigits 10 m ++ '\n' :: cs = Nat.toDigits 10 n ++ '\n' :: ds) : m = n ∧ cs = ds := by
  have hrun : ∀ (k : Nat) (rest : List Char),
      (Nat.toDigits 10 k ++ '\n' :: rest).takeWhile Char.isDigit = Nat.toDigits 10 k := by
    intro k rest
    rw [List.takeWhile_append_of_pos fun c hc => Yaml.isDigit_of_mem_toDigits hc]
    exact List.append_nil _
  have hdigits : Nat.toDigits 10 m = Nat.toDigits 10 n := by
    rw [← hrun m cs, h, hrun n ds]
  rw [hdigits, List.append_cancel_left_eq, List.cons_inj_right] at h
  refine ⟨?_, h⟩
  rw [← Nat.ofDigitChars_ten_toDigits (n := m), hdigits, Nat.ofDigitChars_ten_toDigits]

namespace Event

/-- Each event is printed on two lines, and no event at all as an empty sequence. -/
theorem listToYaml_eq (events : List Event) : listToYaml events =
    if events = [] then "[]\n"
    else String.join (events.map fun e =>
      "- frequency: " ++ Nat.repr e.frequency.toNat ++ "\n" ++
      "  duration: " ++ Nat.repr e.duration.toNat ++ "\n") := by
  cases events <;> rfl

theorem toYaml_append (e : Event) (cs : List Char) : e.toYaml.toList ++ cs =
    "- frequency: ".toList ++ (Nat.toDigits 10 e.frequency.toNat ++ ("\n".toList ++
      ("  duration: ".toList ++ (Nat.toDigits 10 e.duration.toNat ++ ("\n".toList ++ cs))))) := by
  -- Deriving the equation of the definition would evaluate its texts.
  delta toYaml
  simp only [String.toList_append, Nat.toList_repr, List.append_assoc]

/-- A printed event says which event it is and what is printed behind it. -/
theorem toYaml_append_inj {e e' : Event} {cs ds : List Char}
    (h : e.toYaml.toList ++ cs = e'.toYaml.toList ++ ds) : e = e' ∧ cs = ds := by
  rw [toYaml_append, toYaml_append] at h
  obtain ⟨hfrequency, hbehind⟩ := numeral_line_inj (List.append_cancel_left h)
  obtain ⟨hduration, hrest⟩ := numeral_line_inj (List.append_cancel_left hbehind)
  refine ⟨?_, hrest⟩
  exact congr (congrArg mk (UInt32.toNat_inj.1 hfrequency)) (UInt32.toNat_inj.1 hduration)

theorem toYaml_append_ne_nil (e : Event) (cs : List Char) : e.toYaml.toList ++ cs ≠ [] := by
  rw [toYaml_append]
  exact nofun

def printed (events : List Event) : List Char := events.flatMap fun e => e.toYaml.toList

theorem printed_injective : Function.Injective printed := by
  intro events events' h
  induction events generalizing events' with
  | nil =>
      cases events' with
      | nil => rfl
      | cons e' events' => exact absurd h.symm (toYaml_append_ne_nil e' _)
  | cons e events ih =>
      cases events' with
      | nil => exact absurd h (toYaml_append_ne_nil e _)
      | cons e' events' =>
          obtain ⟨rfl, hrest⟩ := toYaml_append_inj h
          rw [ih hrest]

theorem toList_listToYaml_cons (e : Event) (events : List Event) :
    (listToYaml (e :: events)).toList = printed (e :: events) := by
  rw [listToYaml, List.isEmpty_cons, if_neg Bool.false_ne_true, String.toList_join,
    List.flatMap_map, printed]

/-- An empty list is printed as no other list. -/
theorem listToYaml_cons_ne (e : Event) (events : List Event) :
    listToYaml (e :: events) ≠ listToYaml [] := by
  intro h
  have hlists := congrArg String.toList h
  rw [toList_listToYaml_cons, printed, List.flatMap_cons, toYaml_append] at hlists
  cases hlists

theorem listToYaml_injective : Function.Injective listToYaml := by
  intro events events' h
  cases events with
  | nil =>
      cases events' with
      | nil => rfl
      | cons e' events' => exact absurd h.symm (listToYaml_cons_ne e' events')
  | cons e events =>
      cases events' with
      | nil => exact absurd h (listToYaml_cons_ne e events)
      | cons e' events' =>
          have hlists := congrArg String.toList h
          rw [toList_listToYaml_cons, toList_listToYaml_cons] at hlists
          exact printed_injective hlists

end Event

end MusicMacro
