import Mathlib.Data.List.TakeWhile
import MusicMacro.Proofs.Token.Grammar

/-!
Matches as runs. What a rule matches is one opening character and then runs of signs, digits and
dots, so the longest match takes each run as far as it goes.
-/

namespace MusicMacro.Grammar

open RegularExpression (matches'_add matches'_char matches'_epsilon matches'_mul matches'_star)

theorem mem_oneOf {A t : List Char} : t ∈ (oneOf A).matches' ↔ ∃ c ∈ A, t = [c] := by
  induction A with
  | nil => simp [oneOf]
  | cons a A ih =>
      rw [oneOf] at ih ⊢
      rw [List.map_cons, List.sum_cons, matches'_add, Language.mem_add, ih, matches'_char]
      simp only [List.mem_cons, exists_eq_or_imp]
      rfl

theorem mem_zeroOrMore {A t : List Char} : t ∈ (zeroOrMore A).matches' ↔ ∀ c ∈ t, c ∈ A := by
  rw [zeroOrMore, matches'_star, Language.mem_kstar]
  constructor
  · rintro ⟨parts, rfl, hparts⟩ c hc
    obtain ⟨part, hpart, hmem⟩ := List.mem_flatten.1 hc
    obtain ⟨d, hd, rfl⟩ := mem_oneOf.1 (hparts part hpart)
    rwa [List.mem_singleton.1 hmem]
  · intro h
    refine ⟨t.map fun c => [c], by rw [← List.flatMap_def, List.flatMap_singleton'], ?_⟩
    intro part hpart
    obtain ⟨c, hc, rfl⟩ := List.mem_map.1 hpart
    exact mem_oneOf.2 ⟨c, h c hc, rfl⟩

theorem mem_oneOf_mul {A t : List Char} {P : RegularExpression Char} :
    t ∈ (oneOf A * P).matches' ↔ ∃ c ∈ A, ∃ u, t = c :: u ∧ u ∈ P.matches' := by
  rw [matches'_mul, Language.mem_mul]
  constructor
  · rintro ⟨s, hs, u, hu, rfl⟩
    obtain ⟨c, hc, rfl⟩ := mem_oneOf.1 hs
    exact ⟨c, hc, u, rfl, hu⟩
  · rintro ⟨c, hc, u, rfl, hu⟩
    exact ⟨[c], mem_oneOf.2 ⟨c, hc, rfl⟩, u, hu, rfl⟩

theorem mem_oneOrMore_mul {A t : List Char} {P : RegularExpression Char} :
    t ∈ (oneOrMore A * P).matches' ↔
      ∃ c ∈ A, ∃ u, t = c :: u ∧ u ∈ (zeroOrMore A * P).matches' := by
  rw [← mem_oneOf_mul, oneOrMore]
  simp only [matches'_mul, mul_assoc]

/-- A text made of runs, one of each class of characters in turn. -/
def Runs : List (List Char) → List Char → Prop
  | [], t => t = []
  | A :: As, t => ∃ s u, t = s ++ u ∧ (∀ c ∈ s, c ∈ A) ∧ Runs As u

/-- The runs at the front of a text, each taken as far as it goes. -/
def munch : List (List Char) → List Char → List Char
  | [], _ => []
  | A :: As, cs => cs.takeWhile (· ∈ A) ++ munch As (cs.dropWhile (· ∈ A))

theorem runs_munch (As : List (List Char)) (cs : List Char) : Runs As (munch As cs) := by
  induction As generalizing cs with
  | nil => rfl
  | cons A As ih =>
      refine ⟨_, _, rfl, ?_, ih _⟩
      intro c hc
      simpa using List.mem_takeWhile_imp hc

theorem Runs.cons {A : List Char} {As : List (List Char)} {c : Char} {t : List Char} (hc : c ∈ A)
    (h : Runs (A :: As) t) : Runs (A :: As) (c :: t) := by
  obtain ⟨s, u, rfl, hs, hu⟩ := h
  exact ⟨c :: s, u, rfl, List.forall_mem_cons.2 ⟨hc, hs⟩, hu⟩

theorem Runs.drop {As : List (List Char)} {t : List Char} (h : Runs As t) (n : Nat) :
    Runs As (t.drop n) := by
  induction As generalizing t n with
  | nil =>
      rw [Runs] at h ⊢
      rw [h, List.drop_nil]
  | cons A As ih =>
      obtain ⟨s, u, rfl, hs, hu⟩ := h
      exact ⟨s.drop n, u.drop (n - s.length), List.drop_append,
        fun c hc => hs c (List.mem_of_mem_drop hc), ih hu _⟩

theorem runs_nil_cons {As : List (List Char)} {t : List Char} :
    Runs ([] :: As) t ↔ Runs As t := by
  constructor
  · rintro ⟨s, u, rfl, hs, hu⟩
    obtain rfl : s = [] :=
      List.eq_nil_iff_forall_not_mem.2 fun c hc => List.not_mem_nil (hs c hc)
    exact hu
  · intro h
    exact ⟨[], t, rfl, fun c hc => absurd hc List.not_mem_nil, h⟩

/-- Nothing that is made of such runs reaches further. The run that is taken may be longer than the
first run of the other text, which then has given its later runs up to it. -/
theorem length_le_munch {As : List (List Char)} {t cs : List Char} (h : Runs As t)
    (hpre : t <+: cs) : t.length ≤ (munch As cs).length := by
  induction As generalizing t cs with
  | nil =>
      rw [Runs] at h
      rw [h]
      exact Nat.zero_le _
  | cons A As ih =>
      obtain ⟨s, u, rfl, hs, hu⟩ := h
      obtain ⟨v, rfl⟩ := hpre
      rw [munch, List.length_append, List.length_append, List.append_assoc,
        List.takeWhile_append_of_pos (by simpa using hs),
        List.dropWhile_append_of_pos (by simpa using hs), List.length_append]
      have hdrop := @List.drop_left _ ((u ++ v).takeWhile (· ∈ A)) ((u ++ v).dropWhile (· ∈ A))
      rw [List.takeWhile_append_dropWhile] at hdrop
      have hpre := (List.prefix_append u v).drop ((u ++ v).takeWhile (· ∈ A)).length
      rw [hdrop] at hpre
      have htail := ih (hu.drop _) hpre
      rw [List.length_drop] at htail
      omega

/-- The texts that an expression matches are those made of runs of the classes. -/
def TakesRuns (P : RegularExpression Char) (As : List (List Char)) : Prop :=
  ∀ t, t ∈ P.matches' ↔ Runs As t

theorem takesRuns_one : TakesRuns 1 [] := fun _ => Language.mem_one _

theorem TakesRuns.nil_cons {P : RegularExpression Char} {As : List (List Char)}
    (h : TakesRuns P As) : TakesRuns P ([] :: As) := fun t => (h t).trans runs_nil_cons.symm

theorem TakesRuns.mul {P : RegularExpression Char} {As : List (List Char)} (h : TakesRuns P As)
    (A : List Char) : TakesRuns (zeroOrMore A * P) (A :: As) := by
  intro t
  rw [matches'_mul, Language.mem_mul]
  constructor
  · rintro ⟨s, hs, u, hu, rfl⟩
    exact ⟨s, u, rfl, mem_zeroOrMore.1 hs, (h u).1 hu⟩
  · rintro ⟨s, u, rfl, hs, hu⟩
    exact ⟨s, mem_zeroOrMore.2 hs, u, (h u).2 hu, rfl⟩

theorem TakesRuns.zeroOrMore {As : List (List Char)} (h : TakesRuns 1 As) (A : List Char) :
    TakesRuns (zeroOrMore A) (A :: As) := by
  intro t
  have hmul := h.mul A t
  rwa [matches'_mul, matches'_epsilon, mul_one] at hmul

namespace Rule

def letters : Rule → List Char
  | .numbered => ['N', 'n'] | .note => ['A', 'B', 'C', 'D', 'E', 'F', 'G'] | .shift => ['<', '>']
  | .rest => ['R', 'r'] | .tempo => ['T', 't'] | .volume => ['V', 'v'] | .length => ['L', 'l']
  | .sustain => ['S', 's'] | .envelope => ['M', 'm'] | .octave => ['O', 'o']
  | .register => ['Y', 'y']

/-- The classes of the runs behind the first character of a match. -/
def classes : Rule → List (List Char)
  | .note => [signs, digits, ['.']]
  | .numbered | .rest => [[], digits, ['.']]
  | .shift => [[], [], []]
  | _ => [[], digits, []]

def needsDigits : Rule → Bool
  | .numbered | .octave | .register => true
  | _ => false

/-- What may stand behind the first character of a match. -/
def Tail (r : Rule) (u : List Char) : Prop :=
  match r.needsDigits with
  | true => ∃ d ∈ digits, ∃ v, u = d :: v ∧ Runs r.classes v
  | false => Runs r.classes u

theorem Tail.runs {r : Rule} {u : List Char} (h : r.Tail u) : Runs r.classes u := by
  cases hneeds : r.needsDigits with
  | false => simpa [Tail, hneeds] using h
  | true =>
      simp only [Tail, hneeds] at h
      obtain ⟨d, hd, v, rfl, hv⟩ := h
      cases r <;> first | contradiction |
        exact runs_nil_cons.2 ((runs_nil_cons.1 hv).cons hd)

theorem takesRuns_argument :
    TakesRuns (Grammar.zeroOrMore digits * Grammar.zeroOrMore ['.']) [[], digits, ['.']] :=
  ((takesRuns_one.zeroOrMore ['.']).mul digits).nil_cons

theorem takesRuns_digits : TakesRuns (Grammar.zeroOrMore digits) [[], digits, []] :=
  (takesRuns_one.nil_cons.zeroOrMore digits).nil_cons

theorem mem_pattern_iff {r : Rule} {t : List Char} :
    t ∈ r.pattern.matches' ↔ ∃ c ∈ r.letters, ∃ u, t = c :: u ∧ r.Tail u := by
  cases r with
  | numbered =>
      simp only [pattern, mem_oneOf_mul, mem_oneOrMore_mul, takesRuns_argument _]
      rfl
  | note =>
      have hruns := ((takesRuns_one.zeroOrMore ['.']).mul digits).mul signs
      simp only [pattern, mem_oneOf_mul, hruns _]
      rfl
  | shift =>
      have hruns := takesRuns_one.nil_cons.nil_cons.nil_cons
      simp only [pattern, mem_oneOf, Tail, classes, needsDigits, ← hruns _, matches'_epsilon,
        Language.mem_one, exists_eq_right]
      rfl
  | rest =>
      simp only [pattern, mem_oneOf_mul, takesRuns_argument _]
      rfl
  | octave | register =>
      simp only [pattern, oneOrMore, mem_oneOf_mul, takesRuns_digits _]
      rfl
  | tempo | volume | length | sustain | envelope =>
      simp only [pattern, mem_oneOf_mul, takesRuns_digits _]
      rfl

end Rule

end MusicMacro.Grammar
