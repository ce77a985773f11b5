import MusicMacro.Proofs.Yaml.Member
import MusicMacro.Yaml.Document

/-!
The document of a block mapping whose members stand on a line each: the heads of its keys and values
in turn, between those of the mapping and of its end.
-/

namespace MusicMacro.Yaml

namespace Member

variable (x : Member)

def keyScalar : Scalar := { text := String.ofList x.key }

def valueScalar : Scalar := { text := String.ofList x.value }

/-- The heads of a line. -/
def heads (m : Mark) : List Head :=
  [⟨.scalar x.keyScalar, m, false⟩, ⟨.scalar x.valueScalar, x.valueStart m, false⟩]

/-- The heads of lines that begin at a mark, up to the end of the mapping. -/
def headsFrom (m : Mark) : List Member → List Head
  | [] => [⟨.mappingEnd, m, false⟩]
  | x :: xs => x.heads m ++ headsFrom (x.behind m) xs

/-- The events of a line. -/
def events (m : Mark) : List Event :=
  [⟨.scalar x.keyScalar none, m⟩, ⟨.scalar x.valueScalar none, x.valueStart m⟩]

def eventsFrom (m : Mark) : List Member → List Event
  | [] => [⟨.mappingEnd, m⟩]
  | x :: xs => x.events m ++ eventsFrom (x.behind m) xs

theorem length_tokensFrom (m : Mark) (xs : List Member) :
    (tokensFrom m xs).length = 4 * xs.length + 2 := by
  induction xs generalizing m with
  | nil => rfl
  | cons x xs ih =>
      rw [tokensFrom, List.length_append, ih, List.length_cons]
      simp only [tokens, List.length_cons, List.length_nil]
      omega

end Member

namespace Event

variable {handles : Handles} {opened m : Mark} {x : Member} {ts : List Token}

/-- The grammar takes a line in two steps and then expects the next key. -/
theorem readFrom_line (fuel : Nat) :
    readFrom handles (fuel + 2) [.blockKey opened] (x.tokens m ++ ts) =
      (x.events m ++ (readFrom handles fuel [.blockKey opened] ts).1,
        (readFrom handles fuel [.blockKey opened] ts).2) := rfl

theorem readFrom_lines (members : List Member) {fuel : Nat}
    (hfuel : 2 * members.length + 2 ≤ fuel) :
    ∃ m', readFrom handles fuel [.blockKey opened] (Member.tokensFrom m members) =
      (Member.eventsFrom m members, .ok [⟨.streamEnd, m', m'⟩]) := by
  induction members generalizing m fuel with
  | nil =>
      obtain ⟨fuel, rfl⟩ := Nat.exists_eq_add_of_le' hfuel
      exact ⟨m, rfl⟩
  | cons x members ih =>
      obtain ⟨fuel, rfl⟩ : ∃ n, fuel = n + 2 := Nat.exists_eq_add_of_le' (by omega)
      have hlt : 2 * members.length + 2 ≤ fuel := by
        rw [List.length_cons] at hfuel
        omega
      obtain ⟨m', hlater⟩ := ih (m := x.behind m) hlt
      refine ⟨m', ?_⟩
      rw [Member.tokensFrom, readFrom_line, hlater]
      rfl

theorem first_members (members : List Member) :
    ∃ m', first (⟨.blockMapping, m, m⟩ :: Member.tokensFrom m members) =
      (⟨.mapping none, m⟩ :: Member.eventsFrom m members, .ok [⟨.streamEnd, m', m'⟩]) := by
  let ts : List Token := ⟨.blockMapping, m, m⟩ :: Member.tokensFrom m members
  have hfuel : 2 * members.length + 2 ≤ 4 * ts.length + 4 := by
    rw [List.length_cons, Member.length_tokensFrom]
    omega
  have hlines : ∃ m', readFrom coreHandles (4 * ts.length + 4) [.blockKey m]
      (Member.tokensFrom m members) = (Member.eventsFrom m members, .ok [⟨.streamEnd, m', m'⟩]) :=
    readFrom_lines members hfuel
  obtain ⟨m', hlines⟩ := hlines
  refine ⟨m', ?_⟩
  change (_ :: (readFrom coreHandles _ [.blockKey m] (Member.tokensFrom m members)).1,
    (readFrom coreHandles _ [.blockKey m] (Member.tokensFrom m members)).2) = _
  rw [hlines]
  rfl

theorem ofTokens_members (members : List Member) :
    ofTokens (⟨.blockMapping, m, m⟩ :: Member.tokensFrom m members) none =
      (⟨.mapping none, m⟩ :: Member.eventsFrom m members, none) := by
  obtain ⟨m', hfirst⟩ := first_members (m := m) members
  rw [ofTokens, hfirst]
  rfl

end Event

namespace Document

variable {flaw : Option Flaw} {a : Anchors} {m : Mark}

/-- Without anchors and aliases each event gives a head of its own. -/
theorem number_line (x : Member) (es : List Event) : number flaw a (x.events m ++ es) =
    ((x.heads m).map .head ++ (number flaw a es).1, (number flaw a es).2) := rfl

theorem number_mapping (es : List Event) : number flaw a (⟨.mapping none, m⟩ :: es) =
    (.head ⟨.mapping, m, false⟩ :: (number flaw a es).1, (number flaw a es).2) := rfl

theorem number_lines (members : List Member) : number flaw a (Member.eventsFrom m members) =
    ((Member.headsFrom m members).map .head, a, flaw) := by
  induction members generalizing m with
  | nil => rfl
  | cons x members ih => rw [Member.eventsFrom, number_line, ih, Member.headsFrom, List.map_append]

theorem resolve_heads (a : Anchors) (hs : List Head) :
    (hs.map Entry.head).filterMap (Entry.resolve? a) = hs := by
  rw [List.filterMap_map]
  exact List.filterMap_some

section
variable (first : Member) (members : List Member)

/-- The document of members that stand on a line each. -/
theorem ofText_members (hshort : ∀ x ∈ first :: members, x.IsShort) :
    ofText (String.ofList ((first :: members).flatMap Member.text)) =
      ⟨⟨.mapping, {}, false⟩ :: Member.headsFrom {} (first :: members), none⟩ := by
  rw [ofText, tokens_members first members hshort]
  dsimp only
  rw [Event.ofTokens_members]
  dsimp only
  rw [number_mapping, number_lines, ← List.map_cons, resolve_heads]

/-- A key on the first line that its colon does not reach is all that is there of a document. -/
theorem ofText_long_key (hlong : ¬ first.IsShort) :
    ofText (String.ofList ((first :: members).flatMap Member.text)) =
      ⟨[⟨.scalar first.keyScalar, {}, false⟩],
        some (.broken .strayValue (first.colon {}) (first.colon {}))⟩ := by
  rw [ofText, tokens_long_key first members hlong]
  rfl

end

end Document

end MusicMacro.Yaml
