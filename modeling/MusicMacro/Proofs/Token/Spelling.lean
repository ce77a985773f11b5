import Mathlib.Data.List.Forall2
import MusicMacro.Proofs.Token.Cut

/-!
Spellings. Some characters are written in two ways, as letters in either case, and all separators on
a line mean the same. Texts that differ in spelling alone are read alike.
-/

namespace MusicMacro

/-- Characters that can be written for each other: operators in either case, and signs of one
accidental. Note letters are not among them. -/
def spellings : List (List Char) :=
  [['N', 'n'], ['R', 'r'], ['T', 't'], ['V', 'v'], ['L', 'l'], ['S', 's'], ['M', 'm'], ['O', 'o'],
    ['Y', 'y'], ['#', '+'], ['b', '-']]

/-- Two characters that differ in spelling alone. -/
inductive Synonym : Char → Char → Prop
  | same (c : Char) : Synonym c c
  | spelled {group : List Char} {c d : Char} : group ∈ spellings → c ∈ group → d ∈ group →
      Synonym c d
  | separator {c d : Char} : isSeparator c = true → isSeparator d = true → c ≠ '\n' → d ≠ '\n' →
      Synonym c d

/-- All that reading can tell of a character, but which digit it is. -/
structure Role where
  separator : Bool
  operator : Option Operator
  sign : Option Accidental
  digit : Bool
  dot : Bool
  feed : Bool
  deriving DecidableEq

def roleOf (c : Char) : Role where
  separator := isSeparator c
  operator := Operator.ofChar? c
  sign := Accidental.ofChar? c
  digit := c.isDigit
  dot := c == '.'
  feed := c == '\n'

theorem roleOf_separator {c : Char} (hc : isSeparator c = true) (hfeed : c ≠ '\n') :
    roleOf c = ⟨true, none, none, false, false, false⟩ := by
  have hoperator : Operator.ofChar? c = none := by
    rw [Option.eq_none_iff_forall_ne_some]
    intro op hop
    rw [Operator.isSeparator_eq_false hop] at hc
    cases hc
  have hsign : Accidental.ofChar? c = none := by
    rw [← Option.not_isSome_iff_eq_none]
    intro hsign
    change Accidental.isSign c = true at hsign
    rw [(beginsApart_of_isSeparator hc []).isSign_eq_false c rfl] at hsign
    cases hsign
  obtain ⟨hdigit, hnot⟩ := beginsApart_of_isSeparator hc [] c rfl
  have hdot : c ≠ '.' := fun heq => hnot (heq ▸ List.mem_cons_self)
  rw [roleOf, hc, hoperator, hsign, hdigit, beq_eq_false_iff_ne.2 hdot,
    beq_eq_false_iff_ne.2 hfeed]

theorem roleOf_spelled {group : List Char} (h : group ∈ spellings) {c d : Char} (hc : c ∈ group)
    (hd : d ∈ group) : roleOf c = roleOf d := by
  fin_cases h <;> fin_cases hc <;> fin_cases hd <;> rfl

namespace Synonym

variable {c d : Char}

theorem roleOf_eq (h : Synonym c d) : roleOf c = roleOf d := by
  cases h with
  | same => rfl
  | spelled hgroup hc hd => exact roleOf_spelled hgroup hc hd
  | separator hc hd hcfeed hdfeed => rw [roleOf_separator hc hcfeed, roleOf_separator hd hdfeed]

theorem eq_of_isDigit (h : Synonym c d) (hdigit : c.isDigit = true) : c = d := by
  cases h with
  | same => rfl
  | spelled hgroup hc hd =>
      fin_cases hgroup <;> fin_cases hc <;> cases hdigit
  | separator hc hd hcfeed hdfeed =>
      have hrole := congrArg Role.digit (roleOf_separator hc hcfeed)
      change c.isDigit = false at hrole
      rw [hrole] at hdigit
      cases hdigit

/-- Two spellings of an operator differ in their case at most. -/
theorem toUpper_eq (h : Synonym c d) {op : Operator} (hop : Operator.ofChar? c = some op) :
    c.toUpper = d.toUpper := by
  cases h with
  | same => rfl
  | spelled hgroup hc hd =>
      have hsome : (Operator.ofChar? c).isSome = true := by
        rw [hop]
        rfl
      fin_cases hgroup <;> fin_cases hc <;> fin_cases hd <;> first | rfl | cases hsome
  | separator hc hd hcfeed hdfeed =>
      have hrole := congrArg Role.operator (roleOf_separator hc hcfeed)
      change Operator.ofChar? c = none at hrole
      rw [hrole] at hop
      cases hop

theorem synonym_iff : Synonym c d ↔ c = d ∨ (∃ group ∈ spellings, c ∈ group ∧ d ∈ group) ∨
    isSeparator c = true ∧ isSeparator d = true ∧ c ≠ '\n' ∧ d ≠ '\n' := by
  constructor
  · intro h
    cases h with
    | same => exact .inl rfl
    | spelled hgroup hc hd => exact .inr (.inl ⟨_, hgroup, hc, hd⟩)
    | separator hc hd hcfeed hdfeed => exact .inr (.inr ⟨hc, hd, hcfeed, hdfeed⟩)
  · rintro (rfl | ⟨group, hgroup, hc, hd⟩ | ⟨hc, hd, hcfeed, hdfeed⟩)
    · exact .same c
    · exact .spelled hgroup hc hd
    · exact .separator hc hd hcfeed hdfeed

instance : DecidableRel Synonym := fun _ _ => decidable_of_iff _ synonym_iff.symm

theorem isSeparator_eq (h : Synonym c d) : isSeparator c = isSeparator d :=
  congrArg Role.separator h.roleOf_eq

theorem after_eq (h : Synonym c d) (p : Place) : p.after c = p.after d := by
  have hrole : (c == '\n') = (d == '\n') := congrArg Role.feed h.roleOf_eq
  have hfeed : c = '\n' ↔ d = '\n' := by simpa using Bool.eq_iff_iff.1 hrole
  simp only [Place.after, hfeed]

end Synonym

section
variable {α β : Type} {R : α → β → Prop} {p : α → Bool} {q : β → Bool} {as : List α} {bs : List β}

theorem forall₂_takeWhile (hpq : ∀ a b, R a b → p a = q b) (h : List.Forall₂ R as bs) :
    List.Forall₂ R (as.takeWhile p) (bs.takeWhile q) := by
  induction h with
  | nil => exact .nil
  | @cons a b as bs hab _ ih =>
      rw [List.takeWhile_cons, List.takeWhile_cons, hpq a b hab]
      split
      · exact .cons hab ih
      · exact .nil

theorem forall₂_dropWhile (hpq : ∀ a b, R a b → p a = q b) (h : List.Forall₂ R as bs) :
    List.Forall₂ R (as.dropWhile p) (bs.dropWhile q) := by
  induction h with
  | nil => exact .nil
  | @cons a b as bs hab htail ih =>
      rw [List.dropWhile_cons, List.dropWhile_cons, hpq a b hab]
      split
      · exact ih
      · exact .cons hab htail

end

/-- Texts that differ in spelling alone. -/
abbrev Respelled : List Char → List Char → Prop := List.Forall₂ Synonym

theorem Respelled.past_eq {cs ds : List Char} (h : Respelled cs ds) (p : Place) :
    p.past cs = p.past ds := by
  induction h generalizing p with
  | nil => rfl
  | cons hcd _ ih => rw [Place.past_cons, Place.past_cons, hcd.after_eq, ih]

theorem Respelled.eq_of_digits {cs ds : List Char} (h : Respelled cs ds)
    (hdigits : ∀ c ∈ cs, c.isDigit = true) : cs = ds := by
  induction h with
  | nil => rfl
  | cons hcd _ ih =>
      obtain ⟨hc, hcs⟩ := List.forall_mem_cons.1 hdigits
      rw [hcd.eq_of_isDigit hc, ih hcs]

namespace Operator

/-- Texts divided into parts that differ in spelling alone. -/
structure Parts.Alike (p q : Parts) : Prop where
  signs : Respelled p.signs q.signs
  digits : p.digits = q.digits
  dots : Respelled p.dots q.dots
  rest : Respelled p.rest q.rest

theorem parts_respelled (op : Operator) {cs ds : List Char} (h : Respelled cs ds) :
    (op.parts cs).Alike (op.parts ds) := by
  have hsign : ∀ c d, Synonym c d →
      (op.takesSigns && Accidental.isSign c) = (op.takesSigns && Accidental.isSign d) := by
    intro c d hcd
    have hrole : Accidental.ofChar? c = Accidental.ofChar? d := congrArg Role.sign hcd.roleOf_eq
    rw [Accidental.isSign, Accidental.isSign, hrole]
  have hdigit : ∀ c d, Synonym c d →
      (op.takesDigits && c.isDigit) = (op.takesDigits && d.isDigit) := by
    intro c d hcd
    have hrole : c.isDigit = d.isDigit := congrArg Role.digit hcd.roleOf_eq
    rw [hrole]
  have hdot : ∀ c d, Synonym c d → (op.takesDots && c == '.') = (op.takesDots && d == '.') := by
    intro c d hcd
    have hrole : (c == '.') = (d == '.') := congrArg Role.dot hcd.roleOf_eq
    rw [hrole]
  have hunsigned := forall₂_dropWhile hsign h
  have hundotted := forall₂_dropWhile hdigit hunsigned
  refine ⟨forall₂_takeWhile hsign h, ?_, forall₂_takeWhile hdot hundotted,
    forall₂_dropWhile hdot hundotted⟩
  refine Respelled.eq_of_digits (forall₂_takeWhile hdigit hunsigned) ?_
  intro c hc
  rw [Grammar.isDigit_eq, decide_eq_true_iff]
  exact mem_digits_of_parts hc

namespace Parts.Alike

variable {p q : Parts}

theorem accidental_eq (h : p.Alike q) : p.accidental = q.accidental := by
  have hsigns := h.signs
  rw [accidental, accidental]
  generalize p.signs = ss, q.signs = ts at hsigns
  cases hsigns with
  | nil => rfl
  | cons hst => exact congrArg Role.sign hst.roleOf_eq

theorem dotCount_eq (h : p.Alike q) : p.dotCount = q.dotCount := by
  rw [dotCount, dotCount, h.dots.length_eq]

theorem taken (h : p.Alike q) {c d : Char} (hcd : Synonym c d) :
    Respelled (c :: (p.signs ++ (p.digits ++ p.dots)))
      (d :: (q.signs ++ (q.digits ++ q.dots))) := by
  have hdigits : Respelled p.digits q.digits := by
    rw [h.digits]
    exact List.forall₂_same.2 fun c _ => .same c
  exact .cons hcd (List.rel_append h.signs (List.rel_append hdigits h.dots))

end Parts.Alike

end Operator

/-- A misreading, whatever the case of the operator that it names. -/
def Misreading.folded : Misreading → Misreading
  | .missingArgument operator => .missingArgument operator.toUpper
  | .numberTooLarge digits => .numberTooLarge digits

namespace Reading

/-- Readings of texts that differ in spelling alone. -/
inductive Alike : Reading → Reading → Prop
  | token {kind : Token.Kind} {taken taken' rest rest' : List Char} : Respelled taken taken' →
      Respelled rest rest' → Alike (.token kind taken rest) (.token kind taken' rest')
  | failed {cause cause' : Misreading} {taken taken' rest rest' : List Char} :
      cause.folded = cause'.folded → Alike (.failed cause taken rest) (.failed cause' taken' rest')
  | unknown : Alike .unknown .unknown

theorem ofText_respelled {c d : Char} {cs ds : List Char} (hcd : Synonym c d)
    (h : Respelled cs ds) : (ofText c cs).Alike (ofText d ds) := by
  have hrole : Operator.ofChar? c = Operator.ofChar? d := congrArg Role.operator hcd.roleOf_eq
  unfold ofText
  rw [← hrole]
  split
  next => exact .unknown
  next op hop =>
    have hparts := op.parts_respelled h
    have htaken := hparts.taken hcd
    rw [← hparts.digits] at htaken
    dsimp only
    rw [← hparts.digits, ← hparts.accidental_eq, ← hparts.dotCount_eq]
    split
    next cause => exact .failed rfl
    next n =>
      split
      next kind => exact .token htaken hparts.rest
      next =>
        split
        next => exact .unknown
        next => exact .failed (congrArg Misreading.missingArgument (hcd.toUpper_eq hop))

end Reading

def LexicalFault.folded (f : LexicalFault) : LexicalFault := { f with cause := f.cause.folded }

/-- Faults that are alike up to case have one wording, unless they name an operator. -/
theorem LexicalFault.message_of_folded {f g : LexicalFault} (h : f.folded = g.folded) :
    f.message = g.message ∨ ∃ c d, c.toUpper = d.toUpper ∧ f.cause = .missingArgument c ∧
      g.cause = .missingArgument d := by
  obtain ⟨cause, place⟩ := f
  obtain ⟨cause', place'⟩ := g
  obtain ⟨hcause, rfl⟩ := LexicalFault.mk.inj h
  cases cause with
  | missingArgument c =>
      cases cause' with
      | missingArgument d => exact .inr ⟨c, d, Misreading.missingArgument.inj hcause, rfl, rfl⟩
      | numberTooLarge => cases hcause
  | numberTooLarge digits =>
      cases cause' with
      | missingArgument => cases hcause
      | numberTooLarge digits' =>
          obtain rfl := Misreading.numberTooLarge.inj hcause
          exact .inl rfl

/-- What a transcript tells whatever the spelling: what the tokens say and where, where characters
are skipped, and the fault up to the case of an operator in it. -/
structure Outline where
  tokens : List (Token.Kind × Place)
  skipped : List Place
  fault : Option LexicalFault
  deriving DecidableEq, Repr

def Transcript.outline (x : Transcript) : Outline where
  tokens := x.tokens.map fun t => (t.kind, t.place)
  skipped := x.skipped.map Skipped.place
  fault := x.fault.map LexicalFault.folded

namespace Transcript

variable {x y : Transcript}

theorem outline_cons_token (h : x.outline = y.outline) {t u : Token} (hkind : t.kind = u.kind)
    (hplace : t.place = u.place) :
    outline { x with tokens := t :: x.tokens } = outline { y with tokens := u :: y.tokens } := by
  obtain ⟨htokens, hskipped, hfault⟩ := Outline.mk.inj h
  simp only [outline, List.map_cons, hkind, hplace, htokens, hskipped, hfault]

theorem outline_cons_skipped (h : x.outline = y.outline) {s u : Skipped}
    (hplace : s.place = u.place) :
    outline { x with skipped := s :: x.skipped } =
      outline { y with skipped := u :: y.skipped } := by
  obtain ⟨htokens, hskipped, hfault⟩ := Outline.mk.inj h
  simp only [outline, List.map_cons, hplace, htokens, hskipped, hfault]

end Transcript

theorem Respelled.exists_reading {c : Char} {cs ds : List Char} (h : Respelled (c :: cs) ds)
    (hc : isSeparator c = false) :
    ∃ d es, ds = d :: es ∧ Synonym c d ∧ Respelled cs es ∧ isSeparator d = false ∧
      (Reading.ofText c cs).Alike (Reading.ofText d es) := by
  obtain ⟨d, es, hcd, hlater, rfl⟩ := List.forall₂_cons_left_iff.1 h
  exact ⟨d, es, rfl, hcd, hlater, hcd.isSeparator_eq.symm.trans hc,
    Reading.ofText_respelled hcd hlater⟩

/-- Texts that differ in spelling alone are read alike. -/
theorem Respelled.outline_eq {p : Place} {cs ds : List Char} (h : Respelled cs ds) :
    (Transcript.ofPieces (pieces p cs)).outline = (Transcript.ofPieces (pieces p ds)).outline := by
  induction p, cs using pieces_induction generalizing ds with
  | nil p =>
      cases h
      rfl
  | separator p c cs hc ih =>
      obtain ⟨d, ds, hcd, hlater, rfl⟩ := List.forall₂_cons_left_iff.1 h
      have hd : isSeparator d = true := hcd.isSeparator_eq.symm.trans hc
      rw [pieces_separator hc, pieces_separator hd, ← hcd.after_eq]
      exact ih hlater
  | token p c cs kind taken rest hc hr ih =>
      obtain ⟨d, ds, rfl, -, -, hd, hreading⟩ := h.exists_reading hc
      rw [hr] at hreading
      generalize hs : Reading.ofText d ds = reading at hreading
      cases hreading with
      | token htaken hrest =>
          rw [pieces_token hc hr, pieces_token hd hs, ← htaken.past_eq]
          exact Transcript.outline_cons_token (ih hrest) rfl rfl
  | failed p c cs cause taken rest hc hr =>
      obtain ⟨d, ds, rfl, -, -, hd, hreading⟩ := h.exists_reading hc
      rw [hr] at hreading
      generalize hs : Reading.ofText d ds = reading at hreading
      cases hreading with
      | failed hcause =>
          rw [pieces_failed hc hr, pieces_failed hd hs]
          exact congrArg (fun cause => Outline.mk [] [] (some ⟨cause, p⟩)) hcause
  | unknown p c cs hc hr ih =>
      obtain ⟨d, ds, rfl, hcd, hlater, hd, hreading⟩ := h.exists_reading hc
      rw [hr] at hreading
      generalize hs : Reading.ofText d ds = reading at hreading
      cases hreading with
      | unknown =>
          rw [pieces_unknown hc hr, pieces_unknown hd hs, ← hcd.after_eq]
          exact Transcript.outline_cons_skipped (ih hlater) rfl

end MusicMacro
