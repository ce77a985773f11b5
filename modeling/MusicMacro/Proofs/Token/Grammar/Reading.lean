import Mathlib.Tactic.FinCases
import Mathlib.Tactic.IntervalCases
import MusicMacro.Fault
import MusicMacro.Proofs.Token.Grammar.Runs
import MusicMacro.Proofs.Token.Transcript

/-!
Reading follows the grammar. The first character decides the rule, the runs behind it are its
longest match, and so the transcript of a text is the one outcome that the grammar gives it.
-/

namespace MusicMacro

open Grammar (Rule Verdict FirstMatch NoMatch Says Judges Lexes Outcome Runs munch)

namespace Grammar

theorem isSign_eq (c : Char) : Accidental.isSign c = decide (c ∈ signs) := by
  rw [Accidental.isSign, Bool.eq_iff_iff, Option.isSome_iff_exists, decide_eq_true_iff,
    mem_signs_iff]
  simp only [ofChar?_eq_some_iff]

theorem isDigit_eq (c : Char) : c.isDigit = decide (c ∈ digits) := by
  rw [Bool.eq_iff_iff, decide_eq_true_iff]
  constructor
  · intro h
    have hbounds : 48 ≤ c.toNat ∧ c.toNat ≤ 57 := by
      simpa [Char.isDigit, UInt32.le_iff_toNat_le] using h
    obtain ⟨hlow, hhigh⟩ := hbounds
    rw [← Char.ofNat_toNat c]
    interval_cases c.toNat <;> decide
  · intro h
    fin_cases h <;> rfl

theorem idxOf_digits {d : Char} (hd : d ∈ digits) : digits.idxOf d = d.toNat - '0'.toNat := by
  fin_cases hd <;> rfl

theorem value_eq_ofDigits {ds : List Char} (hds : ∀ d ∈ ds, d ∈ digits) :
    Decimal.value ds = Nat.ofDigits 10 (ds.reverse.map fun d => digits.idxOf d) := by
  induction ds using List.reverseRecOn with
  | nil => rfl
  | append_singleton ds d ih =>
      have hinit := ih fun x hx => hds x (List.mem_append_left _ hx)
      have hlast := idxOf_digits (hds d (List.mem_append_right _ (List.mem_singleton_self d)))
      rw [List.reverse_append, List.reverse_singleton, List.singleton_append, List.map_cons,
        Nat.ofDigits_cons, ← hinit, hlast, Decimal.value, List.foldl_append, Nat.add_comm]
      rfl

end Grammar

namespace Operator

/-- The rule of the grammar that an operator stands for. -/
def rule : Operator → Rule
  | .numbered => .numbered | .note _ => .note | .shift _ => .shift | .rest => .rest
  | .tempo => .tempo | .volume => .volume | .length => .length | .sustain => .sustain
  | .envelope => .envelope | .octave => .octave | .register => .register

theorem mem_letters_of_ofChar? {c : Char} {op : Operator} (h : ofChar? c = some op) :
    c ∈ op.rule.letters := by
  unfold ofChar? at h
  split at h
  case h_21 =>
    obtain ⟨l, hl, rfl⟩ := Option.map_eq_some_iff.1 h
    change c ∈ Rule.note.letters
    unfold Letter.ofChar? at hl
    split at hl <;> first | contradiction | decide
  all_goals
    obtain rfl := Option.some.inj h
    decide

theorem exists_of_mem_letters {c : Char} {r : Rule} (h : c ∈ r.letters) :
    ∃ op, ofChar? c = some op ∧ op.rule = r := by
  cases r <;> fin_cases h <;> exact ⟨_, rfl, rfl⟩

theorem munch_classes (op : Operator) (cs : List Char) :
    munch op.rule.classes cs =
      (op.parts cs).signs ++ ((op.parts cs).digits ++ (op.parts cs).dots) := by
  cases op <;>
    simp [munch, rule, Rule.classes, parts, takesSigns, takesDigits, takesDots, Grammar.isSign_eq,
      Grammar.isDigit_eq, beq_eq_decide]

theorem isSign_of_parts {op : Operator} {cs : List Char} {c : Char}
    (h : c ∈ (op.parts cs).signs) : Accidental.isSign c = true := by
  have hc := List.mem_takeWhile_imp h
  rw [Bool.and_eq_true] at hc
  exact hc.2

theorem isDigit_of_parts {op : Operator} {cs : List Char} {c : Char}
    (h : c ∈ (op.parts cs).digits) : c.isDigit = true := by
  have hc := List.mem_takeWhile_imp h
  rw [Bool.and_eq_true] at hc
  exact hc.2

theorem mem_signs_of_parts {op : Operator} {cs : List Char} {c : Char}
    (h : c ∈ (op.parts cs).signs) : c ∈ Grammar.signs := by
  have hc := isSign_of_parts h
  rwa [Grammar.isSign_eq, decide_eq_true_iff] at hc

theorem mem_digits_of_parts {op : Operator} {cs : List Char} {c : Char}
    (h : c ∈ (op.parts cs).digits) : c ∈ Grammar.digits := by
  have hc := isDigit_of_parts h
  rwa [Grammar.isDigit_eq, decide_eq_true_iff] at hc

theorem eq_dot_of_parts {op : Operator} {cs : List Char} {c : Char}
    (h : c ∈ (op.parts cs).dots) : c = '.' := by
  have hc := List.mem_takeWhile_imp h
  rw [Bool.and_eq_true, beq_iff_eq] at hc
  exact hc.2

theorem digits_parts_ne_nil {op : Operator} {cs : List Char} {d : Char}
    (hneeds : op.rule.needsDigits = true) (hd : d ∈ Grammar.digits) :
    (op.parts (d :: cs)).digits ≠ [] := by
  have hdigit : d.isDigit = true := by rw [Grammar.isDigit_eq, decide_eq_true_iff]; exact hd
  cases op <;> first | contradiction | simp [parts, takesSigns, takesDigits, hdigit]

section
variable {c : Char} {cs : List Char} {op : Operator}

/-- Only the rule of the operator matches at its character. -/
theorem eq_rule_of_matches {r : Rule} {t : List Char} (hop : ofChar? c = some op)
    (h : r.Matches (c :: cs) t) : r = op.rule ∧ ∃ u, t = c :: u ∧ u <+: cs ∧ op.rule.Tail u := by
  obtain ⟨d, hd, u, rfl, hu⟩ := Grammar.Rule.mem_pattern_iff.1 h.1
  obtain ⟨rfl, hpre⟩ := List.cons_prefix_cons.1 h.2
  obtain ⟨op', hop', rfl⟩ := exists_of_mem_letters hd
  obtain rfl : op' = op := Option.some.inj (hop'.symm.trans hop)
  exact ⟨rfl, u, rfl, hpre, hu⟩

theorem noMatch_of_ofChar?_eq_none (hop : ofChar? c = none) : NoMatch (c :: cs) := by
  intro r t h
  obtain ⟨d, hd, u, rfl, -⟩ := Grammar.Rule.mem_pattern_iff.1 h.1
  obtain ⟨rfl, -⟩ := List.cons_prefix_cons.1 h.2
  obtain ⟨op, hsome, -⟩ := exists_of_mem_letters hd
  rw [hop] at hsome
  cases hsome

theorem noMatch_of_no_digits (hop : ofChar? c = some op) (hneeds : op.rule.needsDigits = true)
    (hdigits : (op.parts cs).digits = []) : NoMatch (c :: cs) := by
  intro r t h
  obtain ⟨rfl, u, rfl, hpre, hu⟩ := eq_rule_of_matches hop h
  simp only [Rule.Tail, hneeds] at hu
  obtain ⟨d, hd, v, rfl, -⟩ := hu
  obtain ⟨w, rfl⟩ := hpre
  exact digits_parts_ne_nil hneeds hd hdigits

theorem tail_parts (hdigits : op.rule.needsDigits = true → (op.parts cs).digits ≠ []) :
    op.rule.Tail ((op.parts cs).signs ++ ((op.parts cs).digits ++ (op.parts cs).dots)) := by
  have hruns := Grammar.runs_munch op.rule.classes cs
  rw [munch_classes] at hruns
  cases hneeds : op.rule.needsDigits with
  | false => simpa only [Rule.Tail, hneeds] using hruns
  | true =>
      have hsigns : (op.parts cs).signs = [] := by
        cases op <;> first | contradiction | simp [parts, takesSigns]
      obtain ⟨d, ds, hd⟩ := List.exists_cons_of_ne_nil (hdigits hneeds)
      have howned : d ∈ (op.parts cs).digits := hd ▸ List.mem_cons_self
      have hmem := mem_digits_of_parts howned
      have hbehind := hruns.drop 1
      rw [hsigns, hd] at hbehind ⊢
      simp only [Rule.Tail, hneeds]
      exact ⟨d, hmem, ds ++ (op.parts cs).dots, rfl, hbehind⟩

/-- What an operator owns is the longest match of its rule. -/
theorem firstMatch_parts (hop : ofChar? c = some op)
    (hdigits : op.rule.needsDigits = true → (op.parts cs).digits ≠ []) :
    FirstMatch op.rule (c :: cs)
      (c :: ((op.parts cs).signs ++ ((op.parts cs).digits ++ (op.parts cs).dots)))
      (op.parts cs).rest where
  split := by simp only [List.cons_append, List.append_assoc, op.parts_append]
  isMatch := by
    refine ⟨Grammar.Rule.mem_pattern_iff.2
      ⟨c, mem_letters_of_ofChar? hop, _, rfl, tail_parts hdigits⟩, ?_⟩
    refine List.cons_prefix_cons.2 ⟨rfl, (op.parts cs).rest, ?_⟩
    rw [List.append_assoc, List.append_assoc, op.parts_append]
  longest t ht := by
    obtain ⟨-, u, rfl, hpre, hu⟩ := eq_rule_of_matches hop ht
    rw [← munch_classes]
    exact Nat.succ_le_succ (Grammar.length_le_munch hu.runs hpre)
  first r' hlt t ht := by
    obtain ⟨rfl, -⟩ := eq_rule_of_matches hop ht
    exact Nat.lt_irrefl _ hlt

end

end Operator

namespace Grammar

/-- A match by its parts: the opening character, signs, digits and dots. -/
structure Spelled (r : Rule) (c : Char) (ss ds es : List Char) : Prop where
  opens : c ∈ r.letters
  signs : ∀ x ∈ ss, x ∈ signs
  digits : ∀ x ∈ ds, x ∈ digits
  dots : ∀ x ∈ es, x = '.'

theorem not_mem_digits_of_mem_letters {r : Rule} {c : Char} (h : c ∈ r.letters) :
    c ∉ digits := by
  cases r <;> fin_cases h <;> decide

theorem not_mem_signs_of_mem_letters {r : Rule} {c : Char} (h : c ∈ r.letters) : c ∉ signs := by
  cases r <;> fin_cases h <;> decide

theorem dot_not_mem_letters (r : Rule) : '.' ∉ r.letters := by
  cases r <;> decide

namespace Spelled

variable {r : Rule} {c : Char} {ss ds es : List Char}

theorem digitsOf_eq (h : Spelled r c ss ds es) : digitsOf (c :: (ss ++ (ds ++ es))) = ds := by
  have hsigns : ss.filter (· ∈ Grammar.digits) = [] := by
    rw [List.filter_eq_nil_iff]
    intro x hx
    have hsign := h.signs x hx
    fin_cases hsign <;> decide
  have hdots : es.filter (· ∈ Grammar.digits) = [] := by
    rw [List.filter_eq_nil_iff]
    intro x hx
    rw [h.dots x hx]
    decide
  have hdigits : ds.filter (· ∈ Grammar.digits) = ds := by
    rw [List.filter_eq_self]
    intro x hx
    exact decide_eq_true (h.digits x hx)
  rw [digitsOf, List.filter_cons_of_neg (by simpa using not_mem_digits_of_mem_letters h.opens),
    List.filter_append, List.filter_append, hsigns, hdigits, hdots, List.nil_append,
    List.append_nil]

theorem trailingDots_eq (h : Spelled r c ss ds es) :
    trailingDots (c :: (ss ++ (ds ++ es))) = es.length := by
  have hfront : ∀ x ∈ c :: (ss ++ ds), ¬ (x == '.') = true := by
    intro x hx hdot
    obtain rfl : x = '.' := beq_iff_eq.1 hdot
    rcases List.mem_cons.1 hx with rfl | hx
    · exact dot_not_mem_letters r h.opens
    · rcases List.mem_append.1 hx with hx | hx
      · exact absurd (h.signs _ hx) (by decide)
      · exact absurd (h.digits _ hx) (by decide)
  have hnone : (c :: (ss ++ ds)).reverse.takeWhile (· == '.') = [] := by
    cases hrev : (c :: (ss ++ ds)).reverse with
    | nil => rfl
    | cons x xs =>
        have hx : x ∈ (c :: (ss ++ ds)).reverse := hrev ▸ List.mem_cons_self
        exact List.takeWhile_cons_of_neg (hfront x (List.mem_reverse.1 hx))
  have hsplit : (c :: (ss ++ (ds ++ es))).reverse = es.reverse ++ (c :: (ss ++ ds)).reverse := by
    simp
  rw [trailingDots, hsplit, List.takeWhile_append_of_pos (by simpa using h.dots), hnone,
    List.append_nil, List.length_reverse]

theorem accidental_eq (h : Spelled r c ss ds es) :
    accidental (c :: (ss ++ (ds ++ es))) = ss.head?.bind Accidental.ofChar? := by
  have hc : c ∉ Grammar.signs := not_mem_signs_of_mem_letters h.opens
  rw [accidental, List.find?_cons_of_neg (by simpa using hc)]
  cases ss with
  | cons x xs =>
      rw [List.cons_append, List.find?_cons_of_pos (by simpa using h.signs x List.mem_cons_self)]
      rfl
  | nil =>
      have hnone : (ds ++ es).find? (· ∈ Grammar.signs) = none := by
        rw [List.find?_eq_none]
        intro x hx
        rcases List.mem_append.1 hx with hx | hx
        · have hdigit := h.digits x hx
          fin_cases hdigit <;> decide
        · rw [h.dots x hx]
          decide
      rw [List.nil_append, hnone]
      rfl

end Spelled

end Grammar

namespace Operator

variable {c : Char} {op : Operator}

theorem spelled_parts (hop : ofChar? c = some op) (cs : List Char) :
    Grammar.Spelled op.rule c (op.parts cs).signs (op.parts cs).digits (op.parts cs).dots where
  opens := mem_letters_of_ofChar? hop
  signs _ := mem_signs_of_parts
  digits _ := mem_digits_of_parts
  dots _ := eq_dot_of_parts

end Operator

theorem number_eq {ds taken : List Char} (hds : ∀ d ∈ ds, d ∈ Grammar.digits)
    (htaken : Grammar.digitsOf taken = ds) :
    Grammar.number taken = if ds = [] then none else some (Decimal.value ds) := by
  rw [Grammar.number, htaken, Grammar.value_eq_ofDigits hds]

/-- An argument that is read is the number that the grammar gives. -/
theorem map_toNat_of_argument {ds taken : List Char} {n : Option UInt32}
    (hds : ∀ d ∈ ds, d ∈ Grammar.digits) (htaken : Grammar.digitsOf taken = ds)
    (h : Token.argument ds = .ok n) : n.map UInt32.toNat = Grammar.number taken := by
  rw [number_eq hds htaken]
  unfold Token.argument at h
  split at h
  next hnil =>
    obtain rfl := Except.ok.inj h
    rw [if_pos (List.isEmpty_iff.1 hnil)]
    rfl
  next hnil =>
    rw [if_neg (mt List.isEmpty_iff.2 hnil)]
    split at h
    next hlt =>
      obtain rfl := Except.ok.inj h
      exact congrArg some (UInt32.toNat_ofNat_of_lt' hlt)
    next => cases h

/-- An argument that cannot be read is a number beyond the words. -/
theorem too_large_of_argument {ds taken : List Char} {cause : Misreading}
    (hds : ∀ d ∈ ds, d ∈ Grammar.digits) (htaken : Grammar.digitsOf taken = ds)
    (h : Token.argument ds = .error cause) :
    cause = .numberTooLarge (String.ofList ds) ∧ ds ≠ [] ∧
      ∃ n, Grammar.number taken = some n ∧ 4294967296 ≤ n := by
  rw [number_eq hds htaken]
  unfold Token.argument at h
  split at h
  next => cases h
  next hnil =>
    rw [if_neg (mt List.isEmpty_iff.2 hnil)]
    split at h
    next => cases h
    next hlt =>
      obtain rfl := Except.error.inj h
      exact ⟨rfl, mt List.isEmpty_iff.2 hnil, _, rfl, Nat.le_of_not_lt hlt⟩

theorem letter_of_ofChar? {c : Char} {l : Letter} (h : Operator.ofChar? c = some (.note l)) :
    c = l.toChar := by
  unfold Operator.ofChar? at h
  split at h
  case h_21 =>
    obtain ⟨l', hl, heq⟩ := Option.map_eq_some_iff.1 h
    obtain rfl := Operator.note.inj heq
    unfold Letter.ofChar? at hl
    split at hl <;> cases hl <;> rfl
  all_goals cases h

theorem shift_of_ofChar? {c : Char} {d : Direction} (h : Operator.ofChar? c = some (.shift d)) :
    (c = '>' ∧ d = .up) ∨ (c = '<' ∧ d = .down) := by
  unfold Operator.ofChar? at h
  split at h
  case h_21 => obtain ⟨l, -, heq⟩ := Option.map_eq_some_iff.1 h; cases heq
  all_goals cases h
  · exact .inl ⟨rfl, rfl⟩
  · exact .inr ⟨rfl, rfl⟩

/-- Runs of dots that can be counted in a word. -/
def DotRunsFit (cs : List Char) : Prop := ∀ n, List.replicate n '.' <:+: cs → n < 4294967296

theorem DotRunsFit.of_append {as bs : List Char} (h : DotRunsFit (as ++ bs)) : DotRunsFit bs :=
  fun n hn => h n (hn.trans (List.suffix_append as bs).isInfix)

theorem DotRunsFit.tail {c : Char} {cs : List Char} (h : DotRunsFit (c :: cs)) : DotRunsFit cs :=
  fun n hn => h n (hn.trans (List.suffix_cons c cs).isInfix)

theorem dotRunsFit_of_length {cs : List Char} (h : cs.length < 4294967296) : DotRunsFit cs := by
  intro n hn
  have hle := hn.length_le
  rw [List.length_replicate] at hle
  exact Nat.lt_of_le_of_lt hle h

theorem toNat_dotCount (op : Operator) {cs : List Char} (h : DotRunsFit cs) :
    (op.parts cs).dotCount.toNat = (op.parts cs).dots.length := by
  have hrun : (op.parts cs).dots = List.replicate (op.parts cs).dots.length '.' :=
    List.eq_replicate_of_mem fun _ => Operator.eq_dot_of_parts
  have hinfix : (op.parts cs).dots <:+: cs := by
    refine ⟨(op.parts cs).signs ++ (op.parts cs).digits, (op.parts cs).rest, ?_⟩
    simpa only [List.append_assoc] using op.parts_append cs
  rw [hrun] at hinfix
  exact UInt32.toNat_ofNat_of_lt' (h _ hinfix)

/-- The kind that an operator makes is what the grammar says of the match. -/
theorem says_of_kind? {c : Char} {cs : List Char} {op : Operator} {n : Option UInt32}
    {kind : Token.Kind} (hop : Operator.ofChar? c = some op) (hfit : DotRunsFit cs)
    (harg : Token.argument (op.parts cs).digits = .ok n)
    (hkind : op.kind? (op.parts cs).accidental n (op.parts cs).dotCount = some kind) :
    Says (c :: ((op.parts cs).signs ++ ((op.parts cs).digits ++ (op.parts cs).dots)))
      op.rule kind := by
  have hspelled := Operator.spelled_parts hop cs
  have hnumber := map_toNat_of_argument hspelled.digits hspelled.digitsOf_eq harg
  have hdots := (toNat_dotCount op hfit).trans hspelled.trailingDots_eq.symm
  cases op with
  | numbered =>
      obtain ⟨m, rfl, rfl⟩ := Option.map_eq_some_iff.1 hkind
      exact .numbered hnumber hdots
  | note l =>
      obtain rfl := Option.some.inj hkind
      obtain rfl := letter_of_ofChar? hop
      rw [Operator.Parts.accidental, ← hspelled.accidental_eq]
      exact .note rfl hnumber hdots
  | shift d =>
      obtain rfl := Option.some.inj hkind
      have hparts : (Operator.parts (.shift d) cs).signs ++
          ((Operator.parts (.shift d) cs).digits ++ (Operator.parts (.shift d) cs).dots) = [] := by
        simp [Operator.parts, Operator.takesSigns, Operator.takesDigits, Operator.takesDots]
      rw [hparts]
      obtain ⟨rfl, rfl⟩ | ⟨rfl, rfl⟩ := shift_of_ofChar? hop
      · exact .up rfl
      · exact .down rfl
  | rest =>
      obtain rfl := Option.some.inj hkind
      exact .rest hnumber hdots
  | tempo => obtain rfl := Option.some.inj hkind; exact .tempo hnumber
  | volume => obtain rfl := Option.some.inj hkind; exact .volume hnumber
  | length => obtain rfl := Option.some.inj hkind; exact .length hnumber
  | sustain => obtain rfl := Option.some.inj hkind; exact .sustain hnumber
  | envelope => obtain rfl := Option.some.inj hkind; exact .envelope hnumber
  | octave =>
      obtain ⟨m, rfl, rfl⟩ := Option.map_eq_some_iff.1 hkind
      exact .octave hnumber
  | register =>
      obtain ⟨m, rfl, rfl⟩ := Option.map_eq_some_iff.1 hkind
      exact .register hnumber

/-- What a reading comes to in the words of the grammar. -/
def Reading.verdict : Reading → Verdict
  | .token kind taken rest => .token kind taken rest
  | .failed cause _ _ => .fault cause.message
  | .unknown => .skipped

theorem kind?_eq_none {op : Operator} {a : Option Accidental} {n : Option UInt32} {d : UInt32}
    (h : op.kind? a n d = none) : op.rule.needsDigits = true ∧ n = none := by
  cases op <;> cases n <;> first | contradiction | exact ⟨rfl, rfl⟩

theorem eq_nil_of_argument {ds : List Char} (h : Token.argument ds = .ok none) : ds = [] := by
  unfold Token.argument at h
  split at h
  next hnil => exact List.isEmpty_iff.1 hnil
  next => split at h <;> cases h

theorem digits_ne_nil_of_kind? {op : Operator} {a : Option Accidental} {n : Option UInt32}
    {d : UInt32} {kind : Token.Kind} {ds : List Char} (h : op.kind? a n d = some kind)
    (harg : Token.argument ds = .ok n) (hneeds : op.rule.needsDigits = true) : ds ≠ [] := by
  rintro rfl
  obtain rfl := Except.ok.inj harg
  cases op <;> contradiction

/-- Reading a text that begins with no separator follows the grammar. -/
theorem judges_ofText {c : Char} {cs : List Char} (hfit : DotRunsFit (c :: cs)) :
    Judges c cs (Reading.ofText c cs).verdict := by
  unfold Reading.ofText
  split
  next hop =>
    refine .skipped (Operator.noMatch_of_ofChar?_eq_none hop) ?_
    intro hc
    fin_cases hc <;> cases hop
  next op hop =>
    have hspelled := Operator.spelled_parts hop cs
    dsimp only
    split
    next cause harg =>
      obtain ⟨rfl, hne, n, hn, hlarge⟩ :=
        too_large_of_argument hspelled.digits hspelled.digitsOf_eq harg
      have hfirst := Operator.firstMatch_parts hop fun _ => hne
      have hjudges := Judges.tooLarge hfirst hn hlarge
      rwa [hspelled.digitsOf_eq] at hjudges
    next n harg =>
      split
      next kind hkind =>
        exact .token (Operator.firstMatch_parts hop (digits_ne_nil_of_kind? hkind harg))
          (says_of_kind? hop hfit.tail harg hkind)
      next hkind =>
        obtain ⟨hneeds, rfl⟩ := kind?_eq_none hkind
        have hno := Operator.noMatch_of_no_digits hop hneeds (eq_nil_of_argument harg)
        have hc := Operator.mem_letters_of_ofChar? hop
        split
        next hnumbered =>
          subst hnumbered
          refine .skipped hno ?_
          fin_cases hc <;> decide
        next hnumbered =>
          refine .missing hno ?_
          cases op <;> first | contradiction | fin_cases hc <;> decide

theorem eq_of_map_toNat {m n : Option UInt32} (h : m.map UInt32.toNat = n.map UInt32.toNat) :
    m = n := Option.map_injective (fun _ _ => UInt32.toNat_inj.1) h

theorem toChar_injective : Function.Injective Letter.toChar := by
  intro l l' h
  have hl := congrArg Letter.ofChar? h
  rw [Letter.ofChar?_toChar, Letter.ofChar?_toChar] at hl
  exact Option.some.inj hl

namespace Grammar

theorem Says.unique {taken : List Char} {r : Rule} {kind kind' : Token.Kind}
    (h : Says taken r kind) (h' : Says taken r kind') : kind = kind' := by
  cases h with
  | @numbered n d hn hd =>
      cases h' with
      | @numbered n' d' hn' hd' =>
          obtain rfl := UInt32.toNat_inj.1 (Option.some.inj (hn.trans hn'.symm))
          obtain rfl := UInt32.toNat_inj.1 (hd.trans hd'.symm)
          rfl
  | @note l n d hl hn hd =>
      cases h' with
      | @note l' n' d' hl' hn' hd' =>
          obtain rfl := toChar_injective (Option.some.inj (hl.symm.trans hl'))
          obtain rfl := eq_of_map_toNat (hn.trans hn'.symm)
          obtain rfl := UInt32.toNat_inj.1 (hd.trans hd'.symm)
          rfl
  | up ht =>
      cases h' with
      | up => rfl
      | down ht' => rw [ht] at ht'; cases ht'
  | down ht =>
      cases h' with
      | up ht' => rw [ht] at ht'; cases ht'
      | down => rfl
  | @rest n d hn hd =>
      cases h' with
      | @rest n' d' hn' hd' =>
          obtain rfl := eq_of_map_toNat (hn.trans hn'.symm)
          obtain rfl := UInt32.toNat_inj.1 (hd.trans hd'.symm)
          rfl
  | octave hn =>
      cases h' with
      | octave hn' => rw [UInt32.toNat_inj.1 (Option.some.inj (hn.trans hn'.symm))]
  | register hn =>
      cases h' with
      | register hn' => rw [UInt32.toNat_inj.1 (Option.some.inj (hn.trans hn'.symm))]
  | tempo hn => cases h' with | tempo hn' => rw [eq_of_map_toNat (hn.trans hn'.symm)]
  | volume hn => cases h' with | volume hn' => rw [eq_of_map_toNat (hn.trans hn'.symm)]
  | length hn => cases h' with | length hn' => rw [eq_of_map_toNat (hn.trans hn'.symm)]
  | sustain hn => cases h' with | sustain hn' => rw [eq_of_map_toNat (hn.trans hn'.symm)]
  | envelope hn => cases h' with | envelope hn' => rw [eq_of_map_toNat (hn.trans hn'.symm)]

theorem Says.exists_word {taken : List Char} {r : Rule} {kind : Token.Kind}
    (h : Says taken r kind) : ∃ n : Option UInt32, n.map UInt32.toNat = number taken := by
  cases h with
  | numbered hn | octave hn | register hn => exact ⟨some _, hn⟩
  | note _ hn | rest hn | tempo hn | volume hn | length hn | sustain hn | envelope hn =>
      exact ⟨_, hn⟩
  | up ht | down ht => exact ⟨none, by rw [ht]; rfl⟩

theorem Says.not_too_large {taken : List Char} {r : Rule} {kind : Token.Kind} {n : Nat}
    (h : Says taken r kind) (hn : number taken = some n) : ¬ 4294967296 ≤ n := by
  obtain ⟨m, hm⟩ := h.exists_word
  obtain ⟨w, -, rfl⟩ := Option.map_eq_some_iff.1 (hm.trans hn)
  exact Nat.not_le.2 w.toNat_lt

theorem Judges.unique {c : Char} {cs : List Char} {v v' : Verdict} (h : Judges c cs v)
    (h' : Judges c cs v') : v = v' := by
  cases h with
  | token hfirst hmeans =>
      cases h' with
      | token hfirst' hmeans' =>
          obtain ⟨rfl, rfl, rfl⟩ := hfirst.unique hfirst'
          rw [hmeans.unique hmeans']
      | tooLarge hfirst' hn hlarge =>
          obtain ⟨rfl, rfl, rfl⟩ := hfirst.unique hfirst'
          exact absurd hlarge (hmeans.not_too_large hn)
      | missing hno => exact absurd hno hfirst.not_noMatch
      | skipped hno => exact absurd hno hfirst.not_noMatch
  | tooLarge hfirst hn hlarge =>
      cases h' with
      | token hfirst' hmeans' =>
          obtain ⟨rfl, rfl, rfl⟩ := hfirst.unique hfirst'
          exact absurd hlarge (hmeans'.not_too_large hn)
      | tooLarge hfirst' =>
          obtain ⟨rfl, rfl, rfl⟩ := hfirst.unique hfirst'
          rfl
      | missing hno => exact absurd hno hfirst.not_noMatch
      | skipped hno => exact absurd hno hfirst.not_noMatch
  | missing hno hc =>
      cases h' with
      | token hfirst' => exact absurd hno hfirst'.not_noMatch
      | tooLarge hfirst' => exact absurd hno hfirst'.not_noMatch
      | missing => rfl
      | skipped _ hc' => exact absurd hc hc'
  | skipped hno hc =>
      cases h' with
      | token hfirst' => exact absurd hno hfirst'.not_noMatch
      | tooLarge hfirst' => exact absurd hno hfirst'.not_noMatch
      | missing _ hc' => exact absurd hc' hc
      | skipped => rfl

end Grammar

/-- The outcome that a transcript reports, its fault in words. -/
def Transcript.outcome (x : Transcript) : Outcome where
  tokens := x.tokens
  skipped := x.skipped
  fault := x.fault.map fun f => (f.place, f.cause.message)

theorem lexes_pieces {p : Place} {cs : List Char} (hfit : DotRunsFit cs) :
    Lexes p cs (Transcript.ofPieces (pieces p cs)).outcome := by
  induction p, cs using pieces_induction with
  | nil p => rw [pieces_nil]; exact .ended
  | separator p c cs hc ih =>
      rw [pieces_separator hc]
      exact .separator hc (ih hfit.tail)
  | token p c cs kind taken rest hc hr ih =>
      have hjudges := judges_ofText hfit
      rw [hr] at hjudges
      rw [(Reading.eq_append_of_token hr).1] at hfit
      rw [pieces_token hc hr]
      exact .token hc hjudges (ih hfit.of_append)
  | failed p c cs cause taken rest hc hr =>
      have hjudges := judges_ofText hfit
      rw [hr] at hjudges
      rw [pieces_failed hc hr]
      exact .fault hc hjudges
  | unknown p c cs hc hr ih =>
      have hjudges := judges_ofText hfit
      rw [hr] at hjudges
      rw [pieces_unknown hc hr]
      exact .skipped hc hjudges (ih hfit.tail)

theorem Grammar.Lexes.unique {p : Place} {cs : List Char} {o o' : Outcome} (h : Lexes p cs o)
    (h' : Lexes p cs o') : o = o' := by
  induction h generalizing o' with
  | ended => cases h'; rfl
  | separator hc _ ih =>
      cases h' with
      | separator _ h' => exact ih h'
      | token hc' => exact absurd hc (by simp [hc'])
      | fault hc' => exact absurd hc (by simp [hc'])
      | skipped hc' => exact absurd hc (by simp [hc'])
  | token hc hj _ ih =>
      cases h' with
      | separator hc' => exact absurd hc (by simp [hc'])
      | token _ hj' h' =>
          obtain ⟨rfl, rfl, rfl⟩ := Verdict.token.inj (hj.unique hj')
          rw [ih h']
      | fault _ hj' => cases hj.unique hj'
      | skipped _ hj' => cases hj.unique hj'
  | fault hc hj =>
      cases h' with
      | separator hc' => exact absurd hc (by simp [hc'])
      | token _ hj' => cases hj.unique hj'
      | fault _ hj' =>
          obtain rfl := Verdict.fault.inj (hj.unique hj')
          rfl
      | skipped _ hj' => cases hj.unique hj'
  | skipped hc hj _ ih =>
      cases h' with
      | separator hc' => exact absurd hc (by simp [hc'])
      | token _ hj' => cases hj.unique hj'
      | fault _ hj' => cases hj.unique hj'
      | skipped _ _ h' => rw [ih h']

/-- Asking a text for tokens until none comes gives what the grammar gives the text, and nothing
else is given by the grammar. -/
theorem lexes_iff_transcript (source : String) (hfit : DotRunsFit source.toList) (o : Outcome) :
    Lexes {} source.toList o ↔ (TokenStream.ofText source).transcript.outcome = o := by
  have hlexes := lexes_pieces (p := {}) hfit
  rw [← TokenStream.transcript_ofText] at hlexes
  constructor
  · intro h
    exact hlexes.unique h
  · rintro rfl
    exact hlexes

/-- A note with its parts, a number sign without digits, and an octave without its argument. -/
theorem lexes_note_and_bare_octave :
    DotRunsFit "C#8.. N\no".toList ∧
    Lexes {} "C#8.. N\no".toList
      { tokens := [⟨.note .c (some .sharp) (some 8) 2, 'C', "C#8..", ⟨1, 1⟩⟩]
        skipped := [⟨'N', ⟨1, 7⟩⟩]
        fault := some (⟨2, 1⟩, "'o' requires a numeric argument") } := by
  have hfit : DotRunsFit "C#8.. N\no".toList := dotRunsFit_of_length (by decide)
  exact ⟨hfit, (lexes_iff_transcript _ hfit _).2 (by decide +kernel)⟩

end MusicMacro
