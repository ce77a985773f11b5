import MusicMacro.Proofs.Token.Cut

/-!
Arguments. The digits behind an operator are one decimal numeral, however long it is: it is read as
its value if that is a word, and otherwise the whole numeral is the fault.
-/

namespace MusicMacro

/-- The argument that a token has, if digits were written for it. -/
def Token.Kind.argument? : Kind → Option UInt32
  | .numbered n _ | .octave n | .register n => some n
  | .note _ _ n _ | .rest n _ => n
  | .tempo n | .volume n | .length n | .sustain n | .envelope n => n
  | .shift _ => none

namespace Grammar

/-- An operator that may have digits, with its signs and its digits, each run as long as it can be
in front of the rest of the text. Only a note has signs. -/
structure DigitRun (r : Rule) (c : Char) (ss ds rest : List Char) : Prop where
  opens : c ∈ r.letters
  takesDigits : r ≠ .shift
  takesSigns : r = .note ∨ ss = []
  signs : ∀ s ∈ ss, s ∈ signs
  digits : ∀ d ∈ ds, d ∈ digits
  signs_end : r = .note → ∀ b, (ds ++ rest).head? = some b → b ∉ Grammar.signs
  digits_end : ∀ b, rest.head? = some b → b ∉ Grammar.digits

/-- The number that digits write in base ten. -/
def value (ds : List Char) : ℕ := Nat.ofDigits 10 (ds.reverse.map fun d => digits.idxOf d)

end Grammar

namespace Token

variable {ds : List Char}

theorem argument_of_lt (h : ∀ d ∈ ds, d ∈ Grammar.digits) (hne : ds ≠ [])
    (hlt : Grammar.value ds < 4294967296) :
    argument ds = .ok (some (UInt32.ofNat (Grammar.value ds))) := by
  rw [argument, Grammar.value_eq_ofDigits h, if_neg (mt List.isEmpty_iff.1 hne)]
  exact if_pos hlt

theorem argument_of_le (h : ∀ d ∈ ds, d ∈ Grammar.digits) (hne : ds ≠ [])
    (hle : 4294967296 ≤ Grammar.value ds) :
    argument ds = .error (.numberTooLarge (String.ofList ds)) := by
  rw [argument, Grammar.value_eq_ofDigits h, if_neg (mt List.isEmpty_iff.1 hne)]
  exact if_neg (Nat.not_lt.2 hle)

end Token

namespace Operator

variable {c : Char} {op : Operator} {ss ds rest : List Char}

theorem takesSigns_eq (op : Operator) : op.takesSigns = decide (op.rule = .note) := by
  cases op <;> rfl

theorem takesDigits_eq (op : Operator) : op.takesDigits = decide (op.rule ≠ .shift) := by
  cases op <;> rfl

/-- An operator takes its signs and its digits, and then dots at most. -/
theorem exists_parts (h : Grammar.DigitRun op.rule c ss ds rest) :
    ∃ dots behind, op.parts (ss ++ (ds ++ rest)) = ⟨ss, ds, dots, behind⟩ ∧
      rest = dots ++ behind ∧ ∀ d ∈ dots, d = '.' := by
  have hsigns : ∀ b ∈ ss, (op.takesSigns && Accidental.isSign b) = true := by
    intro b hb
    obtain hnote | rfl := h.takesSigns
    · rw [op.takesSigns_eq, Grammar.isSign_eq, decide_eq_true hnote,
        decide_eq_true (h.signs b hb), Bool.and_self]
    · cases hb
  have hdigits : ∀ b ∈ ds, (op.takesDigits && b.isDigit) = true := by
    intro b hb
    rw [op.takesDigits_eq, Grammar.isDigit_eq, decide_eq_true h.takesDigits,
      decide_eq_true (h.digits b hb), Bool.and_self]
  have hunsigned : ∀ b, (ds ++ rest).head? = some b →
      (op.takesSigns && Accidental.isSign b) = false := by
    intro b hb
    by_cases hnote : op.rule = .note
    · rw [Grammar.isSign_eq, decide_eq_false (h.signs_end hnote b hb), Bool.and_false]
    · rw [op.takesSigns_eq, decide_eq_false hnote, Bool.false_and]
  have hundigited : ∀ b, rest.head? = some b → (op.takesDigits && b.isDigit) = false := by
    intro b hb
    rw [Grammar.isDigit_eq, decide_eq_false (h.digits_end b hb), Bool.and_false]
  refine ⟨rest.takeWhile fun b => op.takesDots && b == '.',
    rest.dropWhile fun b => op.takesDots && b == '.', ?_, List.takeWhile_append_dropWhile.symm, ?_⟩
  · simp only [parts, takeWhile_append_of_head hunsigned, dropWhile_append_of_head hunsigned,
      takeWhile_append_of_head hundigited, dropWhile_append_of_head hundigited,
      List.takeWhile_eq_self_iff.2 hsigns, List.dropWhile_eq_nil_iff.2 hsigns,
      List.takeWhile_eq_self_iff.2 hdigits, List.dropWhile_eq_nil_iff.2 hdigits, List.nil_append]
  · intro d hd
    have hdot := List.mem_takeWhile_imp hd
    rw [Bool.and_eq_true, beq_iff_eq] at hdot
    exact hdot.2

variable {accidental : Option Accidental} {n : Option UInt32} {dots : UInt32} {kind : Token.Kind}

theorem argument?_of_kind? (hrule : op.rule ≠ .shift)
    (h : op.kind? accidental n dots = some kind) : kind.argument? = n := by
  cases op with
  | shift direction => exact absurd rfl hrule
  | numbered | octave | register =>
      obtain ⟨m, rfl, rfl⟩ := Option.map_eq_some_iff.1 h
      rfl
  | _ =>
      obtain rfl := Option.some.inj h
      rfl

theorem exists_kind? (op : Operator) (accidental : Option Accidental) (dots : UInt32)
    (h : op.rule.needsDigits = true → n ≠ none) :
    ∃ kind, op.kind? accidental n dots = some kind := by
  cases hkind : op.kind? accidental n dots with
  | some kind => exact ⟨kind, rfl⟩
  | none =>
      obtain ⟨hneeds, hnone⟩ := kind?_eq_none hkind
      exact absurd hnone (h hneeds)

end Operator

namespace Reading

variable {c : Char} {op : Operator} {ss ds rest : List Char}

/-- A numeral beyond the words is a fault, whatever operator it stands behind. -/
theorem ofText_tooLarge (hop : Operator.ofChar? c = some op)
    (h : Grammar.DigitRun op.rule c ss ds rest) (hne : ds ≠ [])
    (hlarge : 4294967296 ≤ Grammar.value ds) : ofText c (ss ++ (ds ++ rest)) =
      .failed (.numberTooLarge (String.ofList ds)) (c :: (ss ++ ds)) rest := by
  obtain ⟨dots, behind, hparts, rfl, -⟩ := Operator.exists_parts h
  have harg := Token.argument_of_le h.digits hne hlarge
  simp only [ofText, hop, hparts, harg]

/-- Without digits an operator that needs them opens no token or cannot be read. -/
theorem ofText_bare (hop : Operator.ofChar? c = some op)
    (h : Grammar.DigitRun op.rule c ss [] rest) (hneeds : op.rule.needsDigits = true) :
    ofText c (ss ++ ([] ++ rest)) =
      if op = .numbered then .unknown else .failed (.missingArgument c) (c :: (ss ++ [])) rest := by
  obtain ⟨dots, behind, hparts, rfl, -⟩ := Operator.exists_parts h
  have harg : Token.argument [] = .ok none := rfl
  have hkind : ∀ accidental dots, op.kind? accidental none dots = none := by
    intro accidental dots
    cases op <;> first | rfl | contradiction
  simp only [ofText, hop, hparts, harg, hkind]

/-- Else the argument of the token is what its digits write, and the token ends in dots at most. -/
theorem ofText_argument (hop : Operator.ofChar? c = some op)
    (h : Grammar.DigitRun op.rule c ss ds rest) {n : Option UInt32}
    (harg : Token.argument ds = .ok n) (hneeds : op.rule.needsDigits = true → n ≠ none) :
    ∃ kind dots behind, ofText c (ss ++ (ds ++ rest)) =
        .token kind (c :: (ss ++ (ds ++ dots))) behind ∧
      kind.argument? = n ∧ rest = dots ++ behind ∧ ∀ d ∈ dots, d = '.' := by
  obtain ⟨dots, behind, hparts, hrest, hdots⟩ := Operator.exists_parts h
  obtain ⟨kind, hkind⟩ := op.exists_kind? (Operator.Parts.accidental ⟨ss, ds, dots, behind⟩)
    (Operator.Parts.dotCount ⟨ss, ds, dots, behind⟩) hneeds
  refine ⟨kind, dots, behind, ?_, Operator.argument?_of_kind? h.takesDigits hkind, hrest, hdots⟩
  simp only [ofText, hop, hparts, harg, hkind]

end Reading

namespace Transcript

/-- The second transcript goes on with a token at the place: it is written with the operator, its
signs, its digits and dots at most, and has the argument. -/
def GoesOn (x y : Transcript) (p : Place) (c : Char) (ss ds : List Char) (n : Option UInt32) :
    Prop :=
  ∃ t later dots, y.tokens = x.tokens ++ t :: later ∧ t.place = p ∧ t.operator = c ∧
    t.text = String.ofList (c :: (ss ++ (ds ++ dots))) ∧ (∀ d ∈ dots, d = '.') ∧
    t.kind.argument? = n

end Transcript

namespace TokenStream

variable {front : String} {c : Char} {op : Operator} {ss ds rest : List Char}

/-- An operator behind a text without faults is where its next token is read from. -/
theorem transcript_append_operator (hfront : (ofText front).transcript.fault = none)
    (hop : Operator.ofChar? c = some op) (cs : List Char) :
    (ofText (front ++ String.ofList (c :: cs))).transcript = (ofText front).transcript.append
      (.ofPieces (pieces (Place.behind front.toList) (c :: cs))) := by
  have hstop : ({} : Place).past front.toList = Place.behind front.toList :=
    Place.past_behind [] front.toList
  rw [transcript_ofText] at hfront
  rw [transcript_ofText, transcript_ofText, String.toList_append, String.toList_ofList,
    pieces_append (beginsApart_of_ofChar? hop cs), Transcript.fault_ofPieces_eq_none.1 hfront,
    if_neg Bool.false_ne_true, hstop, Transcript.ofPieces_append hfront]

section
variable (hfront : (ofText front).transcript.fault = none) (hop : Operator.ofChar? c = some op)
include hfront hop

theorem transcript_of_failed_operator {cause : Misreading} {cs taken behind : List Char}
    (hr : Reading.ofText c cs = .failed cause taken behind) :
    (ofText (front ++ String.ofList (c :: cs))).transcript =
      { (ofText front).transcript with fault := some ⟨cause, Place.behind front.toList⟩ } := by
  rw [transcript_append_operator hfront hop,
    pieces_failed (Operator.isSeparator_eq_false hop) hr]
  simp [Transcript.append, Transcript.ofPieces, Piece.token?, Piece.skipped?, Piece.fault?]

theorem goesOn_of_argument (h : Grammar.DigitRun op.rule c ss ds rest) {n : Option UInt32}
    (harg : Token.argument ds = .ok n) (hneeds : op.rule.needsDigits = true → n ≠ none) :
    (ofText front).transcript.GoesOn
      (ofText (front ++ String.ofList (c :: (ss ++ (ds ++ rest))))).transcript
      (Place.behind front.toList) c ss ds n := by
  obtain ⟨kind, dots, behind, hr, hargument, -, hdots⟩ := Reading.ofText_argument hop h harg hneeds
  rw [transcript_append_operator hfront hop,
    pieces_token (Operator.isSeparator_eq_false hop) hr, Transcript.ofPieces_token]
  exact ⟨_, _, dots, rfl, rfl, rfl, rfl, hdots, hargument⟩

theorem skipped_of_unknown_operator {cs : List Char} (hr : Reading.ofText c cs = .unknown) :
    let y := (ofText (front ++ String.ofList (c :: cs))).transcript
    (∃ later, y.skipped =
      (ofText front).transcript.skipped ++ ⟨c, Place.behind front.toList⟩ :: later) ∧
    ∀ t ∈ y.tokens, t.place ≠ Place.behind front.toList := by
  intro y
  have hskipped : y.skipped = (ofText front).transcript.skipped ++
      ⟨c, Place.behind front.toList⟩ :: (Transcript.ofPieces
        (pieces ((Place.behind front.toList).after c) cs)).skipped := by
    unfold y
    rw [transcript_append_operator hfront hop,
      pieces_unknown (Operator.isSeparator_eq_false hop) hr, Transcript.ofPieces_skipped]
    rfl
  refine ⟨⟨_, hskipped⟩, ?_⟩
  intro t ht hplace
  have hmem : (⟨c, Place.behind front.toList⟩ : Skipped) ∈ y.skipped := by
    rw [hskipped]
    exact List.mem_append_right _ List.mem_cons_self
  cases piece_unique (mem_pieces_of_token ht) (mem_pieces_of_skipped hmem)
    (congrArg some hplace) rfl

end

/-- The argument of an operator, wherever it stands in a text that can be read up to it. Without
digits there is none: a number sign is skipped then, an octave or a register is a fault, and any
other token has no argument. Digits are read as the number that they write in base ten if it is a
word, and else all of them are told in the fault. -/
theorem argument_read (hfront : (ofText front).transcript.fault = none) {r : Grammar.Rule}
    (h : Grammar.DigitRun r c ss ds rest) :
    let x := (ofText front).transcript
    let y := (ofText (front ++ String.ofList (c :: (ss ++ (ds ++ rest))))).transcript
    let p := Place.behind front.toList
    (ds = [] → r = .numbered →
      (∃ later, y.skipped = x.skipped ++ ⟨c, p⟩ :: later) ∧ ∀ t ∈ y.tokens, t.place ≠ p) ∧
    (ds = [] → r = .octave ∨ r = .register → ∃ fault,
      y = { x with fault := some fault } ∧ fault.place = p ∧
      fault.cause.message = "'" ++ c.toString ++ "' requires a numeric argument") ∧
    (ds = [] → r.needsDigits = false → x.GoesOn y p c ss ds none) ∧
    (ds ≠ [] → Grammar.value ds < 4294967296 →
      ∃ n : UInt32, n.toNat = Grammar.value ds ∧ x.GoesOn y p c ss ds (some n)) ∧
    (ds ≠ [] → 4294967296 ≤ Grammar.value ds → ∃ fault,
      y = { x with fault := some fault } ∧ fault.place = p ∧
      fault.cause.message = "Number '" ++ String.ofList ds ++ "' is too large") := by
  intro x y p
  obtain ⟨op, hop, rfl⟩ := Operator.exists_of_mem_letters h.opens
  refine ⟨?_, ?_, ?_, ?_, ?_⟩
  · rintro rfl hrule
    have hr := Reading.ofText_bare hop h (by rw [hrule]; rfl)
    have hnumbered : op = .numbered := by cases op <;> first | rfl | cases hrule
    rw [if_pos hnumbered] at hr
    exact skipped_of_unknown_operator hfront hop hr
  · rintro rfl hrule
    have hr := Reading.ofText_bare hop h (by rcases hrule with hrule | hrule <;> rw [hrule] <;> rfl)
    have hnumbered : op ≠ .numbered := by
      rintro rfl
      rcases hrule with hrule | hrule <;> cases hrule
    rw [if_neg hnumbered] at hr
    exact ⟨_, transcript_of_failed_operator hfront hop hr, rfl, rfl⟩
  · rintro rfl hneeds
    exact goesOn_of_argument hfront hop h rfl (by simp [hneeds])
  · intro hne hlt
    have harg := Token.argument_of_lt h.digits hne hlt
    exact ⟨_, UInt32.toNat_ofNat_of_lt' hlt,
      goesOn_of_argument hfront hop h harg fun _ => Option.some_ne_none _⟩
  · intro hne hlarge
    have hr := Reading.ofText_tooLarge hop h hne hlarge
    exact ⟨_, transcript_of_failed_operator hfront hop hr, rfl, rfl⟩

/-- The greatest word with zeros in front of it, behind two signs. A digit of another script ends
the run. -/
theorem argument_read_greatest_word :
    let ds := ['0', '0', '4', '2', '9', '4', '9', '6', '7', '2', '9', '5']
    (ofText "L4\n").transcript.fault = none ∧
    Grammar.DigitRun .note 'C' ['#', 'b'] ds ['\u0663'] ∧
    (ofText "L4\n").transcript.GoesOn (ofText "L4\nC#b004294967295\u0663").transcript
      ⟨2, 1⟩ 'C' ['#', 'b'] ds (some 4294967295) := by
  intro ds
  have hfront : (ofText "L4\n").transcript.fault = none := by decide +kernel
  have hrun : Grammar.DigitRun .note 'C' ['#', 'b'] ds ['\u0663'] := by
    refine ⟨by decide, by decide, .inl rfl, by simp [Grammar.signs],
      by simp [ds, Grammar.digits], ?_, ?_⟩
    · rintro - b hb
      obtain rfl : '0' = b := Option.some.inj hb
      decide
    · intro b hb
      obtain rfl : '\u0663' = b := Option.some.inj hb
      decide
  refine ⟨hfront, hrun, ?_⟩
  have hvalue : Grammar.value ds = 4294967295 := by decide +kernel
  have hread := (argument_read hfront hrun).2.2.2.1 (List.cons_ne_nil _ _) (by rw [hvalue]; decide)
  obtain ⟨n, hn, hgoes⟩ := hread
  obtain rfl : n = 4294967295 := UInt32.toNat_inj.1 (hn.trans hvalue)
  exact hgoes

end TokenStream

end MusicMacro
