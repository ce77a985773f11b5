import MusicMacro.Proofs.Token.Grammar.Reading
import MusicMacro.Proofs.Token.Scan

/-!
A scan does what a search does. Its loops take the runs of signs, digits and dots that belong to an
operator, so each request is answered alike and leaves the same stream.
-/

namespace MusicMacro

theorem head?_any_dropWhile {α : Type} (p : α → Bool) (as : List α) :
    (as.dropWhile p).head?.any p = false := by
  have hnot := List.head?_dropWhile_not p as
  cases hhead : (as.dropWhile p).head? with
  | none => rfl
  | some b =>
      rw [hhead] at hnot
      exact hnot

namespace Operator

theorem takesDigits_of_takesSigns {op : Operator} (h : op.takesSigns = true) :
    op.takesDigits = true := by
  cases op <;> first | rfl | cases h

theorem kind?_dotted (op : Operator) (accidental : Option Accidental) (n : Option UInt32)
    (dots : UInt32) :
    op.kind? accidental n dots = (op.kind? accidental n 0).map (Token.Kind.dotted dots) := by
  cases op <;> first | rfl | cases n <;> rfl

section
variable {op : Operator} {cs : List Char}

theorem behind_signs (h : op.takesSigns = true) :
    ((op.parts cs).digits ++ ((op.parts cs).dots ++ (op.parts cs).rest)).head?.any
      Accidental.isSign = false := by
  simpa [parts, h] using head?_any_dropWhile Accidental.isSign cs

theorem behind_digits (h : op.takesDigits = true) :
    ((op.parts cs).dots ++ (op.parts cs).rest).head?.any Char.isDigit = false := by
  simpa [parts, h] using head?_any_dropWhile Char.isDigit _

theorem behind_dots (h : op.takesDots = true) :
    (op.parts cs).rest.head?.any (· == '.') = false := by
  simpa [parts, h] using head?_any_dropWhile (· == '.') _

theorem signs_eq_nil (h : op.takesSigns = false) : (op.parts cs).signs = [] := by
  simp [parts, h, List.takeWhile_eq_nil_iff]

theorem digits_eq_takeWhile (hsigns : op.takesSigns = false) (hdigits : op.takesDigits = true) :
    (op.parts cs).digits = cs.takeWhile Char.isDigit := by
  cases cs <;> simp [parts, hsigns, hdigits]

theorem digits_eq_nil (h : op.takesDigits = false) : (op.parts cs).digits = [] := by
  simp [parts, h, List.takeWhile_eq_nil_iff]

theorem dots_eq_nil (h : op.takesDots = false) : (op.parts cs).dots = [] := by
  simp [parts, h, List.takeWhile_eq_nil_iff]

end

end Operator

/-- A number sign opens a token only if a digit is behind it. -/
theorem Reading.ofText_eq_unknown {c : Char} {cs : List Char} : ofText c cs = .unknown ↔
    Operator.ofChar? c = none ∨
      Operator.ofChar? c = some .numbered ∧ cs.head?.any Char.isDigit = false := by
  unfold ofText
  cases hop : Operator.ofChar? c with
  | none => simp
  | some op =>
      simp only [reduceCtorEq, false_or, Option.some.injEq]
      by_cases hnumbered : op = .numbered
      · subst hnumbered
        have hdigits : (Operator.parts .numbered cs).digits = cs.takeWhile Char.isDigit :=
          Operator.digits_eq_takeWhile rfl rfl
        cases hdigit : cs.head?.any Char.isDigit with
        | false =>
            have hnil : cs.takeWhile Char.isDigit = [] := by
              cases cs <;> simp_all
            simp [hdigits, hnil, Token.argument, Operator.kind?]
        | true =>
            have hne : cs.takeWhile Char.isDigit ≠ [] := by
              cases cs <;> simp_all
            cases harg : Token.argument (cs.takeWhile Char.isDigit) with
            | error cause => simp [hdigits, harg]
            | ok n =>
                cases n with
                | none => exact absurd (eq_nil_of_argument harg) hne
                | some n => simp [hdigits, harg, Operator.kind?]
      · simp only [hnumbered, false_and, iff_false]
        split
        · exact nofun
        · split <;> exact nofun

namespace Stage

variable {source : String} {before cs : List Char} {x : TokenStream} {c : Char} {op : Operator}

theorem move_separator (hrest : x.rest = c :: cs) (hc : isSeparator c = true) :
    move source ⟨x, .between⟩ = .advance .between := by
  simp [move, hrest, hc]

section
variable (hx : x.InStep source before) (hrest : x.rest = c :: cs) (hc : isSeparator c = false)
include hx hrest hc

theorem move_unknown (hr : Reading.ofText c cs = .unknown) :
    move source ⟨x, .between⟩ = .skip c := by
  have hbehind := hx.sliceFrom?_behind hrest
  obtain hop | ⟨hop, hdigit⟩ := Reading.ofText_eq_unknown.1 hr
  · simp [move, hrest, hc, hop]
  · simp_all [move, offset]

theorem move_operator (hop : Operator.ofChar? c = some op) (hr : Reading.ofText c cs ≠ .unknown) :
    move source ⟨x, .between⟩ =
      .advance (.opened ⟨op, c, x.cursor.offset, x.cursor.place⟩) := by
  have hbehind := hx.sliceFrom?_behind hrest
  have hopens := mt Reading.ofText_eq_unknown.2 hr
  by_cases hnumbered : op = .numbered
  · simp_all [move, offset]
  · simp [move, hrest, hc, hop, hnumbered, offset]

end

end Stage

namespace Scans

variable {source : String} {taken rest : List Char}

section
variable {v : Stage} {p : Phase} {c : Char} {cs : List Char} {find : Find}

theorem stay (h : v.move source = .stay p) : Scans source v [] [] ⟨v.stream, p⟩ := by
  refine single ?_
  rw [Stage.step?, h]
  rfl

theorem advance (h : v.move source = .advance p) (hrest : v.stream.rest = c :: cs) :
    Scans source v [c] [] ⟨v.stream.advanced [c] cs, p⟩ := by
  refine single ?_
  rw [Stage.step?, h, Stage.perform, hrest]
  rfl

theorem skip (h : v.move source = .skip c) (hrest : v.stream.rest = c :: cs) :
    Scans source v [c] [] ⟨(v.stream.skip c).advanced [c] cs, .between⟩ := by
  refine single ?_
  rw [Stage.step?, h, Stage.perform, hrest]
  rfl

theorem answer (h : v.move source = .answer find) :
    Scans source v [] [find] ⟨v.stream.answered find, .idle⟩ := by
  refine single ?_
  rw [Stage.step?, h]
  rfl

end

section
variable {phase : List Char → Phase}
  (h : ∀ before c behind, taken = before ++ c :: behind → ∀ y : TokenStream,
    y.rest.head? = some c → Stage.move source ⟨y, phase before⟩ = .advance (phase (before ++ [c])))
include h

theorem loop_from {before behind : List Char} (htaken : taken = before ++ behind)
    {x : TokenStream} (hrest : x.rest = behind ++ rest) :
    Scans source ⟨x, phase before⟩ behind [] ⟨x.advanced behind rest, phase taken⟩ := by
  induction behind generalizing before x with
  | nil =>
      obtain rfl : taken = before := by simpa using htaken
      obtain rfl : x.rest = rest := hrest
      exact .refl
  | cons c behind ih =>
      have hmove := h before c behind htaken x (by rw [hrest]; rfl)
      exact (advance hmove hrest).trans (ih (by simpa using htaken) rfl)

/-- A loop that advances over each character of a run leaves the run behind. -/
theorem loop {x : TokenStream} (hrest : x.rest = taken ++ rest) :
    Scans source ⟨x, phase []⟩ taken [] ⟨x.advanced taken rest, phase taken⟩ :=
  loop_from h rfl hrest

end

section
variable {x : TokenStream} {o : Opened} {first : Option Accidental} {start : Nat}
  {kind : Token.Kind} (hrest : x.rest = taken ++ rest)
include hrest

theorem signs_loop (hsigns : ∀ c ∈ taken, Accidental.isSign c = true) :
    Scans source ⟨x, .signs o none⟩ taken []
      ⟨x.advanced taken rest, .signs o (taken.head?.bind Accidental.ofChar?)⟩ := by
  have hadvance : ∀ before c behind, taken = before ++ c :: behind → ∀ y : TokenStream,
      y.rest.head? = some c →
      Stage.move source ⟨y, .signs o (before.head?.bind Accidental.ofChar?)⟩ =
        .advance (.signs o ((before ++ [c]).head?.bind Accidental.ofChar?)) := by
    rintro before c behind rfl y hy
    obtain ⟨accidental, hc⟩ := Option.isSome_iff_exists.1 (hsigns c (by simp))
    cases before with
    | nil => simp [Stage.move, hy, hc]
    | cons b before =>
        obtain ⟨first, hb⟩ := Option.isSome_iff_exists.1 (hsigns b (by simp))
        simp [Stage.move, hy, hc, hb]
  exact loop hadvance hrest

theorem digits_loop (hdigits : ∀ c ∈ taken, c.isDigit = true) :
    Scans source ⟨x, .digits o first start⟩ taken []
      ⟨x.advanced taken rest, .digits o first start⟩ := by
  have hadvance : ∀ before c behind, taken = before ++ c :: behind → ∀ y : TokenStream,
      y.rest.head? = some c → Stage.move source ⟨y, .digits o first start⟩ =
        .advance (.digits o first start) := by
    rintro before c behind rfl y hy
    simp [Stage.move, hy, hdigits c (by simp)]
  exact loop hadvance hrest

theorem dots_loop (hdots : ∀ c ∈ taken, c = '.') :
    Scans source ⟨x, .dots o kind 0⟩ taken []
      ⟨x.advanced taken rest, .dots o kind (UInt32.ofNat taken.length)⟩ := by
  have hadvance : ∀ before c behind, taken = before ++ c :: behind → ∀ y : TokenStream,
      y.rest.head? = some c →
      Stage.move source ⟨y, .dots o kind (UInt32.ofNat before.length)⟩ =
        .advance (.dots o kind (UInt32.ofNat (before ++ [c]).length)) := by
    rintro before c behind rfl y hy
    obtain rfl := hdots c (by simp)
    simp [Stage.move, hy]
  exact loop hadvance hrest

end

section
variable {before : List Char} {x : TokenStream}

/-- The signs of an operator are taken on the way to its digits. -/
theorem digits_entry (x : TokenStream) {o : Opened} (hdigits : o.operator.takesDigits = true) :
    let p := o.operator.parts x.rest
    let y := x.advanced p.signs (p.digits ++ (p.dots ++ p.rest))
    Scans source ⟨x, .opened o⟩ p.signs [] ⟨y, .digits o p.accidental y.cursor.offset⟩ := by
  intro p y
  have hparts : p.signs ++ (p.digits ++ (p.dots ++ p.rest)) = x.rest :=
    o.operator.parts_append x.rest
  cases hsigns : o.operator.takesSigns with
  | false =>
      have hps : p.signs = [] := Operator.signs_eq_nil hsigns
      have hy : y = x := by simp_all [y, TokenStream.advanced]
      rw [hy, Operator.Parts.accidental, hps]
      exact stay (by simp [Stage.move, hsigns, hdigits, Stage.offset])
  | true =>
      have hopened : Stage.move source ⟨x, .opened o⟩ = .stay (.signs o none) := by
        simp [Stage.move, hsigns]
      have hend : y.rest.head?.bind Accidental.ofChar? = none := by
        have hsign : y.rest.head?.any Accidental.isSign = false := Operator.behind_signs hsigns
        cases hhead : y.rest.head? with
        | none => rfl
        | some b => simpa [hhead, Accidental.isSign] using hsign
      have hclosed : Stage.move source ⟨y, .signs o p.accidental⟩ =
          .stay (.digits o p.accidental y.cursor.offset) := by
        simp [Stage.move, hend, Stage.offset]
      have hloop : Scans source ⟨x, .signs o none⟩ p.signs [] ⟨y, .signs o p.accidental⟩ :=
        signs_loop hparts.symm fun _ => Operator.isSign_of_parts
      simpa using ((stay hopened).trans hloop).trans (stay hclosed)

/-- From its operator on, a token is taken up to the end of its digits. -/
theorem conclusion (hx : x.InStep source before) (o : Opened) :
    let p := o.operator.parts x.rest
    ∃ w, Scans source ⟨x, .opened o⟩ (p.signs ++ p.digits) [] w ∧
      w.stream = x.advanced (p.signs ++ p.digits) (p.dots ++ p.rest) ∧
      w.move source = o.conclude p.accidental p.digits := by
  intro p
  have hparts : x.rest = p.signs ++ (p.digits ++ (p.dots ++ p.rest)) :=
    (o.operator.parts_append x.rest).symm
  cases hdigits : o.operator.takesDigits with
  | false =>
      have hsigns : o.operator.takesSigns = false := by
        by_contra h
        rw [Operator.takesDigits_of_takesSigns (eq_true_of_ne_false h)] at hdigits
        cases hdigits
      have hps : p.signs = [] := Operator.signs_eq_nil hsigns
      have hpd : p.digits = [] := Operator.digits_eq_nil hdigits
      have hrest : x.rest = p.dots ++ p.rest := by rwa [hps, hpd] at hparts
      rw [hps, hpd]
      refine ⟨_, .refl, ?_, ?_⟩
      · rw [← hrest]
        rfl
      · simp [Stage.move, hsigns, hdigits, Operator.Parts.accidental, hps, Opened.conclude,
          Token.argument]
  | true =>
      let y := x.advanced p.signs (p.digits ++ (p.dots ++ p.rest))
      let z := y.advanced p.digits (p.dots ++ p.rest)
      have hentry : Scans source ⟨x, .opened o⟩ p.signs []
          ⟨y, .digits o p.accidental y.cursor.offset⟩ := digits_entry x hdigits
      have hloop : Scans source ⟨y, .digits o p.accidental y.cursor.offset⟩ p.digits []
          ⟨z, .digits o p.accidental y.cursor.offset⟩ :=
        digits_loop rfl fun _ => Operator.isDigit_of_parts
      have hy : y.InStep source (before ++ p.signs) := hx.advanced hparts
      have hslice : Text.slice? source y.cursor.offset z.cursor.offset =
          some (String.ofList p.digits) := hy.slice? (hy.advanced rfl)
      have hend : z.rest.head?.any Char.isDigit = false := Operator.behind_digits hdigits
      refine ⟨_, hentry.trans hloop, by simp [z, y, TokenStream.advanced], ?_⟩
      simp [Stage.move, Stage.offset, hend, hslice]

/-- With its argument a token is taken up to the end of its dots. -/
theorem closing {w : Stage} {o : Opened} {cs : List Char} {first : Option Accidental}
    {n : Option UInt32} {kind : Token.Kind} (hmove : w.move source = o.finish first n)
    (hrest : w.stream.rest = (o.operator.parts cs).dots ++ (o.operator.parts cs).rest)
    (hkind : o.operator.kind? first n (o.operator.parts cs).dotCount = some kind) :
    let p := o.operator.parts cs
    Scans source w p.dots [] ⟨w.stream.advanced p.dots p.rest, .closing o kind⟩ := by
  intro p
  rw [Operator.kind?_dotted, Option.map_eq_some_iff] at hkind
  obtain ⟨bare, hbare, rfl⟩ := hkind
  simp only [Opened.finish, hbare] at hmove
  cases hdots : o.operator.takesDots with
  | false =>
      have hnil : p.dots = [] := Operator.dots_eq_nil hdots
      have hrest : w.stream.rest = p.rest := by rw [hrest, hnil, List.nil_append]
      rw [hdots] at hmove
      have hcount : p.dotCount = 0 := by simp [Operator.Parts.dotCount, hnil]
      have hdotted : bare = bare.dotted 0 := by
        have hzero := o.operator.kind?_dotted first n 0
        rw [hbare] at hzero
        exact Option.some.inj hzero
      rw [hcount, ← hdotted, hnil, ← hrest]
      exact stay hmove
  | true =>
      rw [hdots, if_pos rfl] at hmove
      have hloop : Scans source ⟨w.stream, .dots o bare 0⟩ p.dots []
          ⟨w.stream.advanced p.dots p.rest, .dots o bare p.dotCount⟩ :=
        dots_loop hrest fun _ => Operator.eq_dot_of_parts
      have hend : (w.stream.advanced p.dots p.rest).rest.head?.any (· == '.') = false :=
        Operator.behind_dots hdots
      have hclosed : Stage.move source ⟨w.stream.advanced p.dots p.rest, .dots o bare p.dotCount⟩ =
          .stay (.closing o (bare.dotted p.dotCount)) := by
        have hdot : (w.stream.advanced p.dots p.rest).rest.head? ≠ some '.' := by
          intro h
          simp [h] at hend
        simp [Stage.move, hdot]
      simpa using ((stay hmove).trans hloop).trans (stay hclosed)

section
variable {c : Char} {cs : List Char} {op : Operator} (hx : x.InStep source before)
  (hrest : x.rest = c :: cs) (hc : isSeparator c = false)
include hx hrest hc

theorem operator_conclusion (hop : Operator.ofChar? c = some op)
    (hr : Reading.ofText c cs ≠ .unknown) :
    let p := op.parts cs
    ∃ w, Scans source ⟨x, .between⟩ (c :: (p.signs ++ p.digits)) [] w ∧
      w.stream = x.advanced (c :: (p.signs ++ p.digits)) (p.dots ++ p.rest) ∧
      w.move source = Opened.conclude ⟨op, c, x.cursor.offset, x.cursor.place⟩
        p.accidental p.digits := by
  have hopen := advance (Stage.move_operator hx hrest hc hop hr) hrest
  obtain ⟨w, hw, hstream, hmove⟩ := conclusion (hx.after hrest)
    ⟨op, c, x.cursor.offset, x.cursor.place⟩
  exact ⟨w, hopen.trans hw, hstream, hmove⟩

/-- A token that cannot be read is answered with its fault, and its dots are left. -/
theorem failed {cause : Misreading} (hr : Reading.ofText c cs = .failed cause taken rest) :
    Scans source ⟨x, .between⟩ taken [.failed ⟨cause, x.cursor.place⟩]
      ⟨(x.advanced taken rest).answered (.failed ⟨cause, x.cursor.place⟩), .idle⟩ := by
  have hknown : Reading.ofText c cs ≠ .unknown := by simp [hr]
  unfold Reading.ofText at hr
  split at hr
  · cases hr
  next op hop =>
    obtain ⟨w, hw, hstream, hmove⟩ := operator_conclusion hx hrest hc hop hknown
    dsimp only at hr
    split at hr
    next harg =>
      cases hr
      rw [Opened.conclude, harg] at hmove
      simpa [hstream] using hw.trans (answer hmove)
    next n harg =>
      split at hr
      · cases hr
      next hkind =>
        split at hr
        · cases hr
        · cases hr
          rw [Operator.kind?_dotted, Option.map_eq_none_iff] at hkind
          rw [Opened.conclude, harg] at hmove
          simp only [Opened.finish, hkind] at hmove
          simpa [hstream] using hw.trans (answer hmove)

/-- A token is answered once its dots are taken. -/
theorem token {kind : Token.Kind} (hr : Reading.ofText c cs = .token kind taken rest) :
    Scans source ⟨x, .between⟩ taken [.token ⟨kind, c, String.ofList taken, x.cursor.place⟩]
      ⟨(x.advanced taken rest).answered
        (.token ⟨kind, c, String.ofList taken, x.cursor.place⟩), .idle⟩ := by
  have hknown : Reading.ofText c cs ≠ .unknown := by simp [hr]
  unfold Reading.ofText at hr
  split at hr
  · cases hr
  next op hop =>
    obtain ⟨w, hw, hstream, hmove⟩ := operator_conclusion hx hrest hc hop hknown
    dsimp only at hr
    split at hr
    · cases hr
    next n harg =>
      split at hr
      next hkind =>
        cases hr
        rw [Opened.conclude, harg] at hmove
        have hdots := closing hmove (by rw [hstream]; rfl) hkind
        have hclosing := hw.trans hdots
        rw [hstream, TokenStream.advanced_advanced, List.cons_append, List.append_assoc] at hclosing
        have hparts : x.rest = c :: ((op.parts cs).signs ++ ((op.parts cs).digits ++
            (op.parts cs).dots)) ++ (op.parts cs).rest := by
          rw [hrest, List.cons_append, List.append_assoc, List.append_assoc, op.parts_append]
        have hslice := hx.slice? (hx.advanced hparts)
        simpa only [List.append_nil, List.nil_append] using
          hclosing.trans (answer (by simp only [Stage.move, Stage.offset, hslice]))
      · split at hr <;> cases hr

end

/-- A scan comes to what a search meets. -/
theorem search (hx : x.InStep source before) :
    let s := Search.run x.cursor x.rest
    ∃ taken, Scans source ⟨x, .between⟩ taken [s.find] ⟨x.behind s, .idle⟩ := by
  induction hrest : x.rest generalizing x before with
  | nil =>
      have hanswer : Stage.move source ⟨x, .between⟩ = .answer .ended := by
        simp [Stage.move, hrest]
      refine ⟨[], ?_⟩
      simpa [Search.run, TokenStream.behind, TokenStream.answered, hrest] using answer hanswer
  | cons c cs ih =>
      cases hc : isSeparator c with
      | true =>
          obtain ⟨taken, hlater⟩ := ih (hx.after hrest) rfl
          rw [Search.run_separator hc]
          exact ⟨_, (advance (Stage.move_separator hrest hc) hrest).trans hlater⟩
      | false =>
          cases hr : Reading.ofText c cs with
          | unknown =>
              have hskipped : (x.skip c).InStep source before := ⟨hx.text, hx.cursor⟩
              obtain ⟨taken, hlater⟩ := ih (hskipped.after hrest) rfl
              refine ⟨c :: taken, ?_⟩
              have hskip := (skip (Stage.move_unknown hx hrest hc hr) hrest).trans hlater
              simpa [Search.run_unknown hc hr, TokenStream.behind, TokenStream.advanced,
                TokenStream.skip] using hskip
          | token kind taken rest =>
              rw [Search.run_token hc hr]
              refine ⟨taken, ?_⟩
              simpa [TokenStream.behind, TokenStream.advanced, TokenStream.answered] using
                token hx hrest hc hr
          | failed cause taken rest =>
              rw [Search.run_failed hc hr]
              refine ⟨taken, ?_⟩
              simpa [TokenStream.behind, TokenStream.advanced, TokenStream.answered] using
                failed hx hrest hc hr

/-- A request is answered by a scan as the stream answers it. -/
theorem next (hx : x.InStep source before) :
    ∃ taken, Scans source ⟨x, .idle⟩ taken [x.next.1] ⟨x.next.2, .idle⟩ := by
  cases hf : x.failed with
  | true =>
      have hanswer : Stage.move source ⟨x, .idle⟩ = .answer .ended := by simp [Stage.move, hf]
      rw [TokenStream.IsFinished.next_eq (.inl hf)]
      refine ⟨[], ?_⟩
      simpa [TokenStream.answered, Find.isFailed] using answer hanswer
  | false =>
      have hstay : Stage.move source ⟨x, .idle⟩ = .stay .between := by simp [Stage.move, hf]
      obtain ⟨taken, hsearch⟩ := search hx
      rw [← TokenStream.search_eq_run hf] at hsearch
      exact ⟨_, (stay hstay).trans hsearch⟩

end

/-- A number of requests is answered by one scan. -/
theorem answers (source : String) (n : ℕ) :
    ∃ cs, Scans source (.start source) cs ((TokenStream.ofText source).answers n)
      ⟨(TokenStream.ofText source).after n, .idle⟩ := by
  induction n with
  | zero => exact ⟨[], .refl⟩
  | succ n ih =>
      obtain ⟨cs, hcs⟩ := ih
      obtain ⟨ds, hds⟩ := next (hcs.inStep (.ofText source))
      exact ⟨cs ++ ds, hcs.trans hds⟩

/-- The requests answered by a scan are answered by the stream. -/
theorem stream_eq {source : String} {cs : List Char} {fs : List Find} {w : Stage}
    (h : Scans source (.start source) cs fs w) (hidle : w.phase = .idle) :
    fs = (TokenStream.ofText source).answers fs.length ∧
      w.stream = (TokenStream.ofText source).after fs.length := by
  obtain ⟨cs', h'⟩ := answers source fs.length
  have hlength := TokenStream.length_answers (TokenStream.ofText source) fs.length
  obtain ⟨ds, gs, hrest, hfs⟩ | ⟨ds, gs, hrest, hfs⟩ := h.linear h'
  · rw [hfs, List.length_append] at hlength
    obtain rfl : gs = [] := List.length_eq_zero_iff.1 (by omega)
    rw [hfs, List.append_nil, hrest.eq_of_idle rfl]
    exact ⟨rfl, rfl⟩
  · have hnil : gs = [] := by
      have hlengths := congrArg List.length hfs
      rw [List.length_append, hlength] at hlengths
      exact List.length_eq_zero_iff.1 (by omega)
    rw [hnil] at hrest hfs
    rw [← hrest.eq_of_idle hidle]
    exact ⟨by rwa [List.append_nil] at hfs, rfl⟩

/-- However often the next token is asked for, a scan gives the same answers as the stream and
leaves the same stream, and no others. At each of its stages, in the middle of a loop too, the
cursor is in step with the characters to come, and the slices that the scan may take exist: behind
the next character, from the entry of the loop over digits, and from the beginning of a token. The
last two are what was advanced over since then, so a scan is never stuck. -/
theorem keeps_in_step (source : String) :
    (∀ n, ∃ cs, Scans source (.start source) cs ((TokenStream.ofText source).answers n)
      ⟨(TokenStream.ofText source).after n, .idle⟩) ∧
    ∀ cs fs w, Scans source (.start source) cs fs w →
      (w.phase = .idle → fs = (TokenStream.ofText source).answers fs.length ∧
        w.stream = (TokenStream.ofText source).after fs.length) ∧
      source.toList = cs ++ w.stream.rest ∧
      w.offset = (String.ofList cs).utf8ByteSize ∧
      w.stream.cursor.place = Place.behind cs ∧
      Text.sliceFrom? source w.offset = some (String.ofList w.stream.rest) ∧
      (∀ c rest, w.stream.rest = c :: rest →
        Text.sliceFrom? source (w.offset + c.utf8Size) = some (String.ofList rest)) ∧
      (∀ o first start, w.phase = .digits o first start → ∃ v ds,
        v.phase = .digits o first start ∧ v.offset = start ∧ w.Since source cs fs v ds ∧
        (∀ d ∈ ds, d.isDigit = true) ∧
        Text.slice? source start w.offset = some (String.ofList ds)) ∧
      (∀ o, w.phase.opened? = some o → ∃ v taken,
        v.phase = .between ∧ v.stream.cursor = ⟨o.start, o.place⟩ ∧
        w.Since source cs fs v taken ∧ taken.head? = some o.character ∧
        Text.slice? source o.start w.offset = some (String.ofList taken)) ∧
      (w.step? source).isSome = true := by
  refine ⟨answers source, ?_⟩
  intro cs fs w h
  have hw : w.stream.InStep source cs := h.inStep (.ofText source)
  refine ⟨h.stream_eq, hw.text, hw.offset, hw.place, hw.sliceFrom?,
    fun _ _ => hw.sliceFrom?_behind, ?_, ?_, h.step?_isSome⟩
  · intro o first start hphase
    obtain ⟨v, ds, hentry, rfl, hdigits, hsince⟩ := h.digits hphase
    exact ⟨v, ds, hentry, rfl, hsince, hdigits, hsince.slice?⟩
  · intro o ho
    obtain ⟨v, taken, hbetween, hcursor, hhead, hsince⟩ := h.opened ho
    have hslice := hsince.slice?
    rw [Stage.offset, hcursor] at hslice
    exact ⟨v, taken, hbetween, hcursor, hsince, hhead, hslice⟩

end Scans

end MusicMacro
