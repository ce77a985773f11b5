import MusicMacro.Proofs.Text.Slice
import MusicMacro.Proofs.Token.Division

/-!
Reading, one character at a time. A scan holds the characters that are still to come and the offset
of the first of them side by side, and only the offset tells it where to cut a slice. The two keep
in step at every stage, so a slice is never off the boundaries of characters.
-/

namespace MusicMacro

/-- The token that has the number as its dots, if it can have dots. -/
def Token.Kind.dotted (dots : UInt32) : Kind → Kind
  | .numbered n _ => .numbered n dots
  | .note letter accidental n _ => .note letter accidental n dots
  | .rest n _ => .rest n dots
  | kind => kind

/-- What is known of a token once its operator is taken. Where it begins is told twice, as an offset
and as a place. -/
structure Opened where
  operator : Operator
  character : Char
  start : Nat
  place : Place
  deriving DecidableEq, Repr

/-- Where a scan stands: waiting for a request, between two tokens, or in one of the loops over the
signs, the digits and the dots of a token. -/
inductive Phase
  | idle
  | between
  | opened (o : Opened)
  | signs (o : Opened) (first : Option Accidental)
  | digits (o : Opened) (first : Option Accidental) (start : Nat)
  | dots (o : Opened) (kind : Token.Kind) (count : UInt32)
  | closing (o : Opened) (kind : Token.Kind)
  deriving DecidableEq, Repr

def Phase.opened? : Phase → Option Opened
  | .opened o | .signs o _ | .digits o _ _ | .dots o _ _ | .closing o _ => some o
  | .idle | .between => none

/-- What a scan does next. It is stuck where a slice that it needs does not exist. -/
inductive Move
  | stay (phase : Phase)
  | advance (phase : Phase)
  | skip (character : Char)
  | answer (find : Find)
  | stuck
  deriving DecidableEq, Repr

namespace Opened

variable (o : Opened) (first : Option Accidental)

/-- What is done with an argument. -/
def finish (n : Option UInt32) : Move :=
  match o.operator.kind? first n 0 with
  | none => .answer (.failed ⟨.missingArgument o.character, o.place⟩)
  | some kind => .stay (if o.operator.takesDots then .dots o kind 0 else .closing o kind)

/-- What is done with the digits of an argument. -/
def conclude (digits : List Char) : Move :=
  match Token.argument digits with
  | .error cause => .answer (.failed ⟨cause, o.place⟩)
  | .ok n => o.finish first n

variable {o first} {p : Phase}

theorem finish_eq_stay {n : Option UInt32} (h : o.finish first n = .stay p) :
    ∃ kind, p = .dots o kind 0 ∨ p = .closing o kind := by
  unfold finish at h
  split at h
  · cases h
  next kind _ =>
    cases h
    refine ⟨kind, ?_⟩
    split
    · exact .inl rfl
    · exact .inr rfl

theorem finish_ne_advance {n : Option UInt32} : o.finish first n ≠ .advance p := by
  unfold finish
  split <;> exact nofun

theorem finish_ne_stuck {n : Option UInt32} : o.finish first n ≠ .stuck := by
  unfold finish
  split <;> exact nofun

theorem conclude_eq_stay {ds : List Char} (h : o.conclude first ds = .stay p) :
    ∃ kind, p = .dots o kind 0 ∨ p = .closing o kind := by
  unfold conclude at h
  split at h
  · cases h
  · exact finish_eq_stay h

theorem conclude_ne_advance {ds : List Char} : o.conclude first ds ≠ .advance p := by
  unfold conclude
  split
  · exact nofun
  · exact finish_ne_advance

theorem conclude_ne_stuck {ds : List Char} : o.conclude first ds ≠ .stuck := by
  unfold conclude
  split
  · exact nofun
  · exact finish_ne_stuck

end Opened

namespace TokenStream

/-- The stream behind characters that were advanced over. -/
def advanced (x : TokenStream) (taken rest : List Char) : TokenStream :=
  { x with rest := rest, cursor := x.cursor.past taken }

theorem advanced_advanced (x : TokenStream) (as bs behind rest : List Char) :
    (x.advanced as behind).advanced bs rest = x.advanced (as ++ bs) rest := by
  simp [advanced]

def skip (x : TokenStream) (c : Char) : TokenStream :=
  { x with skipped := x.skipped ++ [⟨c, x.cursor.place⟩] }

def answered (x : TokenStream) (find : Find) : TokenStream :=
  { x with failed := x.failed || find.isFailed }

end TokenStream

/-- A stage of a scan. -/
structure Stage where
  stream : TokenStream
  phase : Phase
  deriving DecidableEq, Repr

namespace Stage

def start (source : String) : Stage := ⟨.ofText source, .idle⟩

def offset (w : Stage) : Nat := w.stream.cursor.offset

/-- The next move. Whether a number sign opens a token is told by a slice from behind it on. -/
def move (source : String) (w : Stage) : Move :=
  match w.phase with
  | .idle => if w.stream.failed then .answer .ended else .stay .between
  | .between =>
    match w.stream.rest with
    | [] => .answer .ended
    | c :: _ =>
      if isSeparator c then .advance .between
      else match Operator.ofChar? c with
        | none => .skip c
        | some op =>
          let opened := Move.advance (.opened ⟨op, c, w.offset, w.stream.cursor.place⟩)
          if op = .numbered then
            match Text.sliceFrom? source (w.offset + c.utf8Size) with
            | none => .stuck
            | some behind => if behind.toList.head?.any Char.isDigit then opened else .skip c
          else opened
  | .opened o =>
    if o.operator.takesSigns then .stay (.signs o none)
    else if o.operator.takesDigits then .stay (.digits o none w.offset)
    else o.finish none none
  | .signs o first =>
    match w.stream.rest.head?.bind Accidental.ofChar? with
    | some accidental => .advance (.signs o (first.or (some accidental)))
    | none => .stay (.digits o first w.offset)
  | .digits o first start =>
    if w.stream.rest.head?.any Char.isDigit then .advance (.digits o first start)
    else match Text.slice? source start w.offset with
      | none => .stuck
      | some digits => o.conclude first digits.toList
  | .dots o kind count =>
    if w.stream.rest.head? = some '.' then .advance (.dots o kind (count + 1))
    else .stay (.closing o (kind.dotted count))
  | .closing o kind =>
    match Text.slice? source o.start w.offset with
    | none => .stuck
    | some text => .answer (.token ⟨kind, o.character, text, o.place⟩)

/-- The stage behind a move, with the characters advanced over and the answers given. -/
def perform (x : TokenStream) : Move → Option (List Char × List Find × Stage)
  | .stay phase => some ([], [], ⟨x, phase⟩)
  | .advance phase =>
    some (x.rest.take 1, [], ⟨x.advanced (x.rest.take 1) (x.rest.drop 1), phase⟩)
  | .skip c =>
    some (x.rest.take 1, [], ⟨(x.skip c).advanced (x.rest.take 1) (x.rest.drop 1), .between⟩)
  | .answer find => some ([], [find], ⟨x.answered find, .idle⟩)
  | .stuck => none

def step? (source : String) (w : Stage) : Option (List Char × List Find × Stage) :=
  perform w.stream (w.move source)

end Stage

/-- A scan of a text goes from one stage to another, over characters and with answers. -/
inductive Scans (source : String) (v : Stage) : List Char → List Find → Stage → Prop
  | refl : Scans source v [] [] v
  | step {cs ds : List Char} {fs gs : List Find} {w w' : Stage} :
      Scans source v cs fs w → w.step? source = some (ds, gs, w') →
      Scans source v (cs ++ ds) (fs ++ gs) w'

namespace Scans

variable {source : String} {u v w : Stage} {cs ds : List Char} {fs gs : List Find}

theorem trans (h : Scans source u cs fs v) (h' : Scans source v ds gs w) :
    Scans source u (cs ++ ds) (fs ++ gs) w := by
  induction h' with
  | refl => simpa using h
  | step _ hstep ih =>
      rw [← List.append_assoc, ← List.append_assoc]
      exact ih.step hstep

theorem single (h : v.step? source = some (cs, fs, w)) : Scans source v cs fs w := by
  simpa using Scans.refl.step h

theorem head_cases (h : Scans source v cs fs w) : (cs = [] ∧ fs = [] ∧ w = v) ∨
    ∃ ds gs u es hs, v.step? source = some (ds, gs, u) ∧ Scans source u es hs w ∧
      cs = ds ++ es ∧ fs = gs ++ hs := by
  induction h with
  | refl => exact .inl ⟨rfl, rfl, rfl⟩
  | @step cs ds fs gs w w' hw hstep ih =>
      obtain ⟨rfl, rfl, rfl⟩ | ⟨ds', gs', u, es, hs, hhead, hu, rfl, rfl⟩ := ih
      · exact .inr ⟨ds, gs, w', [], [], hstep, .refl, by simp, by simp⟩
      · exact .inr ⟨ds', gs', u, es ++ ds, hs ++ gs, hhead, hu.step hstep,
          List.append_assoc .., List.append_assoc ..⟩

/-- Of two scans from one stage one goes on from where the other one is. -/
theorem linear {cs' : List Char} {fs' : List Find} {w' : Stage} (h : Scans source v cs fs w)
    (h' : Scans source v cs' fs' w') :
    (∃ ds gs, Scans source w ds gs w' ∧ fs' = fs ++ gs) ∨
      ∃ ds gs, Scans source w' ds gs w ∧ fs = fs' ++ gs := by
  induction h' with
  | refl => exact .inr ⟨cs, fs, h, rfl⟩
  | @step cs' ds' fs' gs' u u' hu hstep ih =>
      obtain ⟨ds, gs, hwu, rfl⟩ | ⟨ds, gs, huw, rfl⟩ := ih
      · exact .inl ⟨_, _, hwu.step hstep, List.append_assoc ..⟩
      · obtain ⟨rfl, rfl, rfl⟩ | ⟨ds₁, gs₁, u₁, es, hs, hhead, hrest, rfl, rfl⟩ := huw.head_cases
        · exact .inl ⟨_, _, single hstep, by rw [List.append_nil]⟩
        · obtain ⟨rfl, rfl, rfl⟩ : ds₁ = ds' ∧ gs₁ = gs' ∧ u₁ = u' := by
            simpa [hstep, eq_comm] using hhead
          exact .inr ⟨es, hs, hrest, (List.append_assoc ..).symm⟩

end Scans

namespace Stage

variable {source : String} {w w' : Stage} {ds : List Char} {gs : List Find}

/-- All that a step can do. -/
theorem step?_cases (h : w.step? source = some (ds, gs, w')) :
    let taken := w.stream.rest.take 1
    let rest := w.stream.rest.drop 1
    (∃ p, w.move source = .stay p ∧ ds = [] ∧ gs = [] ∧ w' = ⟨w.stream, p⟩) ∨
    (∃ p, w.move source = .advance p ∧ ds = taken ∧ gs = [] ∧
      w' = ⟨w.stream.advanced taken rest, p⟩) ∨
    (∃ c, w.move source = .skip c ∧ ds = taken ∧ gs = [] ∧
      w' = ⟨(w.stream.skip c).advanced taken rest, .between⟩) ∨
    ∃ find, w.move source = .answer find ∧ ds = [] ∧ gs = [find] ∧
      w' = ⟨w.stream.answered find, .idle⟩ := by
  unfold step? at h
  cases hmove : w.move source with
  | stay p =>
      rw [hmove] at h
      cases h
      exact .inl ⟨p, rfl, rfl, rfl, rfl⟩
  | advance p =>
      rw [hmove] at h
      cases h
      exact .inr (.inl ⟨p, rfl, rfl, rfl, rfl⟩)
  | skip c =>
      rw [hmove] at h
      cases h
      exact .inr (.inr (.inl ⟨c, rfl, rfl, rfl, rfl⟩))
  | answer find =>
      rw [hmove] at h
      cases h
      exact .inr (.inr (.inr ⟨find, rfl, rfl, rfl, rfl⟩))
  | stuck =>
      rw [hmove] at h
      cases h

/-- What a step advances over is what it takes from the characters to come. -/
theorem step?_advances (h : w.step? source = some (ds, gs, w')) :
    w.stream.rest = ds ++ w'.stream.rest ∧ w'.stream.cursor = w.stream.cursor.past ds := by
  obtain ⟨p, -, rfl, -, rfl⟩ | ⟨p, -, rfl, -, rfl⟩ | ⟨c, -, rfl, -, rfl⟩ | ⟨f, -, rfl, -, rfl⟩ :=
    step?_cases h
  · exact ⟨rfl, rfl⟩
  · exact ⟨(List.take_append_drop 1 _).symm, rfl⟩
  · exact ⟨(List.take_append_drop 1 _).symm, rfl⟩
  · exact ⟨rfl, rfl⟩

variable {p : Phase} {o : Opened}

theorem move_eq_stay (h : w.move source = .stay p) : p ≠ .idle ∧
    p.opened? = w.phase.opened? ∧
    ∀ o first start, p = .digits o first start → start = w.offset := by
  obtain ⟨x, phase⟩ := w
  cases phase <;> grind [move, Phase.opened?, Opened.finish_eq_stay, Opened.conclude_eq_stay]

theorem move_eq_advance (h : w.move source = .advance p) :
    (p ≠ .idle ∧ p.opened? = w.phase.opened? ∧ ∀ o first start, p = .digits o first start →
      w.phase = p ∧ w.stream.rest.head?.any Char.isDigit = true) ∨
    ∃ op c cs, w.phase = .between ∧ w.stream.rest = c :: cs ∧
      p = .opened ⟨op, c, w.offset, w.stream.cursor.place⟩ := by
  obtain ⟨x, phase⟩ := w
  cases phase <;>
    grind [move, Phase.opened?, Opened.finish_ne_advance, Opened.conclude_ne_advance]

/-- A scan is stuck for want of a slice. -/
theorem move_eq_stuck (h : w.move source = .stuck) :
    (∃ c cs, w.stream.rest = c :: cs ∧ Text.sliceFrom? source (w.offset + c.utf8Size) = none) ∨
    (∃ o first start, w.phase = .digits o first start ∧
      Text.slice? source start w.offset = none) ∨
    ∃ o, w.phase.opened? = some o ∧ Text.slice? source o.start w.offset = none := by
  obtain ⟨x, phase⟩ := w
  cases phase <;> grind [move, Phase.opened?, Opened.finish_ne_stuck, Opened.conclude_ne_stuck]

/-- A step inside a token goes on with it or opens it, and gives no answer. -/
theorem opened_of_step? (h : w.step? source = some (ds, gs, w'))
    (ho : w'.phase.opened? = some o) : gs = [] ∧ (w.phase.opened? = some o ∨
      w.phase = .between ∧ w.stream.cursor = ⟨o.start, o.place⟩ ∧ ds = [o.character]) := by
  obtain ⟨p, hmove, -, rfl, rfl⟩ | ⟨p, hmove, rfl, rfl, rfl⟩ | ⟨c, -, -, -, rfl⟩ |
    ⟨f, -, -, -, rfl⟩ := step?_cases h
  · exact ⟨rfl, .inl ((move_eq_stay hmove).2.1.symm.trans ho)⟩
  · refine ⟨rfl, ?_⟩
    obtain ⟨-, hsame, -⟩ | ⟨op, c, cs, hbetween, hrest, rfl⟩ := move_eq_advance hmove
    · exact .inl (hsame.symm.trans ho)
    · obtain rfl := Option.some.inj ho
      exact .inr ⟨hbetween, rfl, by rw [hrest]; rfl⟩
  · cases ho
  · cases ho

/-- A step inside the loop over digits enters it or advances over one of them. -/
theorem digits_of_step? (h : w.step? source = some (ds, gs, w')) {first : Option Accidental}
    {start : Nat} (hphase : w'.phase = .digits o first start) :
    (ds = [] ∧ start = w'.offset) ∨
      (w.phase = .digits o first start ∧ ∀ d ∈ ds, d.isDigit = true) := by
  obtain ⟨p, hmove, rfl, -, rfl⟩ | ⟨p, hmove, rfl, -, rfl⟩ | ⟨c, -, -, -, rfl⟩ |
    ⟨f, -, -, -, rfl⟩ := step?_cases h
  · exact .inl ⟨rfl, (move_eq_stay hmove).2.2 _ _ _ hphase⟩
  · obtain ⟨-, -, hloop⟩ | ⟨op, c, cs, -, -, rfl⟩ := move_eq_advance hmove
    · obtain ⟨hsame, hdigit⟩ := hloop _ _ _ hphase
      refine .inr ⟨hsame.trans hphase, ?_⟩
      intro d hd
      cases hrest : w.stream.rest with
      | nil => simp [hrest] at hd
      | cons c cs => simp_all
    · cases hphase
  · cases hphase
  · cases hphase

/-- A scan waits for a request behind an answer alone. -/
theorem answer_of_step? (h : w.step? source = some (ds, gs, w')) (hidle : w'.phase = .idle) :
    gs ≠ [] := by
  obtain ⟨p, hmove, -, -, rfl⟩ | ⟨p, hmove, -, -, rfl⟩ | ⟨c, -, -, -, rfl⟩ |
    ⟨f, -, -, rfl, -⟩ := step?_cases h
  · exact absurd hidle (move_eq_stay hmove).1
  · obtain ⟨hne, -, -⟩ | ⟨op, c, cs, -, -, rfl⟩ := move_eq_advance hmove
    · exact absurd hidle hne
    · cases hidle
  · cases hidle
  · exact List.cons_ne_nil _ _

theorem step?_isSome (h : w.move source ≠ .stuck) : (w.step? source).isSome = true := by
  unfold step?
  cases hmove : w.move source with
  | stuck => exact absurd hmove h
  | _ => rfl

end Stage

/-- The cursor keeps in step with the characters to come: it is where the text before them ends. -/
structure TokenStream.InStep (source : String) (before : List Char) (x : TokenStream) : Prop where
  text : source.toList = before ++ x.rest
  cursor : x.cursor = Cursor.past {} before

namespace TokenStream.InStep

variable {source : String} {before cs ds : List Char} {c : Char} {x y : TokenStream}

theorem ofText (source : String) : InStep source [] (.ofText source) := ⟨rfl, rfl⟩

theorem offset (h : InStep source before x) :
    x.cursor.offset = (String.ofList before).utf8ByteSize := by
  rw [h.cursor, Cursor.offset_past, Nat.zero_add]

theorem place (h : InStep source before x) : x.cursor.place = Place.behind before := by
  rw [h.cursor, Cursor.place_past]
  exact Place.past_behind [] before

theorem advance (h : InStep source before x) (hrest : x.rest = ds ++ y.rest)
    (hcursor : y.cursor = x.cursor.past ds) : InStep source (before ++ ds) y := by
  refine ⟨?_, ?_⟩
  · rw [h.text, hrest, List.append_assoc]
  · rw [hcursor, h.cursor, Cursor.past_append]

theorem advanced (h : InStep source before x) (hrest : x.rest = cs ++ ds) :
    InStep source (before ++ cs) (x.advanced cs ds) := h.advance hrest rfl

theorem slice? (h : InStep source before x) (h' : InStep source (before ++ cs) y) :
    Text.slice? source x.cursor.offset y.cursor.offset = some (String.ofList cs) := by
  rw [h.offset, h'.offset]
  exact Text.slice?_of_toList (by rw [h'.text, List.append_assoc])

theorem sliceFrom? (h : InStep source before x) :
    Text.sliceFrom? source x.cursor.offset = some (String.ofList x.rest) := by
  rw [h.offset]
  exact Text.sliceFrom?_of_toList h.text

theorem after (h : InStep source before x) (hrest : x.rest = c :: cs) :
    InStep source (before ++ [c]) (x.advanced [c] cs) := h.advance hrest rfl

/-- What stands behind the next character is found by its length. -/
theorem sliceFrom?_behind (h : InStep source before x) (hrest : x.rest = c :: cs) :
    Text.sliceFrom? source (x.cursor.offset + c.utf8Size) = some (String.ofList cs) :=
  (h.after hrest).sliceFrom?

end TokenStream.InStep

namespace Scans

variable {source : String} {v w : Stage} {before cs : List Char} {fs : List Find}

theorem inStep (h : Scans source v cs fs w) (hv : v.stream.InStep source before) :
    w.stream.InStep source (before ++ cs) := by
  induction h with
  | refl => simpa using hv
  | step _ hstep ih =>
      obtain ⟨hrest, hcursor⟩ := Stage.step?_advances hstep
      rw [← List.append_assoc]
      exact ih.advance hrest hcursor

end Scans

namespace Stage

/-- The characters that a scan from the start advanced over since a stage, without an answer on the
way. -/
def Since (source : String) (cs : List Char) (fs : List Find) (w v : Stage) (taken : List Char) :
    Prop :=
  ∃ before, Scans source (.start source) before fs v ∧ Scans source v taken [] w ∧
    cs = before ++ taken

namespace Since

variable {source : String} {cs ds taken : List Char} {fs : List Find} {v w w' : Stage}

theorem refl (h : Scans source (.start source) cs fs w) : w.Since source cs fs w [] :=
  ⟨cs, h, .refl, (List.append_nil cs).symm⟩

theorem step (h : w.Since source cs fs v taken) (hstep : w.step? source = some (ds, [], w')) :
    w'.Since source (cs ++ ds) (fs ++ []) v (taken ++ ds) := by
  obtain ⟨before, hv, hw, rfl⟩ := h
  refine ⟨before, ?_, hw.step hstep, List.append_assoc ..⟩
  rwa [List.append_nil]

/-- A slice between the two stages is the characters advanced over. -/
theorem slice? (h : w.Since source cs fs v taken) :
    Text.slice? source v.offset w.offset = some (String.ofList taken) := by
  obtain ⟨before, hv, hw, -⟩ := h
  have hfront := hv.inStep (.ofText source)
  exact hfront.slice? (hw.inStep hfront)

end Since

end Stage

namespace Scans

/-- From one request to the next there is an answer. -/
theorem eq_of_idle {source : String} {v w : Stage} {cs : List Char} (h : Scans source v cs [] w)
    (hidle : w.phase = .idle) : v = w := by
  generalize hfs : ([] : List Find) = fs at h
  cases h with
  | refl => rfl
  | step hw hstep =>
      exact absurd (List.append_eq_nil_iff.1 hfs.symm).2 (Stage.answer_of_step? hstep hidle)

variable {source : String} {w : Stage} {cs : List Char} {fs : List Find} {o : Opened}

/-- A stage inside a token was reached from the head of the loop over the text, where the token
begins. -/
theorem opened (h : Scans source (.start source) cs fs w) (ho : w.phase.opened? = some o) :
    ∃ v taken, v.phase = .between ∧ v.stream.cursor = ⟨o.start, o.place⟩ ∧
      taken.head? = some o.character ∧ w.Since source cs fs v taken := by
  induction h with
  | refl => cases ho
  | @step cs ds fs gs w w' hw hstep ih =>
      obtain ⟨rfl, hsame | ⟨hbetween, hcursor, rfl⟩⟩ := Stage.opened_of_step? hstep ho
      · obtain ⟨v, taken, hbetween, hcursor, hhead, hsince⟩ := ih hsame
        refine ⟨v, taken ++ ds, hbetween, hcursor, ?_, hsince.step hstep⟩
        rw [List.head?_append, hhead]
        rfl
      · exact ⟨w, [o.character], hbetween, hcursor, rfl, (Stage.Since.refl hw).step hstep⟩

/-- A stage in the loop over digits was reached from the entry of that loop over digits alone. -/
theorem digits (h : Scans source (.start source) cs fs w) {first : Option Accidental}
    {start : Nat} (hphase : w.phase = .digits o first start) :
    ∃ v ds, v.phase = .digits o first start ∧ v.offset = start ∧
      (∀ d ∈ ds, d.isDigit = true) ∧ w.Since source cs fs v ds := by
  induction h with
  | refl => cases hphase
  | @step cs ds fs gs w w' hw hstep ih =>
      obtain ⟨rfl, hstart⟩ | ⟨hsame, hdigits⟩ := Stage.digits_of_step? hstep hphase
      · exact ⟨w', [], hphase, hstart.symm, nofun, .refl (hw.step hstep)⟩
      · obtain ⟨rfl, -⟩ := Stage.opened_of_step? hstep (o := o) (by rw [hphase]; rfl)
        obtain ⟨v, taken, hentry, hstart, htaken, hsince⟩ := ih hsame
        refine ⟨v, taken ++ ds, hentry, hstart, ?_, hsince.step hstep⟩
        intro d hd
        exact (List.mem_append.1 hd).elim (htaken d) (hdigits d)


theorem step?_isSome (h : Scans source (.start source) cs fs w) :
    (w.step? source).isSome = true := by
  refine Stage.step?_isSome fun hstuck => ?_
  obtain ⟨c, rest, hrest, hnone⟩ | ⟨o, first, start, hphase, hnone⟩ | ⟨o, ho, hnone⟩ :=
    Stage.move_eq_stuck hstuck
  · have hsome := (h.inStep (.ofText source)).sliceFrom?_behind hrest
    rw [Stage.offset, hsome] at hnone
    cases hnone
  · obtain ⟨v, ds, -, rfl, -, hsince⟩ := h.digits hphase
    rw [hsince.slice?] at hnone
    cases hnone
  · obtain ⟨v, taken, -, hcursor, -, hsince⟩ := h.opened ho
    have hsome := hsince.slice?
    rw [Stage.offset, hcursor, hnone] at hsome
    cases hsome

end Scans

end MusicMacro
