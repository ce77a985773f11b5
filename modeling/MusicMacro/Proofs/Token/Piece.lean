import MusicMacro.Token.Stream

/-!
The pieces of a text: what reading takes from it, one after another, each with its place. Separators
and skipped characters are pieces as tokens are, so nothing of the text is lost between them.
-/

namespace MusicMacro

/-- What reading takes from the front of a text. -/
inductive Piece
  | separator (character : Char)
  | skipped (skipped : Skipped)
  | token (token : Token)
  | failed (fault : LexicalFault) (taken : List Char)
  deriving DecidableEq, Repr

namespace Piece

def text : Piece → List Char
  | .separator c => [c]
  | .skipped s => [s.character]
  | .token t => t.text.toList
  | .failed _ taken => taken

def token? : Piece → Option Token
  | .token t => some t
  | _ => none

def skipped? : Piece → Option Skipped
  | .skipped s => some s
  | _ => none

def fault? : Piece → Option LexicalFault
  | .failed fault _ => some fault
  | _ => none

def texts (ps : List Piece) : List Char := ps.flatMap text

@[simp] theorem texts_nil : texts [] = [] := rfl

@[simp] theorem texts_cons (q : Piece) (ps : List Piece) : texts (q :: ps) = q.text ++ texts ps :=
  List.flatMap_cons

@[simp] theorem texts_append (ps qs : List Piece) : texts (ps ++ qs) = texts ps ++ texts qs :=
  List.flatMap_append

/-- The first piece of a text that begins with the character, and the text behind it. -/
def first (p : Place) (c : Char) (cs : List Char) : Piece × List Char :=
  if isSeparator c then (.separator c, cs)
  else match Reading.ofText c cs with
    | .token kind taken rest => (.token ⟨kind, c, String.ofList taken, p⟩, rest)
    | .failed cause taken rest => (.failed ⟨cause, p⟩ taken, rest)
    | .unknown => (.skipped ⟨c, p⟩, cs)

theorem first_cases (p : Place) (c : Char) (cs : List Char) :
    (isSeparator c = true ∧ first p c cs = (.separator c, cs)) ∨
    (isSeparator c = false ∧ ∃ kind taken rest, Reading.ofText c cs = .token kind taken rest ∧
      first p c cs = (.token ⟨kind, c, String.ofList taken, p⟩, rest)) ∨
    (isSeparator c = false ∧ ∃ cause taken rest, Reading.ofText c cs = .failed cause taken rest ∧
      first p c cs = (.failed ⟨cause, p⟩ taken, rest)) ∨
    (isSeparator c = false ∧ Reading.ofText c cs = .unknown ∧
      first p c cs = (.skipped ⟨c, p⟩, cs)) := by
  unfold first
  cases hc : isSeparator c with
  | true => exact .inl ⟨rfl, rfl⟩
  | false =>
      cases hr : Reading.ofText c cs with
      | token kind taken rest => exact .inr (.inl ⟨rfl, kind, taken, rest, rfl, rfl⟩)
      | failed cause taken rest => exact .inr (.inr (.inl ⟨rfl, cause, taken, rest, rfl, rfl⟩))
      | unknown => exact .inr (.inr (.inr ⟨rfl, rfl, rfl⟩))

theorem text_first_append (p : Place) (c : Char) (cs : List Char) :
    (first p c cs).1.text ++ (first p c cs).2 = c :: cs := by
  obtain ⟨_, h⟩ | ⟨_, kind, taken, rest, hr, h⟩ | ⟨_, cause, taken, rest, hr, h⟩ | ⟨_, _, h⟩ :=
    first_cases p c cs
  · rw [h]; rfl
  · rw [h]
    simpa only [text, String.toList_ofList] using (Reading.eq_append_of_token hr).1.symm
  · rw [h]
    exact (Reading.eq_append_of_failed hr).1.symm
  · rw [h]; rfl

theorem text_first_ne_nil (p : Place) (c : Char) (cs : List Char) :
    (first p c cs).1.text ≠ [] := by
  obtain ⟨_, h⟩ | ⟨_, kind, taken, rest, hr, h⟩ | ⟨_, cause, taken, rest, hr, h⟩ | ⟨_, _, h⟩ :=
    first_cases p c cs
  · rw [h]; exact List.cons_ne_nil _ _
  · rw [h]
    simpa only [text, String.toList_ofList] using (Reading.eq_append_of_token hr).2
  · rw [h]
    exact (Reading.eq_append_of_failed hr).2
  · rw [h]; exact List.cons_ne_nil _ _

theorem length_first_lt (p : Place) (c : Char) (cs : List Char) :
    (first p c cs).2.length < (c :: cs).length := by
  have happ := congrArg List.length (text_first_append p c cs)
  have hpos := List.length_pos_iff.2 (text_first_ne_nil p c cs)
  rw [List.length_append] at happ
  omega

end Piece

/-- The pieces of a text in order, up to its end or to the first token that cannot be read. -/
def pieces (p : Place) : List Char → List Piece
  | [] => []
  | c :: cs =>
    let q := Piece.first p c cs
    if q.1.fault?.isSome then [q.1] else q.1 :: pieces (p.past q.1.text) q.2
termination_by cs => cs.length
decreasing_by exact Piece.length_first_lt p c cs

@[simp] theorem pieces_nil (p : Place) : pieces p [] = [] := by
  rw [pieces]

theorem pieces_cons (p : Place) (c : Char) (cs : List Char) :
    pieces p (c :: cs) =
      if (Piece.first p c cs).1.fault?.isSome then [(Piece.first p c cs).1]
      else (Piece.first p c cs).1 ::
        pieces (p.past (Piece.first p c cs).1.text) (Piece.first p c cs).2 := by
  rw [pieces]

section
variable {p : Place} {c : Char} {cs : List Char}

theorem pieces_separator (hc : isSeparator c = true) :
    pieces p (c :: cs) = .separator c :: pieces (p.after c) cs := by
  rw [pieces_cons, Piece.first, if_pos hc]
  rfl

theorem pieces_token {kind : Token.Kind} {taken rest : List Char} (hc : isSeparator c = false)
    (hr : Reading.ofText c cs = .token kind taken rest) :
    pieces p (c :: cs) =
      .token ⟨kind, c, String.ofList taken, p⟩ :: pieces (p.past taken) rest := by
  simp [pieces_cons, Piece.first, hc, hr, Piece.fault?, Piece.text]

theorem pieces_failed {cause : Misreading} {taken rest : List Char} (hc : isSeparator c = false)
    (hr : Reading.ofText c cs = .failed cause taken rest) :
    pieces p (c :: cs) = [.failed ⟨cause, p⟩ taken] := by
  simp [pieces_cons, Piece.first, hc, hr, Piece.fault?]

theorem pieces_unknown (hc : isSeparator c = false) (hr : Reading.ofText c cs = .unknown) :
    pieces p (c :: cs) = .skipped ⟨c, p⟩ :: pieces (p.after c) cs := by
  simp [pieces_cons, Piece.first, hc, hr, Piece.fault?, Piece.text]

end

/-- Induction along the pieces of a text: what holds of the text behind a piece that can be read
carries over to the text with the piece in front. -/
@[elab_as_elim] theorem pieces_induction {motive : Place → List Char → Prop}
    (nil : ∀ p, motive p [])
    (separator : ∀ p c cs, isSeparator c = true → motive (p.after c) cs → motive p (c :: cs))
    (token : ∀ p c cs kind taken rest, isSeparator c = false →
      Reading.ofText c cs = .token kind taken rest → motive (p.past taken) rest →
      motive p (c :: cs))
    (failed : ∀ p c cs cause taken rest, isSeparator c = false →
      Reading.ofText c cs = .failed cause taken rest → motive p (c :: cs))
    (unknown : ∀ p c cs, isSeparator c = false → Reading.ofText c cs = .unknown →
      motive (p.after c) cs → motive p (c :: cs))
    (p : Place) (cs : List Char) : motive p cs := by
  induction h : cs.length using Nat.strongRecOn generalizing p cs with
  | ind n ih =>
      subst h
      cases cs with
      | nil => exact nil p
      | cons c cs =>
          cases hc : isSeparator c with
          | true => exact separator p c cs hc (ih _ (Nat.lt_succ_self _) _ _ rfl)
          | false =>
              cases hr : Reading.ofText c cs with
              | token kind taken rest =>
                  have hlt := Piece.length_first_lt p c cs
                  rw [Piece.first, hc, hr] at hlt
                  exact token p c cs kind taken rest hc hr (ih _ hlt _ _ rfl)
              | failed cause taken rest => exact failed p c cs cause taken rest hc hr
              | unknown => exact unknown p c cs hc hr (ih _ (Nat.lt_succ_self _) _ _ rfl)

/-- A token of a text was read from its operator on. -/
theorem exists_reading_of_mem_pieces {p : Place} {cs : List Char} {t : Token}
    (h : .token t ∈ pieces p cs) : isSeparator t.operator = false ∧
      ∃ rest taken behind, Reading.ofText t.operator rest = .token t.kind taken behind ∧
        t.text = String.ofList taken := by
  induction p, cs using pieces_induction with
  | nil p => simp at h
  | separator p c cs hc ih =>
      rw [pieces_separator hc, List.mem_cons] at h
      exact ih (h.resolve_left (by simp))
  | token p c cs kind taken rest hc hr ih =>
      rw [pieces_token hc hr, List.mem_cons] at h
      rcases h with h | h
      · cases h
        exact ⟨hc, cs, taken, rest, hr, rfl⟩
      · exact ih h
  | failed p c cs cause taken rest hc hr =>
      rw [pieces_failed hc hr, List.mem_singleton] at h
      cases h
  | unknown p c cs hc hr ih =>
      rw [pieces_unknown hc hr, List.mem_cons] at h
      exact ih (h.resolve_left (by simp))

end MusicMacro
