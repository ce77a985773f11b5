import MusicMacro.Proofs.Text.Place
import MusicMacro.Proofs.Token.Grammar.Reading

/-!
Texts behind texts. No token reaches over a boundary behind which no sign, digit or dot stands, so
the tokens of the second text follow those of the first, at places that are moved behind it.
-/

namespace MusicMacro

/-- Nothing that could lengthen a token stands at the front of a text. -/
def BeginsApart (cs : List Char) : Prop :=
  ∀ c, cs.head? = some c → c.isDigit = false ∧ c ∉ ['.', '#', '+', 'b', '-']

section
variable {α : Type} {p : α → Bool} {bs : List α}

theorem takeWhile_append_of_head (h : ∀ b, bs.head? = some b → p b = false) (as : List α) :
    (as ++ bs).takeWhile p = as.takeWhile p := by
  induction as with
  | nil =>
      cases bs with
      | nil => rfl
      | cons b bs => simp [h b rfl]
  | cons a as ih =>
      rw [List.cons_append, List.takeWhile_cons, List.takeWhile_cons, ih]

theorem dropWhile_append_of_head (h : ∀ b, bs.head? = some b → p b = false) (as : List α) :
    (as ++ bs).dropWhile p = as.dropWhile p ++ bs := by
  induction as with
  | nil =>
      cases bs with
      | nil => rfl
      | cons b bs => simp [h b rfl]
  | cons a as ih =>
      rw [List.cons_append, List.dropWhile_cons, List.dropWhile_cons, ih]
      split
      · rfl
      · rfl

end

theorem BeginsApart.isSign_eq_false {bs : List Char} (h : BeginsApart bs) (b : Char)
    (hb : bs.head? = some b) : Accidental.isSign b = false := by
  rw [Grammar.isSign_eq]
  apply decide_eq_false
  intro hsign
  exact (h b hb).2 (List.mem_cons_of_mem _ hsign)

/-- No separator is taken by a token behind its operator. -/
theorem Grammar.isSeparator_eq_false :
    ∀ c ∈ '.' :: (signs ++ digits), isSeparator c = false := by
  intro c hc
  fin_cases hc <;> rfl

theorem Operator.isSeparator_eq_false {c : Char} {op : Operator} (h : ofChar? c = some op) :
    isSeparator c = false := by
  have hletter := mem_letters_of_ofChar? h
  cases op <;> fin_cases hletter <;> rfl

theorem beginsApart_of_isSeparator {c : Char} (h : isSeparator c = true) (cs : List Char) :
    BeginsApart (c :: cs) := by
  have hnot : c ∉ '.' :: (Grammar.signs ++ Grammar.digits) := by
    intro hmem
    rw [Grammar.isSeparator_eq_false c hmem] at h
    cases h
  intro d hd
  obtain rfl : c = d := Option.some.inj hd
  rw [List.mem_cons, List.mem_append, not_or, not_or] at hnot
  obtain ⟨hdot, hsign, hdigit⟩ := hnot
  constructor
  · rw [Grammar.isDigit_eq]
    exact decide_eq_false hdigit
  · intro hmem
    exact (List.mem_cons.1 hmem).elim hdot hsign

/-- A boundary ends each of the runs behind an operator, if they reach it at all. -/
theorem Operator.parts_append_apart {bs : List Char} (hb : BeginsApart bs) (op : Operator)
    (cs : List Char) :
    op.parts (cs ++ bs) = { op.parts cs with rest := (op.parts cs).rest ++ bs } := by
  have hsign : ∀ b, bs.head? = some b → (op.takesSigns && Accidental.isSign b) = false := by
    intro b hhead
    rw [hb.isSign_eq_false b hhead, Bool.and_false]
  have hdigit : ∀ b, bs.head? = some b → (op.takesDigits && b.isDigit) = false := by
    intro b hhead
    rw [(hb b hhead).1, Bool.and_false]
  have hdot : ∀ b, bs.head? = some b → (op.takesDots && b == '.') = false := by
    intro b hhead
    have hne : b ≠ '.' := fun heq => (hb b hhead).2 (heq ▸ List.mem_cons_self)
    rw [beq_eq_false_iff_ne.2 hne, Bool.and_false]
  simp only [parts, takeWhile_append_of_head hsign, dropWhile_append_of_head hsign,
    takeWhile_append_of_head hdigit, dropWhile_append_of_head hdigit,
    takeWhile_append_of_head hdot, dropWhile_append_of_head hdot]

namespace Reading

/-- A reading with more text behind what it leaves. -/
def append (bs : List Char) : Reading → Reading
  | .token kind taken rest => .token kind taken (rest ++ bs)
  | .failed cause taken rest => .failed cause taken (rest ++ bs)
  | .unknown => .unknown

theorem ofText_append {bs : List Char} (hb : BeginsApart bs) (c : Char) (cs : List Char) :
    ofText c (cs ++ bs) = (ofText c cs).append bs := by
  unfold ofText
  cases hop : Operator.ofChar? c with
  | none => rfl
  | some op =>
      simp only [op.parts_append_apart hb]
      cases harg : Token.argument (op.parts cs).digits with
      | error cause => simp [append]
      | ok n =>
          simp only [Operator.Parts.accidental, Operator.Parts.dotCount]
          split
          · rfl
          · split
            · rfl
            · simp [append]

end Reading

namespace Piece

theorem first_append {bs : List Char} (hb : BeginsApart bs) (p : Place) (c : Char)
    (cs : List Char) :
    first p c (cs ++ bs) = ((first p c cs).1, (first p c cs).2 ++ bs) := by
  unfold first
  rw [Reading.ofText_append hb]
  cases isSeparator c with
  | true => rfl
  | false => cases Reading.ofText c cs <;> rfl

end Piece

/-- The pieces of a text with another behind it: if the first has a token that cannot be read, the
second is not reached, and else it is read from where the first ends. -/
theorem pieces_append {bs : List Char} (hb : BeginsApart bs) (p : Place) (cs : List Char) :
    pieces p (cs ++ bs) =
      pieces p cs ++ if (pieces p cs).any (·.fault?.isSome) then [] else pieces (p.past cs) bs := by
  fun_induction pieces p cs with
  | case1 p => simp
  | case2 p c cs q hq =>
      rw [List.cons_append, pieces_cons, Piece.first_append hb, if_pos hq]
      simp [q, hq]
  | case3 p c cs q hq ih =>
      have htext : p.past (c :: cs) = (p.past q.1.text).past q.2 := by
        rw [← Place.past_append, Piece.text_first_append]
      rw [List.cons_append, pieces_cons, Piece.first_append hb, if_neg hq, ih, htext]
      simp [q, hq]

def Token.shift (t : Token) (stop : Place) : Token := { t with place := t.place.shift stop }

def Skipped.shift (s : Skipped) (stop : Place) : Skipped := { s with place := s.place.shift stop }

def LexicalFault.shift (f : LexicalFault) (stop : Place) : LexicalFault :=
  { f with place := f.place.shift stop }

/-- A piece of a text that is put behind one that ends at the place. -/
def Piece.shift (stop : Place) : Piece → Piece
  | .separator c => .separator c
  | .skipped s => .skipped (s.shift stop)
  | .token t => .token (t.shift stop)
  | .failed fault taken => .failed (fault.shift stop) taken

namespace Piece

theorem text_shift (stop : Place) (q : Piece) : (q.shift stop).text = q.text := by
  cases q <;> rfl

theorem token?_shift (stop : Place) (q : Piece) :
    (q.shift stop).token? = q.token?.map (·.shift stop) := by
  cases q <;> rfl

theorem skipped?_shift (stop : Place) (q : Piece) :
    (q.shift stop).skipped? = q.skipped?.map (·.shift stop) := by
  cases q <;> rfl

theorem fault?_shift (stop : Place) (q : Piece) :
    (q.shift stop).fault? = q.fault?.map (·.shift stop) := by
  cases q <;> rfl

theorem first_shift (stop p : Place) (c : Char) (cs : List Char) :
    first (p.shift stop) c cs = ((first p c cs).1.shift stop, (first p c cs).2) := by
  unfold first
  cases isSeparator c with
  | true => rfl
  | false => cases Reading.ofText c cs <;> rfl

end Piece

/-- Where a text begins has no part in how it is read. -/
theorem pieces_shift (stop : Place) {p : Place} (hp : 1 ≤ p.line) (cs : List Char) :
    pieces (p.shift stop) cs = (pieces p cs).map (Piece.shift stop) := by
  fun_induction pieces p cs with
  | case1 p => exact pieces_nil _
  | case2 p c cs q hq =>
      rw [pieces_cons, Piece.first_shift, Piece.fault?_shift, Option.isSome_map, if_pos hq]
      rfl
  | case3 p c cs q hq ih =>
      rw [pieces_cons, Piece.first_shift, Piece.fault?_shift, Option.isSome_map, if_neg hq,
        Piece.text_shift, ← Place.past_shift hp, ih (Nat.le_trans hp (p.line_past _))]
      rfl

namespace Transcript

def shift (x : Transcript) (stop : Place) : Transcript where
  tokens := x.tokens.map (·.shift stop)
  skipped := x.skipped.map (·.shift stop)
  fault := x.fault.map (·.shift stop)

/-- A transcript that ends without a fault, followed by another one. -/
def append (x y : Transcript) : Transcript where
  tokens := x.tokens ++ y.tokens
  skipped := x.skipped ++ y.skipped
  fault := y.fault

theorem ofPieces_shift (stop : Place) (ps : List Piece) :
    ofPieces (ps.map (Piece.shift stop)) = (ofPieces ps).shift stop := by
  simp [ofPieces, shift, List.filterMap_map, List.map_filterMap, List.head?_filterMap,
    Function.comp_def, Piece.token?_shift, Piece.skipped?_shift, Piece.fault?_shift]

theorem fault_ofPieces_eq_none {ps : List Piece} :
    (ofPieces ps).fault = none ↔ ps.any (·.fault?.isSome) = false := by
  simp [ofPieces]

theorem ofPieces_append {ps : List Piece} (h : (ofPieces ps).fault = none) (qs : List Piece) :
    ofPieces (ps ++ qs) = (ofPieces ps).append (ofPieces qs) := by
  have hnil : ps.filterMap Piece.fault? = [] := List.head?_eq_none_iff.1 h
  simp [ofPieces, append, hnil]

end Transcript

namespace TokenStream

/-- A token that cannot be read hides all that stands behind the text. -/
theorem transcript_append_of_fault {a b : String} (hb : BeginsApart b.toList)
    (h : (ofText a).transcript.fault ≠ none) :
    (ofText (a ++ b)).transcript = (ofText a).transcript := by
  rw [transcript_ofText] at h
  have hany : (pieces {} a.toList).any (·.fault?.isSome) = true := by
    rw [← Bool.not_eq_false]
    exact fun hfalse => h (Transcript.fault_ofPieces_eq_none.2 hfalse)
  rw [transcript_ofText, transcript_ofText, String.toList_append, pieces_append hb, if_pos hany,
    List.append_nil]

/-- A text without faults is followed by the text behind it, moved to where it stands. -/
theorem transcript_append_of_no_fault {a b : String} (hb : BeginsApart b.toList)
    (h : (ofText a).transcript.fault = none) :
    (ofText (a ++ b)).transcript =
      (ofText a).transcript.append ((ofText b).transcript.shift (Place.behind a.toList)) := by
  rw [transcript_ofText] at h
  have hany := Transcript.fault_ofPieces_eq_none.1 h
  have hstop : ({} : Place).past a.toList = Place.behind a.toList := Place.past_behind [] a.toList
  have hcolumn : 1 ≤ (Place.behind a.toList).column := Nat.le_add_right 1 _
  have hmoved := pieces_shift (p := {}) (Place.behind a.toList) (Nat.le_refl 1) b.toList
  rw [Place.start_shift hcolumn] at hmoved
  rw [transcript_ofText, transcript_ofText, transcript_ofText, String.toList_append,
    pieces_append hb, hany, if_neg Bool.false_ne_true, hstop, hmoved, Transcript.ofPieces_append h,
    Transcript.ofPieces_shift]

/-- A text is read as its two parts are, one after the other, if no token can reach over the
boundary between them. After a token that cannot be read in the first part nothing of the second
counts. Else the tokens, the skipped characters and the fault of the second part follow, each moved
to where the part stands. -/
theorem transcript_append (a b : String) (hb : BeginsApart b.toList) :
    let x := (ofText a).transcript
    let y := (ofText b).transcript
    let stop := Place.behind a.toList
    (x.fault ≠ none → (ofText (a ++ b)).transcript = x) ∧
    (x.fault = none → (ofText (a ++ b)).transcript =
      { tokens := x.tokens ++ y.tokens.map (·.shift stop)
        skipped := x.skipped ++ y.skipped.map (·.shift stop)
        fault := y.fault.map (·.shift stop) }) :=
  ⟨transcript_append_of_fault hb, transcript_append_of_no_fault hb⟩

/-- The second part has a skipped character on its first line and a bare octave on its second. -/
theorem transcript_append_bare_octave :
    BeginsApart "?\n O".toList ∧
    (ofText ("L4\nC" ++ "?\n O")).transcript =
      { tokens := [⟨.length (some 4), 'L', "L4", ⟨1, 1⟩⟩, ⟨.note .c none none 0, 'C', "C", ⟨2, 1⟩⟩]
        skipped := [⟨'?', ⟨2, 2⟩⟩]
        fault := some ⟨.missingArgument 'O', ⟨3, 2⟩⟩ } := by
  have hb : BeginsApart "?\n O".toList := by
    intro c hc
    obtain rfl : '?' = c := Option.some.inj hc
    decide
  refine ⟨hb, ?_⟩
  have hx : (ofText "L4\nC").transcript = ⟨[⟨.length (some 4), 'L', "L4", ⟨1, 1⟩⟩,
      ⟨.note .c none none 0, 'C', "C", ⟨2, 1⟩⟩], [], none⟩ := by decide +kernel
  have hy : (ofText "?\n O").transcript =
      ⟨[], [⟨'?', ⟨1, 1⟩⟩], some ⟨.missingArgument 'O', ⟨2, 2⟩⟩⟩ := by decide +kernel
  rw [(transcript_append "L4\nC" "?\n O" hb).2 (by rw [hx]), hx, hy]
  decide

end TokenStream

end MusicMacro
