import MusicMacro.Proofs.Token.Cut

/-!
Tokens written out again. What a token takes is read as the token also when it stands alone, and no
token can be lengthened by the one behind it, so tokens may stand apart by any separators, or by
none.
-/

namespace MusicMacro

namespace Operator

variable {op : Operator} {cs : List Char} {c : Char}

theorem isSign_eq_false_of_parts (h : c ∈ (op.parts cs).digits ++ (op.parts cs).dots) :
    Accidental.isSign c = false := by
  rcases List.mem_append.1 h with h | h
  · have hdigit := mem_digits_of_parts h
    fin_cases hdigit <;> rfl
  · rw [eq_dot_of_parts h]
    rfl

/-- What an operator owns is divided in the same way when nothing is left behind it. -/
theorem parts_owned (op : Operator) (cs : List Char) :
    op.parts ((op.parts cs).signs ++ ((op.parts cs).digits ++ (op.parts cs).dots)) =
      { op.parts cs with rest := [] } := by
  have hsigns : ∀ c ∈ (op.parts cs).signs, (op.takesSigns && Accidental.isSign c) = true :=
    fun _ => List.mem_takeWhile_imp
  have hdigits : ∀ c ∈ (op.parts cs).digits, (op.takesDigits && c.isDigit) = true :=
    fun _ => List.mem_takeWhile_imp
  have hdots : ∀ c ∈ (op.parts cs).dots, (op.takesDots && c == '.') = true :=
    fun _ => List.mem_takeWhile_imp
  -- Each run ends where the next one begins.
  have hunsigned : ∀ b, ((op.parts cs).digits ++ (op.parts cs).dots).head? = some b →
      (op.takesSigns && Accidental.isSign b) = false := by
    intro b hb
    rw [isSign_eq_false_of_parts (List.mem_of_mem_head? hb), Bool.and_false]
  have hundigited : ∀ b, (op.parts cs).dots.head? = some b →
      (op.takesDigits && b.isDigit) = false := by
    intro b hb
    rw [eq_dot_of_parts (List.mem_of_mem_head? hb)]
    exact Bool.and_false _
  generalize op.parts cs = p at *
  simp only [parts, takeWhile_append_of_head hunsigned, dropWhile_append_of_head hunsigned,
    takeWhile_append_of_head hundigited, dropWhile_append_of_head hundigited,
    List.takeWhile_eq_self_iff.2 hsigns, List.dropWhile_eq_nil_iff.2 hsigns,
    List.takeWhile_eq_self_iff.2 hdigits, List.dropWhile_eq_nil_iff.2 hdigits,
    List.takeWhile_eq_self_iff.2 hdots, List.dropWhile_eq_nil_iff.2 hdots, List.nil_append]

end Operator

namespace Reading

variable {c : Char} {cs taken rest : List Char} {kind : Token.Kind}

/-- What a token takes is read as the token when no text is left behind it. -/
theorem ofText_taken (h : ofText c cs = .token kind taken rest) :
    ∃ owned, taken = c :: owned ∧ ofText c owned = .token kind (c :: owned) [] := by
  unfold ofText at h
  split at h
  next => cases h
  next op hop =>
    dsimp only at h
    split at h
    next => cases h
    next n harg =>
      split at h
      next hkind =>
        cases h
        refine ⟨_, rfl, ?_⟩
        rw [Operator.Parts.accidental, Operator.Parts.dotCount] at hkind
        simp only [ofText, hop, op.parts_owned, harg, Operator.Parts.accidental,
          Operator.Parts.dotCount, hkind]
      next => split at h <;> cases h

/-- What stands behind a token may be changed if the token cannot reach over it. -/
theorem ofText_taken_append (h : ofText c cs = .token kind taken rest) {bs : List Char}
    (hb : BeginsApart bs) :
    ∃ owned, taken = c :: owned ∧ ofText c (owned ++ bs) = .token kind taken bs := by
  obtain ⟨owned, rfl, howned⟩ := ofText_taken h
  refine ⟨owned, rfl, ?_⟩
  rw [ofText_append hb, howned]
  rfl

end Reading

theorem beginsApart_nil : BeginsApart [] := by
  intro c hc
  cases hc

namespace Token

/-- A token whose text is read as the token, with nothing left. -/
structure StandsAlone (t : Token) : Prop where
  operator : isSeparator t.operator = false
  reading : ∃ owned, t.text.toList = t.operator :: owned ∧
    Reading.ofText t.operator owned = .token t.kind (t.operator :: owned) []

/-- What is written of a token, and what it says, wherever it stands. -/
def content (t : Token) : Kind × Char × String := (t.kind, t.operator, t.text)

variable {t : Token} {p : Place} {cs : List Char}

theorem standsAlone_of_mem_pieces (h : .token t ∈ pieces p cs) : t.StandsAlone := by
  obtain ⟨hoperator, rest, taken, behind, hr, htext⟩ := exists_reading_of_mem_pieces h
  obtain ⟨owned, rfl, howned⟩ := Reading.ofText_taken hr
  exact ⟨hoperator, owned, by rw [htext, String.toList_ofList], howned⟩

theorem StandsAlone.beginsApart (h : t.StandsAlone) (cs : List Char) :
    BeginsApart (t.text.toList ++ cs) := by
  obtain ⟨owned, htext, howned⟩ := h.reading
  have hknown : Reading.ofText t.operator owned ≠ .unknown := by simp [howned]
  rw [htext]
  exact Reading.beginsApart_of_ne_unknown hknown _

/-- In front of a text that it cannot reach into, a token is the first piece. -/
theorem StandsAlone.pieces_append (h : t.StandsAlone) (hcs : BeginsApart cs) (p : Place) :
    pieces p (t.text.toList ++ cs) =
      .token { t with place := p } :: pieces (p.past t.text.toList) cs := by
  obtain ⟨owned, htext, howned⟩ := h.reading
  have happ := Reading.ofText_append hcs t.operator owned
  rw [howned] at happ
  have hcontent : String.ofList (t.operator :: owned) = t.text := by
    rw [← htext, String.ofList_toList]
  rw [htext, List.cons_append, pieces_token h.operator happ, hcontent]
  rfl

end Token

/-- Texts one after the other, with a gap before each of them and one behind the last. -/
def spaced (gap : ℕ → String) : List String → String
  | [] => gap 0
  | text :: texts => gap 0 ++ (text ++ spaced (fun i => gap (i + 1)) texts)

/-- A text without its separators and the characters that are skipped in it. -/
def condensed (source : String) : String :=
  String.ofList (Piece.texts ((pieces {} source.toList).filter fun q => q.origin?.isSome))

theorem ofPieces_gap {ws : List Char} (hws : ∀ c ∈ ws, isSeparator c = true) (p : Place)
    (cs : List Char) : Transcript.ofPieces (pieces p (ws ++ cs)) =
      Transcript.ofPieces (pieces (p.past ws) cs) := by
  induction ws generalizing p with
  | nil => rfl
  | cons c ws ih =>
      obtain ⟨hc, hws⟩ := List.forall_mem_cons.1 hws
      rw [List.cons_append, pieces_separator hc, Transcript.ofPieces_separator]
      exact ih hws (p.after c)

theorem beginsApart_gap {ws cs : List Char} (hws : ∀ c ∈ ws, isSeparator c = true)
    (hcs : BeginsApart cs) : BeginsApart (ws ++ cs) := by
  cases ws with
  | nil => exact hcs
  | cons c ws => exact beginsApart_of_isSeparator (hws c List.mem_cons_self) _

section
variable {gap : ℕ → String} {ts : List Token}

theorem beginsApart_spaced (hgap : ∀ i, ∀ c ∈ (gap i).toList, isSeparator c = true)
    (hts : ∀ t ∈ ts, t.StandsAlone) : BeginsApart (spaced gap (ts.map Token.text)).toList := by
  cases ts with
  | nil =>
      rw [List.map_nil, spaced, ← List.append_nil (gap 0).toList]
      exact beginsApart_gap (hgap 0) beginsApart_nil
  | cons t ts =>
      rw [List.map_cons, spaced, String.toList_append, String.toList_append]
      exact beginsApart_gap (hgap 0) ((hts t List.mem_cons_self).beginsApart _)

/-- Tokens with gaps between them are read as these tokens, and nothing else is found. -/
theorem ofPieces_spaced (hgap : ∀ i, ∀ c ∈ (gap i).toList, isSeparator c = true)
    (hts : ∀ t ∈ ts, t.StandsAlone) (p : Place) :
    ∃ again,
      Transcript.ofPieces (pieces p (spaced gap (ts.map Token.text)).toList) = ⟨again, [], none⟩ ∧
      again.map Token.content = ts.map Token.content := by
  induction ts generalizing gap p with
  | nil =>
      refine ⟨[], ?_, rfl⟩
      rw [List.map_nil, spaced, ← List.append_nil (gap 0).toList, ofPieces_gap (hgap 0), pieces_nil]
      rfl
  | cons t ts ih =>
      obtain ⟨ht, hts⟩ := List.forall_mem_cons.1 hts
      have hlater : ∀ i, ∀ c ∈ (gap (i + 1)).toList, isSeparator c = true := fun i => hgap (i + 1)
      have hapart := beginsApart_spaced hlater hts
      obtain ⟨again, hagain, hcontent⟩ :=
        ih hlater hts ((p.past (gap 0).toList).past t.text.toList)
      refine ⟨{ t with place := p.past (gap 0).toList } :: again, ?_, ?_⟩
      · rw [List.map_cons, spaced, String.toList_append, String.toList_append,
          ofPieces_gap (hgap 0), ht.pieces_append hapart, Transcript.ofPieces_token, hagain]
      · rw [List.map_cons, List.map_cons, hcontent]
        rfl

end

section
variable {ts us : List Token}

theorem map_kind_of_content (h : ts.map Token.content = us.map Token.content) :
    ts.map Token.kind = us.map Token.kind := by
  have hkinds := congrArg (List.map Prod.fst) h
  rw [List.map_map, List.map_map] at hkinds
  exact hkinds

theorem map_text_of_content (h : ts.map Token.content = us.map Token.content) :
    ts.map Token.text = us.map Token.text := by
  have htexts := congrArg (List.map fun content => content.2.2) h
  rw [List.map_map, List.map_map] at htexts
  exact htexts

end

/-- The tokens of a text are read again from their texts, whatever the gaps between them. -/
theorem TokenStream.transcript_spaced (source : String) {gap : ℕ → String}
    (hgap : ∀ i, ∀ c ∈ (gap i).toList, isSeparator c = true) :
    let texts := (ofText source).transcript.tokens.map Token.text
    ∃ again, (ofText (spaced gap texts)).transcript = ⟨again, [], none⟩ ∧
      again.map Token.content = (ofText source).transcript.tokens.map Token.content := by
  intro texts
  rw [transcript_ofText (spaced gap texts)]
  refine ofPieces_spaced hgap ?_ {}
  intro t ht
  exact Token.standsAlone_of_mem_pieces (mem_pieces_of_token ht)

theorem texts_filter_origin {ps : List Piece} (h : (Transcript.ofPieces ps).fault = none) :
    Piece.texts (ps.filter fun q => q.origin?.isSome) =
      (spaced (fun _ => "") ((Transcript.ofPieces ps).tokens.map Token.text)).toList := by
  induction ps with
  | nil => rfl
  | cons q ps ih =>
      cases q with
      | separator c => exact ih h
      | skipped s => exact ih h
      | token t =>
          rw [List.filter_cons_of_pos rfl, Piece.texts_cons, ih h, Transcript.ofPieces_token,
            List.map_cons, spaced, String.empty_append, String.toList_append]
          rfl
      | failed fault taken => cases h

theorem condensed_eq {source : String} {tokens : List Token} (h : tokensOf source = .ok tokens) :
    condensed source = spaced (fun _ => "") (tokens.map Token.text) := by
  obtain ⟨hfault, rfl⟩ := tokensOf_eq_ok.1 h
  rw [TokenStream.transcript_ofText] at hfault ⊢
  rw [condensed, texts_filter_origin hfault, String.ofList_toList]

end MusicMacro
