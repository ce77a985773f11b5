import MusicMacro.Proofs.Token.Boundary
import MusicMacro.Proofs.Token.Order

/-!
Texts cut where one of their tokens begins. What stands before the cut is read as it is read in the
whole text.
-/

namespace MusicMacro

theorem beginsApart_of_ofChar? {c : Char} {op : Operator} (h : Operator.ofChar? c = some op)
    (cs : List Char) : BeginsApart (c :: cs) := by
  have hletter := Operator.mem_letters_of_ofChar? h
  intro d hd
  obtain rfl : c = d := Option.some.inj hd
  refine ⟨?_, ?_⟩
  · rw [Grammar.isDigit_eq]
    exact decide_eq_false (Grammar.not_mem_digits_of_mem_letters hletter)
  · intro hmem
    rcases List.mem_cons.1 hmem with rfl | hsign
    · exact Grammar.dot_not_mem_letters _ hletter
    · exact Grammar.not_mem_signs_of_mem_letters hletter hsign

/-- No token reaches over the place where another one begins, whatever follows there. -/
theorem Reading.beginsApart_of_ne_unknown {c : Char} {cs : List Char} (h : ofText c cs ≠ .unknown)
    (bs : List Char) : BeginsApart (c :: bs) := by
  cases hop : Operator.ofChar? c with
  | none =>
      unfold ofText at h
      rw [hop] at h
      exact absurd rfl h
  | some op => exact beginsApart_of_ofChar? hop bs

namespace Piece

/-- Where a token begins, whether it can be read or not. The other pieces are no tokens. -/
def origin? : Piece → Option Place
  | .token t => some t.place
  | .failed fault _ => some fault.place
  | _ => none

theorem place?_of_origin? {r : Place} {q : Piece} (h : q.origin? = some r) : q.place? = some r := by
  cases q with
  | token | failed => exact h
  | separator | skipped => cases h

/-- An operator stands where a token begins, so no other token reaches over that place. -/
theorem beginsApart_of_origin? {p r : Place} {c : Char} {cs : List Char}
    (h : (first p c cs).1.origin? = some r) : BeginsApart (c :: cs) := by
  have hne : Reading.ofText c cs ≠ .unknown := by
    intro hr
    obtain ⟨_, hf⟩ | ⟨_, _, _, _, hr', _⟩ | ⟨_, _, _, _, hr', _⟩ | ⟨_, _, hf⟩ := first_cases p c cs
    · rw [hf] at h
      cases h
    · rw [hr] at hr'
      cases hr'
    · rw [hr] at hr'
      cases hr'
    · rw [hf] at h
      cases h
  exact Reading.beginsApart_of_ne_unknown hne cs

end Piece

theorem first_of_pieces {p : Place} {c : Char} {cs : List Char} {q : Piece} {after : List Piece}
    (h : pieces p (c :: cs) = q :: after) : (Piece.first p c cs).1 = q := by
  rw [pieces_cons] at h
  split at h
  · exact (List.cons.inj h).1
  · exact (List.cons.inj h).1

/-- The pieces of a text make up its front. -/
theorem texts_pieces_prefix (p : Place) (cs : List Char) : Piece.texts (pieces p cs) <+: cs := by
  fun_induction pieces p cs with
  | case1 p => exact List.prefix_refl []
  | case2 p c cs q hq =>
      rw [Piece.texts_cons, Piece.texts_nil, List.append_nil, ← Piece.text_first_append p c cs]
      exact List.prefix_append _ _
  | case3 p c cs q hq ih =>
      rw [Piece.texts_cons, ← Piece.text_first_append p c cs]
      exact (List.prefix_append_right_inj _).2 ih

section
variable {p r : Place} {cs : List Char} {before after : List Piece} {q : Piece}

/-- A text that is cut where a token begins keeps its pieces up to there. -/
theorem pieces_cut (h : pieces p cs = before ++ q :: after) (hq : q.origin? = some r) :
    pieces p (Piece.texts before) = before := by
  obtain ⟨c, rest, hcs, hpieces⟩ := pieces_behind h
  have hfirst := first_of_pieces hpieces
  rw [← hfirst] at hq
  have happ := pieces_append (Piece.beginsApart_of_origin? hq) p (Piece.texts before)
  rw [← hcs, h, hpieces] at happ
  split at happ
  · -- A fault before the cut would end the pieces there, but they reach over the cut.
    have hprefix := texts_pieces_prefix p (Piece.texts before)
    rw [List.append_nil] at happ
    rw [← happ, Piece.texts_append, Piece.texts_cons, ← hfirst] at hprefix
    have hlength := hprefix.length_le
    have hpos :=
      List.length_pos_iff.2 (Piece.text_first_ne_nil (p.past (Piece.texts before)) c rest)
    simp only [List.length_append] at hlength
    omega
  · exact (List.append_cancel_right happ).symm

theorem fault?_eq_none_of_pieces (h : pieces p cs = before ++ q :: after) :
    ∀ b ∈ before, b.fault? = none := by
  intro b hb
  obtain ⟨early, late, rfl⟩ := List.append_of_mem hb
  rw [List.append_assoc, List.cons_append] at h
  cases hfault : b.fault? with
  | none => rfl
  | some fault =>
      have hnil := pieces_end_at_fault h (by rw [hfault]; rfl)
      exact absurd hnil (by simp)

end

namespace TokenStream

/-- The text before a place where one of its tokens begins: it has the tokens before that one, and
no fault. -/
structure CutBefore (source : String) (p : Place) (tokens : List Token) (front : List Char) :
    Prop where
  isFront : front <+: source.toList
  place : Place.behind front = p
  tokens : (ofText (String.ofList front)).transcript.tokens = tokens
  fault : (ofText (String.ofList front)).transcript.fault = none

theorem cutBefore_of_pieces {source : String} {p : Place} {before after : List Piece} {q : Piece}
    (h : pieces {} source.toList = before ++ q :: after) (hq : q.origin? = some p) :
    CutBefore source p (before.filterMap Piece.token?) (Piece.texts before) := by
  obtain ⟨c, rest, hsource, -⟩ := pieces_behind h
  have htranscript :
      (ofText (String.ofList (Piece.texts before))).transcript = .ofPieces before := by
    rw [transcript_ofText, String.toList_ofList, pieces_cut h hq]
  refine ⟨⟨_, hsource.symm⟩, ?_, ?_, ?_⟩
  · rw [(pieces_standsAt h).place_eq (Piece.place?_of_origin? hq)]
    exact (Place.past_behind [] _).symm
  · rw [htranscript]
    rfl
  · rw [htranscript, Transcript.fault_ofPieces_eq_none, List.any_eq_false]
    intro b hb
    rw [fault?_eq_none_of_pieces h b hb]
    exact Bool.false_ne_true

theorem exists_cutBefore_token {source : String} {before after : List Token} {t : Token}
    (h : (ofText source).transcript.tokens = before ++ t :: after) :
    ∃ front, CutBefore source t.place before front := by
  rw [transcript_ofText] at h
  obtain ⟨early, late, hpieces, rfl, hlate⟩ := List.filterMap_eq_append_iff.1 h
  obtain ⟨mid, q, rest, rfl, hmid, hq, -⟩ := List.filterMap_eq_cons_iff.1 hlate
  have horigin : q.origin? = some t.place := by
    cases q <;> cases hq
    rfl
  rw [← List.append_assoc] at hpieces
  have hcut := cutBefore_of_pieces hpieces horigin
  rw [List.filterMap_append, List.filterMap_eq_nil_iff.2 hmid, List.append_nil] at hcut
  exact ⟨_, hcut⟩

theorem exists_cutBefore_fault {source : String} {fault : LexicalFault}
    (h : (ofText source).transcript.fault = some fault) :
    ∃ front, CutBefore source fault.place (ofText source).transcript.tokens front := by
  rw [transcript_ofText] at h ⊢
  obtain ⟨faults, hfaults⟩ := List.head?_eq_some_iff.1 h
  obtain ⟨before, q, after, hpieces, -, hq, -⟩ := List.filterMap_eq_cons_iff.1 hfaults
  obtain rfl := pieces_end_at_fault hpieces (by rw [hq]; rfl)
  cases q with
  | failed fault' taken =>
      obtain rfl : fault' = fault := Option.some.inj hq
      have hcut := cutBefore_of_pieces hpieces rfl
      refine ⟨Piece.texts before, ?_⟩
      have htokens : (before ++ [Piece.failed fault' taken]).filterMap Piece.token? =
          before.filterMap Piece.token? := by
        rw [List.filterMap_append, List.filterMap_cons_none rfl, List.filterMap_nil,
          List.append_nil]
      rw [hpieces, Transcript.ofPieces, htokens]
      exact hcut
  | _ => cases hq

end TokenStream

end MusicMacro
