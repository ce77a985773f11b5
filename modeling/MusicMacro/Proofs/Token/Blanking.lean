import MusicMacro.Proofs.Token.Spacing

/-!
Texts in which skipped characters are replaced by spaces. A space keeps the tokens around it as far
apart as the character did, and moves none of them, so reading finds the same without skipping.
-/

namespace MusicMacro

/-- A text with a space for each character at one of the places. -/
def blanked (places : List Place) (p : Place) : List Char → List Char
  | [] => []
  | c :: cs => (if p ∈ places then ' ' else c) :: blanked places (p.after c) cs

/-- Where the characters stand that are skipped in a text. -/
def skippedPlaces (p : Place) (cs : List Char) : List Place :=
  (Transcript.ofPieces (pieces p cs)).skipped.map Skipped.place

/-- The places of all characters that are skipped in a text, and others only before it. -/
structure Marks (places : List Place) (p : Place) (cs : List Char) : Prop where
  all : ∀ q ∈ skippedPlaces p cs, q ∈ places
  only : ∀ q ∈ places, q.Before p ∨ q ∈ skippedPlaces p cs

section
variable {places : List Place} {p : Place} {c : Char} {cs taken rest : List Char}

theorem not_before_of_mem_skippedPlaces {q : Place} (h : q ∈ skippedPlaces p cs) :
    ¬ q.Before p := by
  obtain ⟨s, hs, rfl⟩ := List.mem_map.1 h
  exact not_before_of_mem_skipped hs

/-- Characters at none of the places stay. -/
theorem blanked_append (h : ∀ q ∈ places, q.Before p ∨ ¬ q.Before (p.past taken))
    (rest : List Char) :
    blanked places p (taken ++ rest) = taken ++ blanked places (p.past taken) rest := by
  induction taken generalizing p with
  | nil => rfl
  | cons c taken ih =>
      have hp : p ∉ places := by
        intro hp
        rcases h p hp with hbefore | hnot
        · exact Place.not_before_self p hbefore
        · exact hnot (Place.before_past p (List.cons_ne_nil c taken))
      have hlater : ∀ q ∈ places, q.Before (p.after c) ∨ ¬ q.Before ((p.after c).past taken) := by
        intro q hq
        exact (h q hq).imp_left fun hbefore => hbefore.trans (Place.before_after p c)
      rw [List.cons_append, blanked, if_neg hp, ih hlater]
      rfl

/-- Behind a piece that is not skipped the places mark the text that is left, and the piece
stays. -/
theorem Marks.behind (h : Marks places p (taken ++ rest))
    (hsame : skippedPlaces p (taken ++ rest) = skippedPlaces (p.past taken) rest) :
    Marks places (p.past taken) rest ∧
      blanked places p (taken ++ rest) = taken ++ blanked places (p.past taken) rest := by
  obtain ⟨hall, honly⟩ := h
  rw [hsame] at hall honly
  refine ⟨⟨hall, ?_⟩, blanked_append ?_ rest⟩
  · intro q hq
    exact (honly q hq).imp_left fun hbefore => hbefore.of_not_before (Place.not_past_before p taken)
  · intro q hq
    exact (honly q hq).imp_right not_before_of_mem_skippedPlaces

theorem Marks.behind_skipped (h : Marks places p (c :: cs))
    (hskipped : skippedPlaces p (c :: cs) = p :: skippedPlaces (p.after c) cs) :
    Marks places (p.after c) cs ∧
      blanked places p (c :: cs) = ' ' :: blanked places (p.after c) cs := by
  obtain ⟨hall, honly⟩ := h
  rw [hskipped] at hall honly
  obtain ⟨hp, hall⟩ := List.forall_mem_cons.1 hall
  refine ⟨⟨hall, ?_⟩, by rw [blanked, if_pos hp]⟩
  intro q hq
  rcases honly q hq with hbefore | hmem
  · exact .inl (hbefore.trans (Place.before_after p c))
  · rcases List.mem_cons.1 hmem with rfl | hmem
    · exact .inl (Place.before_after q c)
    · exact .inr hmem

theorem Place.after_space (hc : isSeparator c = false) (p : Place) : p.after ' ' = p.after c := by
  have hfeed : c ≠ '\n' := by
    rintro rfl
    cases hc
  rw [Place.after, Place.after, if_neg (by decide), if_neg hfeed]

/-- A text whose skipped characters are blanked has the same tokens and the same fault, and no
character is skipped in it. -/
theorem Marks.ofPieces_blanked (h : Marks places p cs) :
    BeginsApart (blanked places p cs) ∧
      Transcript.ofPieces (pieces p (blanked places p cs)) =
        { Transcript.ofPieces (pieces p cs) with skipped := [] } := by
  induction p, cs using pieces_induction with
  | nil p =>
      rw [blanked, pieces_nil]
      exact ⟨beginsApart_nil, rfl⟩
  | separator p c cs hc ih =>
      have hsame : skippedPlaces p ([c] ++ cs) = skippedPlaces (p.past [c]) cs := by
        rw [skippedPlaces, List.singleton_append, pieces_separator hc]
        rfl
      obtain ⟨hlater, htext⟩ := Marks.behind h hsame
      rw [List.singleton_append, List.singleton_append] at htext
      rw [htext, pieces_separator hc, pieces_separator hc]
      exact ⟨beginsApart_of_isSeparator hc _, (ih hlater).2⟩
  | token p c cs kind taken rest hc hr ih =>
      have hknown : Reading.ofText c cs ≠ .unknown := by simp [hr]
      have hcs := (Reading.eq_append_of_token hr).1
      have hsame : skippedPlaces p (taken ++ rest) = skippedPlaces (p.past taken) rest := by
        rw [skippedPlaces, ← hcs, pieces_token hc hr]
        rfl
      rw [hcs] at h
      obtain ⟨hlater, htext⟩ := h.behind hsame
      obtain ⟨hapart, hpieces⟩ := ih hlater
      obtain ⟨owned, rfl, howned⟩ := Reading.ofText_taken_append hr hapart
      rw [← hcs, List.cons_append] at htext
      rw [htext, pieces_token hc howned, pieces_token hc hr, Transcript.ofPieces_token, hpieces]
      exact ⟨Reading.beginsApart_of_ne_unknown hknown _, rfl⟩
  | failed p c cs cause taken rest hc hr =>
      have hknown : Reading.ofText c cs ≠ .unknown := by simp [hr]
      have hnone : skippedPlaces p (c :: cs) = [] := by
        rw [skippedPlaces, pieces_failed hc hr]
        rfl
      have hbefore : ∀ q ∈ places, q.Before p ∨ ¬ q.Before (p.past (c :: cs)) := by
        intro q hq
        refine .inl ((h.only q hq).resolve_right ?_)
        rw [hnone]
        exact List.not_mem_nil
      have htext := blanked_append hbefore []
      rw [blanked, List.append_nil] at htext
      rw [htext, pieces_failed hc hr]
      exact ⟨Reading.beginsApart_of_ne_unknown hknown _, rfl⟩
  | unknown p c cs hc hr ih =>
      have hskipped : skippedPlaces p (c :: cs) = p :: skippedPlaces (p.after c) cs := by
        rw [skippedPlaces, pieces_unknown hc hr]
        rfl
      obtain ⟨hlater, htext⟩ := h.behind_skipped hskipped
      have hspace : isSeparator ' ' = true := by decide
      rw [htext, pieces_separator hspace, Place.after_space hc, pieces_unknown hc hr]
      exact ⟨beginsApart_of_isSeparator hspace _, (ih hlater).2⟩

theorem marks_skippedPlaces (p : Place) (cs : List Char) : Marks (skippedPlaces p cs) p cs where
  all _ hq := hq
  only _ hq := .inr hq

end

end MusicMacro
