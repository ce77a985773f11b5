import Mathlib.Data.List.Pairwise
import Mathlib.Tactic.ByContra
import MusicMacro.Proofs.Text.Place
import MusicMacro.Proofs.Token.Transcript

/-!
The order of skipped characters and tokens. What a stream has skipped when it answers stands before
the token that it answers with, and what it skips later does not.
-/

namespace MusicMacro

/-- Where the token that was found begins. -/
def Find.place? : Find → Option Place
  | .token t => some t.place
  | .failed fault => some fault.place
  | .ended => none

/-- The characters skipped before a place, or all of them if there is none. -/
def Transcript.skippedBefore (x : Transcript) : Option Place → List Skipped
  | some p => x.skipped.filter (·.place.Before p)
  | none => x.skipped

/-- A search that begins at a cursor and finds a token at a place: what it skips lies before the
place, and it stops behind it. -/
structure Search.Ordered (s : Search) (k : Cursor) (p : Place) : Prop where
  begins : ¬ p.Before k.place
  skipped : ∀ c ∈ s.skipped, c.place.Before p
  stops : p.Before s.cursor.place

namespace Search

theorem ordered_taken (k : Cursor) (find : Find) {taken : List Char} (h : taken ≠ [])
    (rest : List Char) : Ordered ⟨[], find, k.past taken, rest⟩ k k.place where
  begins := Place.not_before_self _
  skipped := by
    intro c hc
    cases hc
  stops := by
    rw [Cursor.place_past]
    exact Place.before_past k.place h

theorem Ordered.cons {k : Cursor} {c : Char} {p : Place} {s : Search}
    (h : s.Ordered (k.after c) p) (skipped : List Skipped)
    (hplace : ∀ x ∈ skipped, x.place = k.place) :
    Ordered { s with skipped := skipped ++ s.skipped } k p := by
  have hafter : k.place.Before (k.after c).place := Place.before_after k.place c
  refine ⟨?_, ?_, h.stops⟩
  · intro hp
    exact h.begins (hp.trans hafter)
  · intro x hx
    rcases List.mem_append.1 hx with hx | hx
    · rw [hplace x hx]
      exact hafter.of_not_before h.begins
    · exact h.skipped x hx

theorem run_ordered {k : Cursor} {cs : List Char} {p : Place}
    (h : (run k cs).find.place? = some p) : (run k cs).Ordered k p := by
  induction cs generalizing k with
  | nil => cases h
  | cons c cs ih =>
      cases hc : isSeparator c with
      | true =>
          rw [run_separator hc] at h ⊢
          exact (ih h).cons [] (by simp)
      | false =>
          cases hr : Reading.ofText c cs with
          | token kind taken rest =>
              rw [run_token hc hr] at h ⊢
              obtain rfl : k.place = p := Option.some.inj h
              exact ordered_taken k _ (Reading.eq_append_of_token hr).2 rest
          | failed cause taken rest =>
              rw [run_failed hc hr] at h ⊢
              obtain rfl : k.place = p := Option.some.inj h
              exact ordered_taken k _ (Reading.eq_append_of_failed hr).2 rest
          | unknown =>
              rw [run_unknown hc hr] at h ⊢
              exact (ih h).cons [⟨c, k.place⟩] (by simp)

end Search

namespace Piece

/-- Where a piece stands. Of separators no place is kept. -/
def place? : Piece → Option Place
  | .separator _ => none
  | .skipped s => some s.place
  | .token t => some t.place
  | .failed fault _ => some fault.place

theorem StandsAt.place_eq {p r : Place} {q : Piece} (h : q.StandsAt p) (hq : q.place? = some r) :
    r = p := by
  cases q with
  | separator c => cases hq
  | skipped s => exact (Option.some.inj hq).symm.trans h
  | token t => exact (Option.some.inj hq).symm.trans h.1
  | failed fault taken => exact (Option.some.inj hq).symm.trans h.1

end Piece

section
variable {p r : Place} {cs : List Char} {q q' : Piece}

/-- No piece of a text begins before the text does. -/
theorem not_before_of_mem_pieces (hq : q ∈ pieces p cs) (hr : q.place? = some r) :
    ¬ r.Before p := by
  obtain ⟨before, after, hpieces⟩ := List.append_of_mem hq
  rw [(pieces_standsAt hpieces).place_eq hr]
  exact Place.not_past_before p _

theorem not_before_of_mem_skipped {s : Skipped}
    (h : s ∈ (pieces p cs).filterMap Piece.skipped?) : ¬ s.place.Before p := by
  obtain ⟨q, hq, hs⟩ := List.mem_filterMap.1 h
  refine not_before_of_mem_pieces hq ?_
  cases q <;> cases hs
  rfl

theorem pieces_ordered (p : Place) (cs : List Char) :
    (pieces p cs).Pairwise fun q r =>
      ∀ a, q.place? = some a → ∀ b, r.place? = some b → a.Before b := by
  fun_induction pieces p cs with
  | case1 p => exact .nil
  | case2 p c cs q hq => exact List.pairwise_singleton _ _
  | case3 p c cs q hq ih =>
      refine List.pairwise_cons.2 ⟨?_, ih⟩
      intro r hr a ha b hb
      rw [(first_standsAt p c cs).place_eq ha]
      have hne := Piece.text_first_ne_nil p c cs
      exact (Place.before_past p hne).of_not_before (not_before_of_mem_pieces hr hb)

/-- At most one piece stands at a place. -/
theorem piece_unique (hq : q ∈ pieces p cs) (hq' : q' ∈ pieces p cs) (hr : q.place? = some r)
    (hr' : q'.place? = some r) : q = q' := by
  by_contra hne
  have hapart : (pieces p cs).Pairwise fun q q' => ∀ a, q.place? = some a → q'.place? ≠ some a :=
    (pieces_ordered p cs).imp fun h a ha hb => Place.not_before_self a (h a ha a hb)
  have : Std.Symm fun q q' : Piece => ∀ a, q.place? = some a → q'.place? ≠ some a :=
    ⟨fun q q' h a ha hb => h a hb ha⟩
  exact hapart.forall hq hq' hne r hr hr'

end

namespace TokenStream

/-- What was skipped so far stands before the place that the reading has reached. -/
def Ordered (x : TokenStream) : Prop := ∀ s ∈ x.skipped, s.place.Before x.cursor.place

theorem ordered_ofText (s : String) : (ofText s).Ordered := by
  intro c hc
  cases hc

section
variable {x : TokenStream} {p : Place}

theorem search_ordered (hf : x.failed = false) (hp : x.next.1.place? = some p) :
    x.search.Ordered x.cursor p := by
  rw [search_eq_run hf]
  apply Search.run_ordered
  rw [← search_eq_run hf]
  exact hp

theorem Ordered.before_next (h : x.Ordered) (hf : x.failed = false)
    (hp : x.next.1.place? = some p) : ∀ s ∈ x.next.2.skipped, s.place.Before p := by
  have hsearch := search_ordered hf hp
  intro s hs
  rcases List.mem_append.1 hs with hs | hs
  · exact (h s hs).of_not_before hsearch.begins
  · exact hsearch.skipped s hs

theorem Ordered.next (h : x.Ordered) (hf : x.failed = false) (hp : x.next.1.place? = some p) :
    x.next.2.Ordered := by
  intro s hs
  exact (h.before_next hf hp s hs).trans (search_ordered hf hp).stops

theorem failed_next {t : Token} (hf : x.failed = false) (h : x.next.1 = .token t) :
    x.next.2.failed = false := by
  have hfind : x.search.find = .token t := h
  simp [TokenStream.next, behind, hf, hfind, Find.isFailed]

/-- A stream that answers has skipped just the characters before the token that it answers with. -/
theorem Ordered.skipped_next (h : x.Ordered) (hf : x.failed = false) :
    x.next.2.skipped = x.transcript.skippedBefore x.next.1.place? := by
  cases hfind : x.next.1 with
  | ended =>
      rw [transcript_of_ended hfind]
      rfl
  | failed fault =>
      have hbefore := h.before_next hf (congrArg Find.place? hfind)
      rw [transcript_of_failed hfind]
      exact (List.filter_eq_self.2 fun s hs => decide_eq_true (hbefore s hs)).symm
  | token t =>
      have hplace : x.next.1.place? = some t.place := congrArg Find.place? hfind
      have hbefore := h.before_next hf hplace
      have hcursor := (search_ordered hf hplace).stops
      rw [transcript_of_token hfind, transcript_eq (failed_next hf hfind)]
      simp only [Transcript.skippedBefore, Find.place?, List.filter_append]
      rw [List.filter_eq_self.2 fun s hs => decide_eq_true (hbefore s hs),
        List.filter_eq_nil_iff.2, List.append_nil]
      intro s hs hbefore
      exact not_before_of_mem_skipped hs ((of_decide_eq_true hbefore).trans hcursor)

end

section
variable {source : String} {t : Token} {fault : LexicalFault}

theorem mem_pieces_of_token (h : t ∈ (ofText source).transcript.tokens) :
    .token t ∈ pieces {} source.toList := by
  rw [transcript_ofText] at h
  obtain ⟨q, hq, ht⟩ := List.mem_filterMap.1 h
  cases q <;> cases ht
  exact hq

theorem mem_pieces_of_skipped {s : Skipped} (h : s ∈ (ofText source).transcript.skipped) :
    .skipped s ∈ pieces {} source.toList := by
  rw [transcript_ofText] at h
  obtain ⟨q, hq, hs⟩ := List.mem_filterMap.1 h
  cases q <;> cases hs
  exact hq

theorem exists_mem_pieces_of_fault (h : (ofText source).transcript.fault = some fault) :
    ∃ taken, .failed fault taken ∈ pieces {} source.toList := by
  rw [transcript_ofText] at h
  obtain ⟨q, hq, hf⟩ := List.mem_filterMap.1 (List.mem_of_mem_head? h)
  cases q with
  | failed fault' taken =>
      obtain rfl : fault' = fault := Option.some.inj hf
      exact ⟨taken, hq⟩
  | _ => cases hf

theorem tokens_ordered (source : String) :
    (ofText source).transcript.tokens.Pairwise fun t u => t.place.Before u.place := by
  rw [transcript_ofText, Transcript.ofPieces, List.pairwise_filterMap]
  refine (pieces_ordered {} source.toList).imp ?_
  intro q r h t ht u hu
  cases q <;> cases ht
  cases r <;> cases hu
  exact h _ rfl _ rfl

/-- The token that cannot be read stands behind all others. -/
theorem before_fault (ht : t ∈ (ofText source).transcript.tokens)
    (hf : (ofText source).transcript.fault = some fault) : t.place.Before fault.place := by
  obtain ⟨taken, hfailed⟩ := exists_mem_pieces_of_fault hf
  have htoken := mem_pieces_of_token ht
  have hord := pieces_ordered {} source.toList
  obtain ⟨before, after, hpieces⟩ := List.append_of_mem hfailed
  obtain rfl := pieces_end_at_fault hpieces rfl
  rw [hpieces, List.mem_append, List.mem_singleton] at htoken
  rw [hpieces, List.pairwise_append] at hord
  have hbefore := htoken.resolve_right (by simp)
  exact hord.2.2 _ hbefore _ (List.mem_singleton_self _) _ rfl _ rfl

end

end TokenStream

end MusicMacro
