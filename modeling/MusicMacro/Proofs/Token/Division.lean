import MusicMacro.Proofs.Token.Piece

/-!
Reading divides a text. However often the next token was asked for, what was read is a list of
pieces that together are the front of the text, and each piece stands where its place says.
-/

namespace MusicMacro

namespace Place

/-- The place behind a text, counted: a line for each line feed in it, and a column for each
character behind the last of them. -/
def behind (text : List Char) : Place :=
  ⟨1 + text.count '\n', 1 + (text.reverse.takeWhile (· != '\n')).length⟩

theorem behind_append_singleton (text : List Char) (c : Char) :
    behind (text ++ [c]) = (behind text).after c := by
  by_cases hc : c = '\n'
  · subst hc
    simp [behind, after, Nat.add_assoc]
  · simp [behind, after, hc, Nat.add_comm]

theorem past_behind (before text : List Char) :
    (behind before).past text = behind (before ++ text) := by
  induction text generalizing before with
  | nil => rw [past_nil, List.append_nil]
  | cons c text ih =>
      rw [past_cons, ← behind_append_singleton, ih, List.append_assoc, List.singleton_append]

end Place

namespace Cursor

@[simp] theorem past_nil (k : Cursor) : k.past [] = k := rfl

@[simp] theorem past_append (k : Cursor) (as bs : List Char) :
    k.past (as ++ bs) = (k.past as).past bs := List.foldl_append

@[simp] theorem past_singleton (k : Cursor) (c : Char) : k.past [c] = k.after c := rfl

@[simp] theorem place_past (k : Cursor) (cs : List Char) : (k.past cs).place = k.place.past cs := by
  induction cs generalizing k with
  | nil => rfl
  | cons c cs ih => exact ih (k.after c)

theorem offset_past (k : Cursor) (cs : List Char) :
    (k.past cs).offset = k.offset + (String.ofList cs).utf8ByteSize := by
  induction cs generalizing k with
  | nil => rfl
  | cons c cs ih =>
      have h := ih (k.after c)
      rw [String.ofList_cons, String.utf8ByteSize_append, String.utf8ByteSize_singleton,
        ← Nat.add_assoc]
      exact h

end Cursor

namespace Piece

/-- A piece holds at least one character, and its place, if it has one, is the given one. -/
def StandsAt (p : Place) : Piece → Prop
  | .separator c => isSeparator c = true
  | .skipped s => s.place = p
  | .token t => t.place = p ∧ t.text ≠ ""
  | .failed fault taken => fault.place = p ∧ taken ≠ []

end Piece

theorem first_standsAt (p : Place) (c : Char) (cs : List Char) :
    (Piece.first p c cs).1.StandsAt p := by
  have hne := Piece.text_first_ne_nil p c cs
  obtain ⟨hc, h⟩ | ⟨_, kind, taken, rest, _, h⟩ | ⟨_, cause, taken, rest, _, h⟩ | ⟨_, _, h⟩ :=
    Piece.first_cases p c cs
  · rw [h]
    exact hc
  · rw [h] at hne ⊢
    refine ⟨rfl, ?_⟩
    intro hempty
    exact hne (String.toList_eq_nil_iff.2 hempty)
  · rw [h] at hne ⊢
    exact ⟨rfl, hne⟩
  · rw [h]
    exact rfl

/-- What stands behind some of the pieces are the pieces of the text behind them. -/
theorem pieces_behind {p : Place} {cs : List Char} {before after : List Piece} {q : Piece}
    (h : pieces p cs = before ++ q :: after) :
    ∃ c rest, cs = Piece.texts before ++ c :: rest ∧
      pieces (p.past (Piece.texts before)) (c :: rest) = q :: after := by
  induction before generalizing p cs with
  | nil =>
      cases cs with
      | nil => simp at h
      | cons c cs => exact ⟨c, cs, rfl, h⟩
  | cons b before ih =>
      cases cs with
      | nil => simp at h
      | cons c cs =>
          have happ := Piece.text_first_append p c cs
          rw [pieces_cons] at h
          split at h
          · simp at h
          · obtain ⟨rfl, htail⟩ := List.cons.inj h
            obtain ⟨d, rest, hrest, hpieces⟩ := ih htail
            refine ⟨d, rest, ?_, ?_⟩
            · rw [Piece.texts_cons, List.append_assoc, ← hrest, happ]
            · rw [Piece.texts_cons, Place.past_append]
              exact hpieces

/-- Each piece stands behind the characters of the pieces before it. -/
theorem pieces_standsAt {p : Place} {cs : List Char} {before after : List Piece} {q : Piece}
    (h : pieces p cs = before ++ q :: after) : q.StandsAt (p.past (Piece.texts before)) := by
  obtain ⟨c, rest, -, hpieces⟩ := pieces_behind h
  have hfirst := first_standsAt (p.past (Piece.texts before)) c rest
  rw [pieces_cons] at hpieces
  split at hpieces
  · obtain ⟨rfl, -⟩ := List.cons.inj hpieces
    exact hfirst
  · obtain ⟨rfl, -⟩ := List.cons.inj hpieces
    exact hfirst

theorem pieces_end_at_fault {p : Place} {cs : List Char} {before after : List Piece} {q : Piece}
    (h : pieces p cs = before ++ q :: after) (hq : q.fault?.isSome) : after = [] := by
  obtain ⟨c, rest, -, hpieces⟩ := pieces_behind h
  rw [pieces_cons] at hpieces
  split at hpieces
  · exact (List.cons.inj hpieces).2.symm
  next hfirst =>
    obtain ⟨rfl, -⟩ := List.cons.inj hpieces
    exact absurd hq hfirst

namespace Find

def token? : Find → Option Token
  | .token t => some t
  | _ => none

def fault? : Find → Option LexicalFault
  | .failed fault => some fault
  | _ => none

end Find

/-- A search from a cursor told by the pieces that it passes, what it meets being the last. -/
structure Search.Passes (k : Cursor) (cs : List Char) (ps : List Piece) (s : Search) : Prop where
  text : cs = Piece.texts ps ++ s.rest
  cursor : s.cursor = k.past (Piece.texts ps)
  skipped : s.skipped = ps.filterMap Piece.skipped?
  tokens : ps.filterMap Piece.token? = s.find.token?.toList
  faults : ps.filterMap Piece.fault? = s.find.fault?.toList
  pieces : pieces k.place cs =
    ps ++ if s.find.isFailed then [] else MusicMacro.pieces s.cursor.place s.rest
  ended : s.find = .ended → s.rest = []

namespace Search

section
variable {k : Cursor} {c : Char} {cs : List Char}

theorem run_separator (hc : isSeparator c = true) : run k (c :: cs) = run (k.after c) cs := by
  rw [run, if_pos hc]

theorem run_token {kind : Token.Kind} {taken rest : List Char} (hc : isSeparator c = false)
    (hr : Reading.ofText c cs = .token kind taken rest) :
    run k (c :: cs) =
      ⟨[], .token ⟨kind, c, String.ofList taken, k.place⟩, k.past taken, rest⟩ := by
  simp [run, hc, hr]

theorem run_failed {cause : Misreading} {taken rest : List Char} (hc : isSeparator c = false)
    (hr : Reading.ofText c cs = .failed cause taken rest) :
    run k (c :: cs) = ⟨[], .failed ⟨cause, k.place⟩, k.past taken, rest⟩ := by
  simp [run, hc, hr]

theorem run_unknown (hc : isSeparator c = false) (hr : Reading.ofText c cs = .unknown) :
    run k (c :: cs) =
      { run (k.after c) cs with skipped := ⟨c, k.place⟩ :: (run (k.after c) cs).skipped } := by
  simp [run, hc, hr]

end

theorem Passes.cons {k : Cursor} {c : Char} {cs : List Char} {ps : List Piece} {s : Search}
    {q : Piece} (h : Passes (k.after c) cs ps s) (htext : q.text = [c])
    (htoken : q.token? = none) (hfault : q.fault? = none)
    (hpieces : MusicMacro.pieces k.place (c :: cs) = q :: MusicMacro.pieces (k.after c).place cs) :
    Passes k (c :: cs) (q :: ps) { s with skipped := q.skipped?.toList ++ s.skipped } where
  text := by
    rw [Piece.texts_cons, htext, List.singleton_append, List.cons_append, ← h.text]
  cursor := by
    rw [Piece.texts_cons, htext, Cursor.past_append, Cursor.past_singleton, ← h.cursor]
  skipped := by
    rw [h.skipped]
    cases hs : q.skipped? <;> simp [hs]
  tokens := by rw [List.filterMap_cons_none htoken, h.tokens]
  faults := by rw [List.filterMap_cons_none hfault, h.faults]
  pieces := by rw [hpieces, h.pieces, List.cons_append]
  ended := h.ended

theorem run_passes (k : Cursor) (cs : List Char) : ∃ ps, Passes k cs ps (run k cs) := by
  induction cs generalizing k with
  | nil => exact ⟨[], rfl, rfl, rfl, rfl, rfl, by simp [run, Find.isFailed], fun _ => rfl⟩
  | cons c cs ih =>
      obtain ⟨ps, hps⟩ := ih (k.after c)
      cases hc : isSeparator c with
      | true =>
          refine ⟨.separator c :: ps, ?_⟩
          rw [run_separator hc]
          exact hps.cons rfl rfl rfl (pieces_separator hc)
      | false =>
          cases hr : Reading.ofText c cs with
          | token kind taken rest =>
              have happ := (Reading.eq_append_of_token hr).1
              refine ⟨[.token ⟨kind, c, String.ofList taken, k.place⟩], ?_⟩
              rw [run_token hc hr]
              refine ⟨?_, ?_, rfl, rfl, rfl, ?_, fun h => by cases h⟩
              · simpa [Piece.text] using happ
              · simp [Piece.text]
              · rw [pieces_token hc hr, Cursor.place_past]
                rfl
          | failed cause taken rest =>
              have happ := (Reading.eq_append_of_failed hr).1
              refine ⟨[.failed ⟨cause, k.place⟩ taken], ?_⟩
              rw [run_failed hc hr]
              refine ⟨?_, ?_, rfl, rfl, rfl, ?_, fun h => by cases h⟩
              · simpa [Piece.text] using happ
              · simp [Piece.text]
              · rw [pieces_failed hc hr]
                rfl
          | unknown =>
              refine ⟨.skipped ⟨c, k.place⟩ :: ps, ?_⟩
              rw [run_unknown hc hr]
              exact hps.cons rfl rfl rfl (pieces_unknown hc hr)

end Search

namespace TokenStream

/-- The stream behind a number of requests for the next token. -/
def after (x : TokenStream) : Nat → TokenStream
  | 0 => x
  | n + 1 => (x.after n).next.2

/-- The answers to a number of requests for the next token, in order. -/
def answers (x : TokenStream) : Nat → List Find
  | 0 => []
  | n + 1 => x.answers n ++ [(x.after n).next.1]

theorem length_answers (x : TokenStream) (n : Nat) : (x.answers n).length = n := by
  induction n with
  | zero => rfl
  | succ n ih => rw [answers, List.length_append, ih, List.length_singleton]

/-- Whether nothing can come any more: a token could not be read, or no text is left. -/
def IsFinished (x : TokenStream) : Prop := x.failed = true ∨ x.rest = []

/-- A stream that has read the pieces from the front of a text. -/
structure HasRead (source : List Char) (ps : List Piece) (x : TokenStream) : Prop where
  text : source = Piece.texts ps ++ x.rest
  cursor : x.cursor = Cursor.past {} (Piece.texts ps)
  skipped : x.skipped = ps.filterMap Piece.skipped?
  pieces : pieces {} source = ps ++ if x.failed then [] else MusicMacro.pieces x.cursor.place x.rest

theorem hasRead_ofText (s : String) : HasRead s.toList [] (ofText s) :=
  ⟨rfl, rfl, rfl, rfl⟩

theorem IsFinished.next_eq {x : TokenStream} (h : x.IsFinished) : x.next = (.ended, x) := by
  obtain ⟨rest, cursor, skipped, failed⟩ := x
  cases failed with
  | true => simp [next, search, behind, Find.isFailed]
  | false =>
      obtain rfl : rest = [] := h.resolve_left Bool.false_ne_true
      simp [next, search, Search.run, behind, Find.isFailed]

theorem search_eq_run {x : TokenStream} (hf : x.failed = false) :
    x.search = Search.run x.cursor x.rest := by
  simp [search, hf]

theorem isFinished_next {x : TokenStream} (h : x.next.1.token? = none) :
    x.next.2.IsFinished := by
  cases hf : x.failed with
  | true => exact .inl (by simp [next, behind, hf])
  | false =>
      obtain ⟨ps, hps⟩ := Search.run_passes x.cursor x.rest
      rw [← search_eq_run hf] at hps
      cases hfind : x.search.find with
      | token t => simp [next, hfind, Find.token?] at h
      | failed fault => exact .inl (by simp [next, behind, hfind, Find.isFailed])
      | ended => exact .inr (hps.ended hfind)

/-- Asking for the next token reads some more pieces, and the answer tells the tokens and faults
among them. -/
theorem HasRead.next {source : List Char} {ps : List Piece} {x : TokenStream}
    (h : HasRead source ps x) : ∃ qs, HasRead source (ps ++ qs) x.next.2 ∧
      qs.filterMap Piece.token? = x.next.1.token?.toList ∧
      qs.filterMap Piece.fault? = x.next.1.fault?.toList := by
  cases hf : x.failed with
  | true =>
      rw [IsFinished.next_eq (.inl hf)]
      exact ⟨[], by rwa [List.append_nil], rfl, rfl⟩
  | false =>
      obtain ⟨qs, hqs⟩ := Search.run_passes x.cursor x.rest
      rw [← search_eq_run hf] at hqs
      refine ⟨qs, ⟨?_, ?_, ?_, ?_⟩, hqs.tokens, hqs.faults⟩
      · rw [h.text, hqs.text, Piece.texts_append, List.append_assoc]
        rfl
      · rw [Piece.texts_append, Cursor.past_append, ← h.cursor]
        exact hqs.cursor
      · rw [List.filterMap_append, ← h.skipped, ← hqs.skipped]
        rfl
      · rw [h.pieces, hf, List.append_assoc]
        simpa [TokenStream.next, behind, hf] using hqs.pieces

theorem hasRead_after (s : String) (n : Nat) :
    ∃ ps, HasRead s.toList ps ((ofText s).after n) ∧
      ps.filterMap Piece.token? = ((ofText s).answers n).filterMap Find.token? ∧
      ps.filterMap Piece.fault? = ((ofText s).answers n).filterMap Find.fault? := by
  induction n with
  | zero => exact ⟨[], hasRead_ofText s, rfl, rfl⟩
  | succ n ih =>
      obtain ⟨ps, hread, htokens, hfaults⟩ := ih
      obtain ⟨qs, hnext, hts, hfs⟩ := hread.next
      refine ⟨ps ++ qs, hnext, ?_, ?_⟩
      · rw [List.filterMap_append, htokens, hts, answers, List.filterMap_append]
        cases ((ofText s).after n).next.1 <;> rfl
      · rw [List.filterMap_append, hfaults, hfs, answers, List.filterMap_append]
        cases ((ofText s).after n).next.1 <;> rfl

theorem IsFinished.after_eq {x : TokenStream} (h : x.IsFinished) (n : Nat) : x.after n = x := by
  induction n with
  | zero => rfl
  | succ n ih => rw [after, ih, h.next_eq]

theorem after_add (x : TokenStream) (m n : Nat) : x.after (m + n) = (x.after m).after n := by
  induction n with
  | zero => rfl
  | succ n ih => rw [← Nat.add_assoc, after, after, ih]

/-- An answer without a token leaves a finished stream. -/
theorem isFinished_of_mem_answers {x : TokenStream} {n : Nat} {f : Find} (h : f ∈ x.answers n)
    (hf : f.token? = none) : (x.after n).IsFinished := by
  induction n with
  | zero => simp [answers] at h
  | succ n ih =>
      rw [answers, List.mem_append, List.mem_singleton] at h
      rcases h with h | rfl
      · have hfin := ih h
        rw [after, hfin.next_eq]
        exact hfin
      · exact isFinished_next hf

theorem failed_after (x : TokenStream) (n : Nat) (h : (x.after n).failed = true) :
    x.failed = true ∨ ∃ fault, .failed fault ∈ x.answers n := by
  induction n with
  | zero => exact .inl h
  | succ n ih =>
      rw [after, next, behind, Bool.or_eq_true] at h
      rcases h with h | h
      · refine (ih h).imp_right ?_
        rintro ⟨fault, hmem⟩
        exact ⟨fault, List.mem_append_left _ hmem⟩
      · cases hfind : (x.after n).search.find with
        | token t => simp [hfind, Find.isFailed] at h
        | ended => simp [hfind, Find.isFailed] at h
        | failed fault =>
            refine .inr ⟨fault, ?_⟩
            rw [answers, next, hfind]
            exact List.mem_append_right _ (List.mem_singleton_self _)

/-- However often the next token was asked for: the text read so far consists of pieces that each
stand at their counted place, with a token that cannot be read at their end only; the tokens among
the pieces are the tokens answered and the skipped ones are the characters skipped. An end without a
fault leaves nothing of the text, and an end or a fault is followed by ends alone. -/
theorem answers_divide_text (source : String) (n : Nat) :
    (∃ ps : List Piece,
      source.toList = Piece.texts ps ++ ((ofText source).after n).rest ∧
      ((ofText source).after n).cursor.offset = (String.ofList (Piece.texts ps)).utf8ByteSize ∧
      (∀ before q after, ps = before ++ q :: after →
        q.StandsAt (Place.behind (Piece.texts before)) ∧ (q.fault?.isSome → after = [])) ∧
      ps.filterMap Piece.token? = ((ofText source).answers n).filterMap Find.token? ∧
      ps.filterMap Piece.skipped? = ((ofText source).after n).skipped ∧
      ps.filterMap Piece.fault? = ((ofText source).answers n).filterMap Find.fault?) ∧
    (.ended ∈ (ofText source).answers n → (∀ fault, .failed fault ∉ (ofText source).answers n) →
      ((ofText source).after n).rest = []) ∧
    (∀ f ∈ (ofText source).answers n, f.token? = none →
      ∀ m, ((ofText source).after (n + m)).next = (.ended, (ofText source).after n)) := by
  refine ⟨?_, ?_, ?_⟩
  · obtain ⟨ps, hread, htokens, hfaults⟩ := hasRead_after source n
    refine ⟨ps, hread.text, ?_, ?_, htokens, hread.skipped.symm, hfaults⟩
    · rw [hread.cursor, Cursor.offset_past, Nat.zero_add]
    · intro before q after hps
      have hall := hread.pieces
      rw [hps, List.append_assoc, List.cons_append] at hall
      refine ⟨?_, fun hq => (List.append_eq_nil_iff.1 (pieces_end_at_fault hall hq)).1⟩
      have hstands := pieces_standsAt hall
      rwa [show ({} : Place) = Place.behind [] from rfl, Place.past_behind] at hstands
  · intro hended hnone
    have hfin := isFinished_of_mem_answers hended rfl
    refine hfin.resolve_left fun hfailed => ?_
    obtain h | ⟨fault, hmem⟩ := failed_after _ _ hfailed
    · exact Bool.false_ne_true h
    · exact hnone fault hmem
  · intro f hmem hf m
    have hfin := isFinished_of_mem_answers hmem hf
    rw [after_add, hfin.after_eq, hfin.next_eq]

end TokenStream

end MusicMacro
