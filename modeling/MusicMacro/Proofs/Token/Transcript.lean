import MusicMacro.Proofs.Token.Division

/-! The transcript of a text: what comes of asking for tokens until nothing more comes. -/

namespace MusicMacro

/-- The tokens answered, the characters skipped, and the fault that ended the reading, if any. -/
structure Transcript where
  tokens : List Token
  skipped : List Skipped
  fault : Option LexicalFault
  deriving DecidableEq, Repr

def Transcript.ofPieces (ps : List Piece) : Transcript where
  tokens := ps.filterMap Piece.token?
  skipped := ps.filterMap Piece.skipped?
  fault := (ps.filterMap Piece.fault?).head?

namespace Transcript

@[simp] theorem ofPieces_separator (c : Char) (ps : List Piece) :
    ofPieces (.separator c :: ps) = ofPieces ps := rfl

@[simp] theorem ofPieces_skipped (s : Skipped) (ps : List Piece) : ofPieces (.skipped s :: ps) =
    { ofPieces ps with skipped := s :: (ofPieces ps).skipped } := rfl

@[simp] theorem ofPieces_token (t : Token) (ps : List Piece) : ofPieces (.token t :: ps) =
    { ofPieces ps with tokens := t :: (ofPieces ps).tokens } := rfl

end Transcript

namespace TokenStream

/-- Asks for the next token until there is none. -/
def transcript (x : TokenStream) : Transcript :=
  match h : x.search.find with
  | .ended => ⟨[], x.next.2.skipped, none⟩
  | .failed fault => ⟨[], x.next.2.skipped, some fault⟩
  | .token t =>
    have : x.search.rest.length < x.rest.length := rest_lt_of_search h
    let later := x.next.2.transcript
    ⟨t :: later.tokens, later.skipped, later.fault⟩
termination_by x.rest.length

section
variable {x : TokenStream}

theorem transcript_of_ended (h : x.next.1 = .ended) :
    x.transcript = ⟨[], x.next.2.skipped, none⟩ := by
  have hfind : x.search.find = .ended := h
  rw [transcript]
  split <;> simp_all

theorem transcript_of_failed {fault : LexicalFault} (h : x.next.1 = .failed fault) :
    x.transcript = ⟨[], x.next.2.skipped, some fault⟩ := by
  have hfind : x.search.find = .failed fault := h
  rw [transcript]
  split <;> simp_all

theorem transcript_of_token {t : Token} (h : x.next.1 = .token t) :
    x.transcript = ⟨t :: x.next.2.transcript.tokens, x.next.2.transcript.skipped,
      x.next.2.transcript.fault⟩ := by
  have hfind : x.search.find = .token t := h
  rw [transcript]
  split <;> simp_all

end

/-- What a stream gives is told by the pieces of the text that is left. -/
theorem transcript_eq {x : TokenStream} (hf : x.failed = false) :
    x.transcript = ⟨(pieces x.cursor.place x.rest).filterMap Piece.token?,
      x.skipped ++ (pieces x.cursor.place x.rest).filterMap Piece.skipped?,
      ((pieces x.cursor.place x.rest).filterMap Piece.fault?).head?⟩ := by
  induction h : x.rest.length using Nat.strongRecOn generalizing x with
  | ind n ih =>
      obtain ⟨ps, hps⟩ := Search.run_passes x.cursor x.rest
      rw [← search_eq_run hf] at hps
      have hskipped : x.next.2.skipped = x.skipped ++ ps.filterMap Piece.skipped? := by
        rw [← hps.skipped]
        rfl
      have htokens := hps.tokens
      have hfaults := hps.faults
      cases hfind : x.search.find with
      | ended =>
          rw [hfind] at htokens hfaults
          rw [transcript_of_ended hfind, hps.pieces, hps.ended hfind, pieces_nil, ite_self,
            List.append_nil, htokens, hfaults, hskipped]
          rfl
      | failed fault =>
          rw [hfind] at htokens hfaults
          rw [transcript_of_failed hfind, hps.pieces, hfind,
            if_pos (show (Find.failed fault).isFailed = true from rfl), List.append_nil, htokens,
            hfaults, hskipped]
          rfl
      | token t =>
          rw [hfind] at htokens hfaults
          have hnot : x.next.2.failed = false := by
            simp [next, behind, hf, hfind, Find.isFailed]
          rw [transcript_of_token hfind, ih _ (h ▸ rest_lt_of_search hfind) hnot rfl, hskipped,
            hps.pieces, hfind, if_neg (by simp [Find.isFailed]), List.filterMap_append,
            List.filterMap_append, List.filterMap_append, htokens, hfaults, List.append_assoc]
          rfl

theorem transcript_ofText (s : String) :
    (ofText s).transcript = .ofPieces (pieces {} s.toList) :=
  transcript_eq rfl

/-- The tokens that are left are those of the transcript, unless it has a fault. -/
theorem tokens_eq (x : TokenStream) : x.tokens = match x.transcript.fault with
    | none => .ok x.transcript.tokens
    | some fault => .error fault := by
  fun_induction tokens x with
  | case1 x h => rw [transcript_of_ended h]
  | case2 x fault h => rw [transcript_of_failed h]
  | case3 x t h hlt ih =>
      have hlater : x.next.2 = x.behind x.search := rfl
      rw [transcript_of_token h, hlater, ih]
      cases (x.behind x.search).transcript.fault <;> rfl

end TokenStream

theorem tokensOf_eq_ok {source : String} {tokens : List Token} : tokensOf source = .ok tokens ↔
    (TokenStream.ofText source).transcript.fault = none ∧
      (TokenStream.ofText source).transcript.tokens = tokens := by
  rw [tokensOf, TokenStream.tokens_eq]
  split <;> simp_all

end MusicMacro
