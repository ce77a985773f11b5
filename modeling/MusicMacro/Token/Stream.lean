import MusicMacro.Text.Blank
import MusicMacro.Token.Reading

/-!
Reading a text token by token. Separators between tokens are dropped, characters that open no token
are skipped and remembered, and the first token that cannot be read ends the reading.
-/

namespace MusicMacro

/-- A character that opens no token, and where it stands. -/
structure Skipped where
  character : Char
  place : Place
  deriving DecidableEq, Repr

/-- Characters that keep tokens apart and have no other meaning. -/
def isSeparator (c : Char) : Bool := c == ';' || isBlank c

/-- How much of a text has been read: the bytes of its UTF-8 form, and the place reached. -/
structure Cursor where
  offset : Nat := 0
  place : Place := {}
  deriving DecidableEq, Repr

namespace Cursor

def after (k : Cursor) (c : Char) : Cursor := ⟨k.offset + c.utf8Size, k.place.after c⟩

def past (k : Cursor) (cs : List Char) : Cursor := cs.foldl after k

end Cursor

/-- A misreading with the place where its token begins. -/
structure LexicalFault where
  cause : Misreading
  place : Place
  deriving DecidableEq, Repr

/-- What a search for the next token meets. -/
inductive Find
  | token (token : Token)
  | failed (fault : LexicalFault)
  | ended
  deriving DecidableEq, Repr

def Find.isFailed : Find → Bool
  | .failed _ => true
  | _ => false

/-- A search: what was skipped on the way, what was met, and where it stopped. -/
structure Search where
  skipped : List Skipped
  find : Find
  cursor : Cursor
  rest : List Char
  deriving DecidableEq, Repr

namespace Search

/-- Searches a text for its first token. -/
def run (k : Cursor) : List Char → Search
  | [] => ⟨[], .ended, k, []⟩
  | c :: cs =>
    if isSeparator c then run (k.after c) cs
    else match Reading.ofText c cs with
      | .token kind taken rest =>
        ⟨[], .token ⟨kind, c, String.ofList taken, k.place⟩, k.past taken, rest⟩
      | .failed cause taken rest => ⟨[], .failed ⟨cause, k.place⟩, k.past taken, rest⟩
      | .unknown =>
        let later := run (k.after c) cs
        { later with skipped := ⟨c, k.place⟩ :: later.skipped }

theorem rest_lt_of_token {k : Cursor} {cs : List Char} {t : Token}
    (h : (run k cs).find = .token t) : (run k cs).rest.length < cs.length := by
  induction cs generalizing k with
  | nil => simp [run] at h
  | cons c cs ih =>
    simp only [run] at h ⊢
    split at h
    next hc => simpa [hc] using Nat.lt_succ_of_lt (ih h)
    next hc =>
      simp only [hc]
      split at h
      next kind taken rest hr =>
        obtain ⟨heq, hne⟩ := Reading.eq_append_of_token hr
        have := congrArg List.length heq
        have := List.length_pos_iff.2 hne
        simp_all
      next => cases h
      next hr => simpa [hr] using Nat.lt_succ_of_lt (ih h)

end Search

/-- A text whose tokens are read one at a time: what is left of it, how far the reading has come,
what was skipped so far, and whether a token could not be read. -/
structure TokenStream where
  rest : List Char
  cursor : Cursor := {}
  skipped : List Skipped := []
  failed : Bool := false
  deriving DecidableEq, Repr

namespace TokenStream

/-- A text of which nothing has been read. -/
def ofText (s : String) : TokenStream := { rest := s.toList }

/-- The search for the next token. Behind a failure nothing is searched. -/
def search (x : TokenStream) : Search :=
  if x.failed then ⟨[], .ended, x.cursor, x.rest⟩ else Search.run x.cursor x.rest

/-- The stream behind a search. -/
def behind (x : TokenStream) (s : Search) : TokenStream where
  rest := s.rest
  cursor := s.cursor
  skipped := x.skipped ++ s.skipped
  failed := x.failed || s.find.isFailed

/-- What comes next, and the stream behind it. -/
def next (x : TokenStream) : Find × TokenStream := (x.search.find, x.behind x.search)

theorem rest_lt_of_search {x : TokenStream} {t : Token} (h : x.search.find = .token t) :
    x.search.rest.length < x.rest.length := by
  unfold search at h ⊢
  split at h
  · cases h
  next hf =>
    simp only [hf]
    exact Search.rest_lt_of_token h

/-- All tokens that are left, or the fault that ends the reading. -/
def tokens (x : TokenStream) : Except LexicalFault (List Token) :=
  match h : x.search.find with
  | .ended => .ok []
  | .failed fault => .error fault
  | .token t =>
    have : x.search.rest.length < x.rest.length := rest_lt_of_search h
    (t :: ·) <$> (x.behind x.search).tokens
termination_by x.rest.length

end TokenStream

/-- The tokens of a text, or the first fault in it. -/
def tokensOf (s : String) : Except LexicalFault (List Token) := (TokenStream.ofText s).tokens

end MusicMacro
