import Mathlib.Data.List.TakeWhile
import MusicMacro.Proofs.Yaml.Word

/-!
Members of a block mapping, each a key and a value on a line of its own. The reader takes three
rounds for such a line: one for the key, one for the colon, which shows that it was one, and one for
the value. A colon that is more than 1024 characters behind the beginning of its line makes no key.
-/

namespace MusicMacro.Yaml

/-- A key and a value that are words. -/
structure Member where
  key : List Char
  value : List Char
  key_isWord : IsWord key
  value_isWord : IsWord value

namespace Member

variable (x : Member)

/-- Whether the colon behind the key can make a key of it. -/
def IsShort : Prop := x.key.length ≤ 1024

def text : List Char := x.key ++ ':' :: ' ' :: (x.value ++ ['\n'])

/-- Where the key ends in a line that begins at a mark. -/
def colon (m : Mark) : Mark := m.past x.key

def valueStart (m : Mark) : Mark := ((x.colon m).after ':').after ' '

def valueStop (m : Mark) : Mark := (x.valueStart m).past x.value

/-- Where the next line begins. -/
def behind (m : Mark) : Mark := (x.valueStop m).newline 1

def keyToken (m : Mark) : Token := ⟨.scalar (String.ofList x.key) .plain, m, x.colon m⟩

def valueToken (m : Mark) : Token :=
  ⟨.scalar (String.ofList x.value) .plain, x.valueStart m, x.valueStop m⟩

/-- The tokens of a line. -/
def tokens (m : Mark) : List Token :=
  [⟨.key, m, m⟩, x.keyToken m, ⟨.value, x.colon m, (x.colon m).after ':'⟩, x.valueToken m]

/-- The tokens of lines that begin at a mark, up to the end of the text. -/
def tokensFrom (m : Mark) : List Member → List Token
  | [] => [⟨.blockEnd, m, m⟩, ⟨.streamEnd, m, m⟩]
  | x :: xs => x.tokens m ++ tokensFrom (x.behind m) xs

theorem ordinary_head (xs : List Member) : ∀ c ∈ (xs.flatMap text).head?, Ordinary c := by
  cases xs with
  | nil => exact fun c h => nomatch h
  | cons x xs =>
      obtain ⟨c, cs, hkey, -⟩ := x.key_isWord.exists_cons
      have hc : Ordinary c := x.key_isWord.ordinary c (by rw [hkey]; exact List.mem_cons_self)
      intro d hd
      obtain rfl : c = d := by simpa [text, hkey] using hd
      exact hc

theorem isAllowed_of_mem (xs : List Member) : ∀ c ∈ xs.flatMap text, isAllowed c = true := by
  intro c hc
  obtain ⟨x, -, hmem⟩ := List.mem_flatMap.1 hc
  have hkey := x.key_isWord.ordinary
  have hvalue := x.value_isWord.ordinary
  simp only [text, List.mem_append, List.mem_cons, List.not_mem_nil, or_false] at hmem
  rcases hmem with hmem | rfl | rfl | hmem | rfl
  · exact (hkey c hmem).allowed
  · decide
  · decide
  · exact (hvalue c hmem).allowed
  · decide

/-- A line has five characters at least. -/
theorem length_texts (xs : List Member) : 5 * xs.length ≤ (xs.flatMap text).length := by
  induction xs with
  | nil => exact Nat.le_refl 0
  | cons x xs ih =>
      obtain ⟨c, cs, hkey, -⟩ := x.key_isWord.exists_cons
      obtain ⟨d, ds, hvalue, -⟩ := x.value_isWord.exists_cons
      simp only [List.flatMap_cons, List.length_append, List.length_cons, text, hkey, hvalue]
      omega

end Member

namespace Reader

variable {x y : Reader} {c : Char} {cs : List Char} {m : Mark}

/-- A round where no key is out of reach and no block to close before the token. -/
theorem next_eq (hgap : x.skipGap = y) (hfresh : y.dropStale = .ok y)
    (hopen : y.closeBlocks y.mark.column = y) : x.next = y.token >>= dropStale := by
  rw [next, hgap, hfresh]
  change (y.closeBlocks y.mark.column).token >>= dropStale = _
  rw [hopen]

/-- Characters that no gap begins with. -/
structure NoGap (c : Char) : Prop where
  not_break : isBreak c = false
  not_white : isWhite c = false
  not_remark : (c == '#') = false
  not_mark : (c == '\uFEFF') = false

theorem NoGap.of_isAlphanum (h : c.isAlphanum = true) : NoGap c := by
  have hordinary := ordinary_of_isNameChar (isNameChar_of_isAlphanum h)
  exact ⟨hordinary.not_break, hordinary.not_white, beq_of_isAlphanum h (by decide),
    beq_of_isAlphanum h (by decide)⟩

theorem noGap_colon : NoGap ':' := ⟨by decide, by decide, by decide, by decide⟩

theorem skipGap_go (h : NoGap c) {keyAllowed : Bool} :
    skipGap.go x keyAllowed false m (c :: cs) =
      { x with cursor := ⟨c :: cs, m⟩, keyAllowed } := by
  have hwhite := h.not_white
  rw [isWhite, Bool.or_eq_false_iff] at hwhite
  rw [skipGap.go]
  · rw [h.not_break, h.not_remark, h.not_mark, hwhite.1, hwhite.2]
    rfl
  · rintro _ rfl -
    exact Bool.false_ne_true h.not_break.symm

theorem skipGap_eq (h : x.cursor = ⟨c :: cs, m⟩) (hc : NoGap c) : x.skipGap = x := by
  rw [skipGap, mark, h, skipGap_go hc, ← h]

theorem dropStale_eq (hfresh : ∀ key ∈ x.possible, isStale x.mark key = false)
    (houter : x.outer = []) : x.dropStale = .ok x := by
  obtain ⟨cursor, tokens, indent, indents, keyAllowed, possible, outer⟩ := x
  obtain rfl : outer = [] := houter
  cases possible with
  | none => rfl
  | some key =>
      have hkey := hfresh key rfl
      simp [dropStale, keys, hkey]

theorem dropStale_of_none (hpossible : x.possible = none) (houter : x.outer = []) :
    x.dropStale = .ok x :=
  dropStale_eq (by rw [hpossible]; exact fun key h => nomatch h) houter

theorem closeBlocks_eq {column : Int} (h : x.indent ≤ column) : x.closeBlocks column = x := by
  obtain ⟨cursor, tokens, indent, indents, keyAllowed, possible, outer⟩ := x
  have hlt : ¬ column < indent := Int.not_lt.2 h
  unfold closeBlocks
  split
  · rfl
  · cases indents with
    | nil => rfl
    | cons outer indents => rw [closeBlocks.go, if_neg hlt]

/-- No column is left of a block mapping without indentation, nor of none. -/
theorem closeBlocks_of_mapping (inMapping : Bool) (h : x.indent = if inMapping then 0 else -1)
    (column : Nat) : x.closeBlocks column = x := by
  apply closeBlocks_eq
  rw [h]
  split <;> omega

/-- A letter or digit begins a plain scalar. -/
theorem token_of_isAlphanum (hrest : x.cursor.rest = c :: cs) (hc : c.isAlphanum = true)
    (houter : x.outer = []) : x.token = x.plain := by
  have hsigns : ('-' :: '?' :: ':' :: openers).all (fun d => !d.isAlphanum) = true := rfl
  have hne : ∀ d ∈ '-' :: '?' :: ':' :: openers, c ≠ d := by
    rintro d hd rfl
    have hsign := List.all_eq_true.1 hsigns c hd
    rw [hc] at hsign
    cases hsign
  have hwhite := (ordinary_of_isNameChar (isNameChar_of_isAlphanum hc)).not_white
  have hflow : x.inFlow = false := by rw [inFlow, houter]; rfl
  simp only [openers, List.forall_mem_cons] at hne
  unfold token
  rw [hrest]
  simp [hflow, atMarker_of_isAlphanum hc, hne, startsPlain, openers, hwhite]

/-- A colon in front of a gap is the value sign. -/
theorem token_colon (hrest : x.cursor.rest = ':' :: ' ' :: cs) : x.token = x.value := by
  unfold token
  rw [hrest]
  simp [atMarker, atGap, isWhite]

/-- A reader at the front of a line, outside of any block or in a block mapping without
indentation. -/
def atLine (inMapping : Bool) (ts : List Token) (k : Cursor) : Reader where
  cursor := k
  tokens := ts
  indent := if inMapping then 0 else -1
  indents := if inMapping then [-1] else []

/-- The token that opens a block mapping at a mark, if there is none yet. -/
def opening (inMapping : Bool) (m : Mark) : List Token :=
  if inMapping then [] else [⟨.blockMapping, m, m⟩]

section
variable {inMapping : Bool} {ts : List Token} {member : Member} {rest : List Char}

/-- The key of a line has been read and its colon is next. -/
def atColon (inMapping : Bool) (ts : List Token) (member : Member) (m : Mark) (rest : List Char) :
    Reader where
  cursor := ⟨':' :: ' ' :: (member.value ++ '\n' :: rest), member.colon m⟩
  tokens := ts ++ [member.keyToken m]
  indent := if inMapping then 0 else -1
  indents := if inMapping then [-1] else []
  keyAllowed := false
  possible := some ⟨ts.length, inMapping, m⟩

theorem saveKey_atLine {k : Cursor} (hm : k.mark.column = 0) : (atLine inMapping ts k).saveKey =
    .ok { atLine inMapping ts k with possible := some ⟨ts.length, inMapping, k.mark⟩ } := by
  cases inMapping <;> simp [saveKey, atLine, inFlow, mark, dropKey, hm]

theorem plain_atLine (hm : m.column = 0) :
    (atLine inMapping ts ⟨member.text ++ rest, m⟩).plain =
      .ok (atColon inMapping ts member m rest) := by
  have htext : member.text ++ rest =
      member.key ++ ':' :: (' ' :: (member.value ++ '\n' :: rest)) := by
    simp [Member.text]
  rw [plain, saveKey_atLine hm, htext]
  change (Plain.read false _ ⟨member.key ++ ':' :: (' ' :: _), m⟩ >>= _) = _
  rw [Plain.read_key member.key_isWord rfl]
  rfl

theorem isStale_key (member : Member) (m : Mark) {before : Nat} {required : Bool} :
    isStale (member.colon m) ⟨before, required, m⟩ = decide (1024 < member.key.length) := by
  have hindex := Mark.past_index member.key_isWord.ordinary m
  have hline := m.past_line member.key
  simp [isStale, Member.colon, hline, hindex]

theorem next_atLine (hm : m.column = 0) : (atLine inMapping ts ⟨member.text ++ rest, m⟩).next =
    (atColon inMapping ts member m rest).dropStale := by
  obtain ⟨c, cs, hkey, hc⟩ := member.key_isWord.exists_cons
  have hcursor : member.text ++ rest =
      c :: (cs ++ ':' :: ' ' :: (member.value ++ '\n' :: rest)) := by
    simp [Member.text, hkey]
  rw [next_eq (y := atLine inMapping ts ⟨member.text ++ rest, m⟩),
    token_of_isAlphanum hcursor hc rfl, plain_atLine hm]
  · rfl
  · rw [hcursor]
    exact skipGap_eq rfl (.of_isAlphanum hc)
  · exact dropStale_of_none rfl rfl
  · exact closeBlocks_of_mapping inMapping rfl m.column

theorem dropStale_atColon (hshort : member.IsShort) :
    (atColon inMapping ts member m rest).dropStale = .ok (atColon inMapping ts member m rest) := by
  refine dropStale_eq ?_ rfl
  intro key h
  obtain rfl := Option.some.inj h
  exact (isStale_key member m).trans (decide_eq_false (Nat.not_lt.2 hshort))

/-- The colon of a line has been read and its value is next. -/
def atValue (ts : List Token) (member : Member) (m : Mark) (rest : List Char) : Reader where
  cursor := ⟨' ' :: (member.value ++ '\n' :: rest), (member.colon m).after ':'⟩
  tokens := ts ++ [⟨.key, m, m⟩, member.keyToken m,
    ⟨.value, member.colon m, (member.colon m).after ':'⟩]
  indent := 0
  indents := [-1]
  keyAllowed := false

theorem value_atColon (hm : m.column = 0) :
    (atColon inMapping ts member m rest).value =
      .ok (atValue (ts ++ opening inMapping m) member m rest) := by
  cases inMapping <;>
    simp [value, atColon, insert, openBlock, push, hm, inFlow, opening, atValue, Cursor.forward,
      mark] <;>
    rfl

theorem next_atColon (hm : m.column = 0) (hshort : member.IsShort) :
    (atColon inMapping ts member m rest).next =
      .ok (atValue (ts ++ opening inMapping m) member m rest) := by
  rw [next_eq (y := atColon inMapping ts member m rest), token_colon rfl, value_atColon hm]
  · exact dropStale_of_none (x := atValue (ts ++ opening inMapping m) member m rest) rfl rfl
  · exact skipGap_eq rfl noGap_colon
  · exact dropStale_atColon hshort
  · exact closeBlocks_of_mapping inMapping rfl (member.colon m).column

theorem skipGap_atValue : (atValue ts member m rest).skipGap =
    { atValue ts member m rest with
      cursor := ⟨member.value ++ '\n' :: rest, member.valueStart m⟩ } := by
  obtain ⟨c, cs, hvalue, hc⟩ := member.value_isWord.exists_cons
  have hspace : (atValue ts member m rest).skipGap =
      skipGap.go (atValue ts member m rest) false false (member.valueStart m)
        (member.value ++ '\n' :: rest) := by
    rw [skipGap]
    change skipGap.go _ false false _ (' ' :: (member.value ++ '\n' :: rest)) = _
    rw [skipGap.go]
    · rfl
    · intro _ h
      cases h
  rw [hspace, hvalue, List.cons_append]
  exact skipGap_go (.of_isAlphanum hc)

theorem next_atValue (hrest : ∀ c ∈ rest.head?, Ordinary c) :
    (atValue ts member m rest).next =
      .ok (atLine true (ts ++ member.tokens m) ⟨rest, member.behind m⟩) := by
  obtain ⟨c, cs, hvalue, hc⟩ := member.value_isWord.exists_cons
  have hhead : member.value ++ '\n' :: rest = c :: (cs ++ '\n' :: rest) := by
    rw [hvalue]
    rfl
  have htokens : ts ++ member.tokens m =
      (atValue ts member m rest).tokens ++ [member.valueToken m] := by
    simp [Member.tokens, atValue]
  rw [next_eq skipGap_atValue, token_of_isAlphanum hhead hc rfl, plain, htokens]
  · change (Plain.read false 1 ⟨member.value ++ '\n' :: rest, member.valueStart m⟩ >>= _)
      >>= _ = _
    rw [Plain.read_value member.value_isWord hrest (by decide)]
    exact dropStale_of_none (x := atLine true _ ⟨rest, member.behind m⟩) rfl rfl
  · exact dropStale_of_none rfl rfl
  · exact closeBlocks_of_mapping true rfl (member.valueStart m).column

theorem readFrom_of_next (h : x.next = .ok y) {t : Token} (hlast : y.tokens.getLast? = some t)
    (hkind : t.kind ≠ .streamEnd) (fuel : Nat) : readFrom (fuel + 1) x = readFrom fuel y := by
  have hend : (y.tokens.getLast?.map Token.kind == some .streamEnd) = false := by
    simpa [hlast] using hkind
  rw [readFrom, h]
  dsimp only
  rw [hend, if_neg Bool.false_ne_true]

/-- A line is read in three rounds, which leave the reader at the front of the next one. -/
theorem readFrom_line (hm : m.column = 0) (hshort : member.IsShort)
    (hrest : ∀ c ∈ rest.head?, Ordinary c) (fuel : Nat) :
    readFrom (fuel + 3) (atLine inMapping ts ⟨member.text ++ rest, m⟩) =
      readFrom fuel
        (atLine true (ts ++ opening inMapping m ++ member.tokens m) ⟨rest, member.behind m⟩) := by
  have hkey : (atLine inMapping ts ⟨member.text ++ rest, m⟩).next =
      .ok (atColon inMapping ts member m rest) := (next_atLine hm).trans (dropStale_atColon hshort)
  rw [readFrom_of_next (t := member.keyToken m) hkey (by simp [atColon]) Token.Kind.noConfusion,
    readFrom_of_next (t := ⟨.value, member.colon m, (member.colon m).after ':'⟩)
      (next_atColon hm hshort) (by simp [atValue]) Token.Kind.noConfusion,
    readFrom_of_next (t := member.valueToken m) (next_atValue hrest)
      (by simp [atLine, Member.tokens]) Token.Kind.noConfusion]

/-- A key that may be given up is, if its colon does not reach it, and then the colon is stray. -/
theorem readFrom_long (hm : m.column = 0) (hlong : ¬ member.IsShort) (fuel : Nat) :
    readFrom (fuel + 2) (atLine false ts ⟨member.text ++ rest, m⟩) =
      (ts ++ [member.keyToken m],
        some (.broken .strayValue (member.colon m) (member.colon m))) := by
  let x : Reader := { atColon false ts member m rest with possible := none }
  have hkey : (atLine false ts ⟨member.text ++ rest, m⟩).next = .ok x := by
    have hstale : isStale (member.colon m) ⟨ts.length, false, m⟩ = true :=
      (isStale_key member m).trans (decide_eq_true (Nat.not_le.1 hlong))
    rw [next_atLine hm]
    simp [dropStale, keys, atColon, mark, hstale, x]
  have hcolon : x.next = .error (.broken .strayValue (member.colon m) (member.colon m)) := by
    rw [next_eq (y := x), token_colon rfl]
    · rfl
    · exact skipGap_eq rfl noGap_colon
    · exact dropStale_of_none rfl rfl
    · exact closeBlocks_of_mapping false rfl (member.colon m).column
  have hsettled : x.settled = ts ++ [member.keyToken m] := List.take_length
  rw [readFrom_of_next (t := member.keyToken m) hkey (by simp [atColon, x])
    Token.Kind.noConfusion, readFrom, hcolon]
  dsimp only
  rw [hsettled]

/-- The end of the text closes the block mapping. -/
theorem readFrom_nil (hm : m.column = 0) (fuel : Nat) :
    readFrom (fuel + 1) (atLine true ts ⟨[], m⟩) = (ts ++ Member.tokensFrom m [], none) := by
  obtain ⟨index, line, column⟩ := m
  obtain rfl : column = 0 := hm
  let m : Mark := ⟨index, line, 0⟩
  have hnext : (atLine true ts ⟨[], m⟩).next =
      .ok { atLine true (ts ++ Member.tokensFrom m []) ⟨[], m⟩ with
        indent := -1, indents := [], keyAllowed := false } := by
    rw [Member.tokensFrom, ← List.singleton_append, ← List.append_assoc]
    rfl
  rw [readFrom, hnext]
  simp [atLine, Member.tokensFrom, m]

theorem readFrom_lines (hm : m.column = 0) {members : List Member}
    (hshort : ∀ x ∈ members, x.IsShort) {fuel : Nat} (hfuel : 3 * members.length < fuel) :
    readFrom fuel (atLine true ts ⟨members.flatMap Member.text, m⟩) =
      (ts ++ Member.tokensFrom m members, none) := by
  induction members generalizing ts m fuel with
  | nil =>
      obtain ⟨fuel, rfl⟩ := Nat.exists_eq_add_of_le' hfuel
      exact readFrom_nil hm fuel
  | cons member members ih =>
      obtain ⟨fuel, rfl⟩ : ∃ n, fuel = n + 3 :=
        Nat.exists_eq_add_of_le' (by rw [List.length_cons] at hfuel; omega)
      obtain ⟨hfirst, hlater⟩ := List.forall_mem_cons.1 hshort
      rw [List.flatMap_cons, readFrom_line hm hfirst (Member.ordinary_head members),
        ih rfl hlater (by rw [List.length_cons] at hfuel; omega), Member.tokensFrom, opening,
        if_pos rfl, List.append_nil, List.append_assoc]

end

end Reader

section
variable (first : Member) (members : List Member)

/-- A text of members is read from the front of its first line on. -/
theorem tokens_texts : tokens (String.ofList ((first :: members).flatMap Member.text)) =
    Reader.readFrom (((first :: members).flatMap Member.text).length + 1)
      (.atLine false [] ⟨first.text ++ members.flatMap Member.text, {}⟩) := by
  have hallowed : ((first :: members).flatMap Member.text).dropWhile isAllowed = [] :=
    List.dropWhile_eq_nil_iff.2 (Member.isAllowed_of_mem (first :: members))
  unfold tokens
  rw [String.toList_ofList]
  dsimp only
  rw [hallowed]
  rfl

/-- Members on a line each have the tokens of a block mapping. -/
theorem tokens_members (hshort : ∀ x ∈ first :: members, x.IsShort) :
    tokens (String.ofList ((first :: members).flatMap Member.text)) =
      (⟨.blockMapping, {}, {}⟩ :: Member.tokensFrom {} (first :: members), none) := by
  obtain ⟨hfirst, hlater⟩ := List.forall_mem_cons.1 hshort
  obtain ⟨fuel, hfuel, hlt⟩ : ∃ fuel, ((first :: members).flatMap Member.text).length + 1 =
      fuel + 3 ∧ 3 * members.length < fuel := by
    have hlength := Member.length_texts (first :: members)
    rw [List.length_cons] at hlength
    exact ⟨_, (Nat.sub_add_cancel (by omega)).symm, by omega⟩
  rw [tokens_texts, hfuel, Reader.readFrom_line rfl hfirst (Member.ordinary_head members),
    Reader.readFrom_lines rfl hlater hlt]
  rfl

/-- A key that the colon on the first line does not reach is all that is read. -/
theorem tokens_long_key (hlong : ¬ first.IsShort) :
    tokens (String.ofList ((first :: members).flatMap Member.text)) =
      ([first.keyToken {}], some (.broken .strayValue (first.colon {}) (first.colon {}))) := by
  obtain ⟨fuel, hfuel⟩ : ∃ fuel,
      ((first :: members).flatMap Member.text).length + 1 = fuel + 2 := by
    have hlength := Member.length_texts (first :: members)
    rw [List.length_cons] at hlength
    exact ⟨_, (Nat.sub_add_cancel (by omega)).symm⟩
  rw [tokens_texts, hfuel, Reader.readFrom_long rfl hlong]
  rfl

end

end MusicMacro.Yaml
