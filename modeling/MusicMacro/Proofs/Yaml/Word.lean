import MusicMacro.Yaml.Token.Reader

/-!
Words: letters, digits, underscores and dashes, with a letter or a digit in front. No structure of a
YAML text rests on any of these characters, so a word is read as one plain scalar.
-/

namespace MusicMacro.Yaml

/-- A character that means nothing but itself in a scalar. -/
structure Ordinary (c : Char) : Prop where
  allowed : isAllowed c = true
  not_break : isBreak c = false
  not_white : isWhite c = false
  not_colon : (c == ':') = false
  utf8Size : c.utf8Size = 1

theorem toNat_lt_of_isNameChar {c : Char} (h : isNameChar c = true) : c.toNat < 128 := by
  -- The letters and digits end at characters below 128.
  have hupper (h : c.isUpper = true) : c.val ≤ 'Z'.val := (of_decide_eq_true h).2
  have hlower (h : c.isLower = true) : c.val ≤ 'z'.val :=
    of_decide_eq_true (Bool.and_eq_true_iff.1 h).2
  have hdigit (h : c.isDigit = true) : c.val ≤ '9'.val :=
    of_decide_eq_true (Bool.and_eq_true_iff.1 h).2
  have hcases : (((c.isUpper || c.isLower) || c.isDigit) || c == '_' || c == '-') = true := h
  simp only [Bool.or_eq_true, beq_iff_eq] at hcases
  rcases hcases with (((h | h) | h) | rfl) | rfl
  · exact Nat.lt_of_le_of_lt (UInt32.le_iff_toNat_le.1 (hupper h)) (by decide)
  · exact Nat.lt_of_le_of_lt (UInt32.le_iff_toNat_le.1 (hlower h)) (by decide)
  · exact Nat.lt_of_le_of_lt (UInt32.le_iff_toNat_le.1 (hdigit h)) (by decide)
  · decide
  · decide

theorem ordinary_of_isNameChar {c : Char} (h : isNameChar c = true) : Ordinary c := by
  have hall : ∀ n < 128, isNameChar (Char.ofNat n) = true →
      isAllowed (Char.ofNat n) = true ∧ isBreak (Char.ofNat n) = false ∧
        isWhite (Char.ofNat n) = false ∧ (Char.ofNat n == ':') = false ∧
        (Char.ofNat n).utf8Size = 1 := by decide +kernel
  have hc := hall c.toNat (toNat_lt_of_isNameChar h)
  rw [Char.ofNat_toNat] at hc
  obtain ⟨hallowed, hbreak, hwhite, hcolon, hsize⟩ := hc h
  exact ⟨hallowed, hbreak, hwhite, hcolon, hsize⟩

theorem isNameChar_of_isAlphanum {c : Char} (h : c.isAlphanum = true) : isNameChar c = true := by
  rw [isNameChar, h]
  rfl

/-- A letter or digit is none of the other characters. -/
theorem beq_of_isAlphanum {c d : Char} (h : c.isAlphanum = true) (hd : d.isAlphanum = false) :
    (c == d) = false := by
  rw [beq_eq_false_iff_ne]
  rintro rfl
  rw [h] at hd
  cases hd

theorem atMarker_of_isAlphanum {c : Char} (h : c.isAlphanum = true) (cs : List Char) :
    atMarker (c :: cs) = false := by
  unfold atMarker
  split
  next hcs =>
    obtain ⟨rfl, -⟩ := List.cons.inj hcs
    cases h
  next hcs =>
    obtain ⟨rfl, -⟩ := List.cons.inj hcs
    cases h
  next => rfl

/-- A word as a list of characters. -/
inductive IsWord : List Char → Prop
  | cons {c : Char} {cs : List Char} (hc : c.isAlphanum = true)
      (hcs : ∀ d ∈ cs, isNameChar d = true) : IsWord (c :: cs)

theorem isWord_cons_iff {c : Char} {cs : List Char} :
    IsWord (c :: cs) ↔ (c.isAlphanum && cs.all isNameChar) = true := by
  rw [Bool.and_eq_true, List.all_eq_true]
  constructor
  · rintro ⟨hc, hcs⟩
    exact ⟨hc, hcs⟩
  · rintro ⟨hc, hcs⟩
    exact .cons hc hcs

instance : DecidablePred IsWord
  | [] => isFalse nofun
  | _ :: _ => decidable_of_iff' _ isWord_cons_iff

theorem isWord_of_isAlphanum {w : List Char} (hne : w ≠ []) (h : ∀ c ∈ w, c.isAlphanum = true) :
    IsWord w := by
  cases w with
  | nil => exact absurd rfl hne
  | cons c cs =>
      obtain ⟨hc, hcs⟩ := List.forall_mem_cons.1 h
      exact .cons hc fun d hd => isNameChar_of_isAlphanum (hcs d hd)

theorem IsWord.exists_cons {w : List Char} (h : IsWord w) :
    ∃ c cs, w = c :: cs ∧ c.isAlphanum = true := by
  cases h with
  | cons hc => exact ⟨_, _, rfl, hc⟩

theorem IsWord.ordinary {w : List Char} (h : IsWord w) : ∀ c ∈ w, Ordinary c := by
  cases h with
  | cons hc hcs =>
      rw [List.forall_mem_cons]
      exact ⟨ordinary_of_isNameChar (isNameChar_of_isAlphanum hc),
        fun d hd => ordinary_of_isNameChar (hcs d hd)⟩

namespace Mark

variable {m : Mark} {cs : List Char}

theorem past_line (m : Mark) (cs : List Char) : (m.past cs).line = m.line := by
  induction cs generalizing m with
  | nil => rfl
  | cons c cs ih => exact ih (m.after c)

theorem past_index (h : ∀ c ∈ cs, Ordinary c) (m : Mark) :
    (m.past cs).index = m.index + cs.length := by
  induction cs generalizing m with
  | nil => rfl
  | cons c cs ih =>
      obtain ⟨hc, hcs⟩ := List.forall_mem_cons.1 h
      rw [List.length_cons, Nat.add_comm cs.length, ← Nat.add_assoc, ← hc.utf8Size]
      exact ih hcs (m.after c)

end Mark

namespace Plain

variable {indent : Int} {start stop m : Mark} {done cs rest : List Char}

theorem readFrom_cons {c : Char} (hc : Ordinary c)
    (hm : (m.column == 0 && atMarker (c :: rest)) = false) :
    readFrom false indent start done stop .none m (c :: rest) =
      readFrom false indent start (c :: done) (m.after c) .none (m.after c) rest := by
  have hends : ends false indent .none m c rest = false := by
    rw [ends, hm, hc.not_colon]
    rfl
  have hstray : isStrayColon false c rest = false := by
    cases rest <;> rfl
  rw [readFrom]
  · rw [hc.not_break, hc.not_white, hends, hstray]
    rfl
  · rintro _ rfl -
    exact Bool.false_ne_true hc.not_break.symm

theorem readFrom_append (hcs : ∀ c ∈ cs, Ordinary c) (hm : m.column ≠ 0) :
    readFrom false indent start done m .none m (cs ++ rest) =
      readFrom false indent start (cs.reverse ++ done) (m.past cs) .none (m.past cs) rest := by
  induction cs generalizing done m with
  | nil => rfl
  | cons c cs ih =>
      obtain ⟨hc, hcs⟩ := List.forall_mem_cons.1 hcs
      rw [List.cons_append, readFrom_cons hc (by rw [beq_false_of_ne hm]; rfl),
        ih hcs (Nat.succ_ne_zero _), List.reverse_cons, List.append_assoc]
      rfl

theorem readFrom_word {w : List Char} (hw : IsWord w) :
    readFrom false indent m [] m .none m (w ++ rest) =
      readFrom false indent m w.reverse (m.past w) .none (m.past w) rest := by
  cases hw with
  | @cons c cs hc hcs =>
      have hordinary : ∀ d ∈ cs, Ordinary d := fun d hd => ordinary_of_isNameChar (hcs d hd)
      rw [List.cons_append, readFrom_cons (ordinary_of_isNameChar (isNameChar_of_isAlphanum hc))
        (by rw [atMarker_of_isAlphanum hc, Bool.and_false]),
        readFrom_append hordinary (Nat.succ_ne_zero _), List.reverse_cons]
      rfl

/-- A word in front of a colon and a gap. -/
theorem read_key {w : List Char} (hw : IsWord w) (hrest : atGap rest = true) :
    read false indent ⟨w ++ ':' :: rest, m⟩ =
      .ok ⟨w, m.past w, false, ⟨':' :: rest, m.past w⟩⟩ := by
  rw [read, readFrom_word hw, readFrom]
  · have hends : ends false indent .none (m.past w) ':' rest = true := by
      rw [ends, hrest]
      simp
    rw [hends, List.reverse_reverse]
    rfl
  · intro _ h
    cases h

/-- A word at the end of a line. The next line ends it, as it is not indented. -/
theorem read_value {w : List Char} (hw : IsWord w) (hrest : ∀ c ∈ rest.head?, Ordinary c)
    (hindent : 0 < indent) : read false indent ⟨w ++ '\n' :: rest, m⟩ =
      .ok ⟨w, m.past w, true, ⟨rest, (m.past w).newline 1⟩⟩ := by
  have hline : readFrom false indent m w.reverse (m.past w) (Gap.none.addBreak '\n')
      ((m.past w).newline 1) rest =
        .ok ⟨w, m.past w, true, ⟨rest, (m.past w).newline 1⟩⟩ := by
    cases rest with
    | nil =>
        rw [readFrom, List.reverse_reverse]
        rfl
    | cons c cs =>
        have hc := hrest c rfl
        have hends : ends false indent (Gap.none.addBreak '\n') ((m.past w).newline 1) c cs =
            true := by
          have hcolumn : ((((m.past w).newline 1).column : Int) < indent) := hindent
          rw [ends, decide_eq_true hcolumn]
          rfl
        rw [readFrom]
        · rw [hc.not_break, hc.not_white, hends, List.reverse_reverse]
          rfl
        · rintro _ rfl -
          exact Bool.false_ne_true hc.not_break.symm
  rw [read, readFrom_word hw, readFrom]
  · exact hline
  · intro _ h
    cases h

end Plain

end MusicMacro.Yaml
