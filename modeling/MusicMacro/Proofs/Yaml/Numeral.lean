import MusicMacro.Yaml.Scalar

/-!
Numerals. A number in decimal digits, as it is written, is read as that number: it has no sign and
no base, and no zero is put in front.
-/

namespace MusicMacro.Yaml

variable {n : Nat} {cs : List Char}

theorem digit?_eq {c : Char} (h : c.isDigit = true) : digit? 10 c = some (c.toNat - '0'.toNat) := by
  obtain ⟨hlow, hhigh⟩ := Bool.and_eq_true_iff.1 h
  have hc : '0' ≤ c ∧ c ≤ '9' := ⟨of_decide_eq_true hlow, of_decide_eq_true hhigh⟩
  have hle : c.toNat ≤ 57 := UInt32.le_iff_toNat_le.1 hc.2
  have hlt : c.toNat - '0'.toNat < 10 := Nat.lt_succ_of_le (Nat.sub_le_of_le_add hle)
  rw [digit?, if_pos hc, Option.filter_some, if_pos (decide_eq_true hlt)]

/-- A run of digits writes the number that they make. -/
theorem number?_eq (hne : cs ≠ []) (h : ∀ c ∈ cs, c.isDigit = true) :
    number? 10 cs = some (Nat.ofDigitChars 10 cs 0) := by
  have hvalues : cs.mapM (digit? 10) = some (cs.map fun c => c.toNat - '0'.toNat) := by
    clear hne
    induction cs with
    | nil => rfl
    | cons c cs ih =>
        obtain ⟨hc, hcs⟩ := List.forall_mem_cons.1 h
        rw [List.mapM_cons, digit?_eq hc, ih hcs]
        rfl
  rw [number?, hvalues, if_neg (by simpa using hne), Option.map_some, List.foldl_map,
    Nat.ofDigitChars_eq_foldl]

/-- No number is written with a zero in front of other digits. -/
theorem toDigits_ne_zero_cons (n : Nat) (d : Char) (ds : List Char) :
    Nat.toDigits 10 n ≠ '0' :: d :: ds := by
  induction n using Nat.strongRecOn generalizing d ds with
  | ind n ih =>
      intro h
      rw [Nat.toDigits_eq_if (by decide)] at h
      split at h
      · simp at h
      next hn =>
        have hlt : n / 10 < n := Nat.div_lt_self (by omega) (by decide)
        have hvalue := Nat.ofDigitChars_ten_toDigits (n := n / 10)
        cases hfront : Nat.toDigits 10 (n / 10) with
        | nil => exact Nat.toDigits_ne_nil hfront
        | cons e es =>
            rw [hfront, List.cons_append] at h
            obtain ⟨rfl, -⟩ := List.cons.inj h
            cases es with
            | nil =>
                rw [hfront] at hvalue
                have hzero : Nat.ofDigitChars 10 ['0'] 0 = 0 := rfl
                omega
            | cons e' es' => exact ih (n / 10) hlt e' es' hfront

theorem isDigit_of_mem_toDigits {c : Char} (h : c ∈ Nat.toDigits 10 n) : c.isDigit = true :=
  Nat.isDigit_of_mem_toDigits (by decide) (by decide) h

theorem toDigits_ne_cons (n : Nat) {c : Char} (hc : c.isDigit = false) (cs : List Char) :
    Nat.toDigits 10 n ≠ c :: cs := by
  intro h
  have hdigit := isDigit_of_mem_toDigits (n := n) (h ▸ List.mem_cons_self)
  rw [hc] at hdigit
  cases hdigit

theorem magnitude?_toDigits (n : Nat) : magnitude? (Nat.toDigits 10 n) = some n := by
  have hbased : based (Nat.toDigits 10 n) = none := by
    unfold based
    split
    next h => exact absurd h (toDigits_ne_zero_cons n _ _)
    next h => exact absurd h (toDigits_ne_zero_cons n _ _)
    next h => exact absurd h (toDigits_ne_zero_cons n _ _)
    next => rfl
  have hsign : (Decimal.sign (Nat.toDigits 10 n)).2 = Nat.toDigits 10 n := by
    unfold Decimal.sign
    split
    next h => exact absurd h (toDigits_ne_cons n (by decide) _)
    next h => exact absurd h (toDigits_ne_cons n (by decide) _)
    next => rfl
  have hpadded : isZeroPadded (Nat.toDigits 10 n) = false := by
    rw [isZeroPadded, hsign]
    split
    next h => exact absurd h (toDigits_ne_zero_cons n _ _)
    next => rfl
  rw [magnitude?, hbased, hpadded,
    number?_eq Nat.toDigits_ne_nil fun c hc => isDigit_of_mem_toDigits hc,
    Nat.ofDigitChars_ten_toDigits]
  rfl

/-- A number as it is written is read back. -/
theorem unsigned?_repr (n : Nat) : unsigned? (Nat.repr n) = some n := by
  rw [unsigned?, Nat.toList_repr]
  split
  next h => exact absurd h (toDigits_ne_cons n (by decide) _)
  next => exact magnitude?_toDigits n

end MusicMacro.Yaml
