/-!
Slices of a text by byte offsets. A slice exists only between offsets that are boundaries of
characters, and then it is the characters between them.
-/

namespace MusicMacro.Text

/-- The part of a text between two byte offsets. It does not exist if they are out of order, or if
one of them is inside a character or behind the text. -/
def slice? (s : String) (start stop : Nat) : Option String :=
  if start ≤ stop ∧ (⟨start⟩ : String.Pos.Raw).IsValid s ∧ (⟨stop⟩ : String.Pos.Raw).IsValid s then
    String.fromUTF8? (s.toByteArray.extract start stop)
  else none

def sliceFrom? (s : String) (start : Nat) : Option String := slice? s start s.utf8ByteSize

theorem isValid_iff {s : String} {offset : Nat} : (⟨offset⟩ : String.Pos.Raw).IsValid s ↔
    ∃ a b, s = a ++ b ∧ offset = a.utf8ByteSize := by
  simp [String.Pos.Raw.isValid_iff_exists_append, String.Pos.Raw.ext_iff]

theorem fromUTF8?_toByteArray (s : String) : String.fromUTF8? s.toByteArray = some s := by
  rw [String.fromUTF8?, dif_pos s.isValidUTF8]
  rfl

theorem slice?_append (a b c : String) :
    slice? (a ++ b ++ c) a.utf8ByteSize (a.utf8ByteSize + b.utf8ByteSize) = some b := by
  have hstart := isValid_iff.2 ⟨a, b ++ c, String.append_assoc, rfl⟩
  have hstop := isValid_iff.2 ⟨a ++ b, c, rfl, (String.utf8ByteSize_append ..).symm⟩
  have hbytes : (a ++ b ++ c).toByteArray.extract a.utf8ByteSize
      (a.utf8ByteSize + b.utf8ByteSize) = b.toByteArray := by
    rw [← String.utf8ByteSize_append, String.toByteArray_append, ← String.size_toByteArray,
      ← String.size_toByteArray, ByteArray.extract_append_size_left, String.toByteArray_append,
      ByteArray.extract_append_eq_right rfl ByteArray.size_append]
  rw [slice?, if_pos ⟨Nat.le_add_right _ _, hstart, hstop⟩, hbytes, fromUTF8?_toByteArray]

/-- A slice is what stands in the text behind as many bytes as its start says. -/
theorem slice?_eq_some {s t : String} {start stop : Nat} : slice? s start stop = some t ↔
    ∃ a c, s = a ++ t ++ c ∧ start = a.utf8ByteSize ∧ stop = start + t.utf8ByteSize := by
  refine ⟨?_, ?_⟩
  · intro h
    by_cases hbounds : start ≤ stop ∧ (⟨start⟩ : String.Pos.Raw).IsValid s ∧
        (⟨stop⟩ : String.Pos.Raw).IsValid s
    · obtain ⟨hle, hstart, hstop⟩ := hbounds
      obtain ⟨a, b, rfl, rfl⟩ := isValid_iff.1 hstart
      have hlast : (⟨stop - a.utf8ByteSize⟩ : String.Pos.Raw).IsValid b := by
        obtain hstop | ⟨-, hstop⟩ := String.Pos.Raw.isValid_append.1 hstop
        · have hge : stop ≤ a.utf8ByteSize := hstop.le_rawEndPos
          rw [Nat.sub_eq_zero_of_le hge]
          exact String.Pos.Raw.isValid_zero
        · exact hstop
      obtain ⟨b, c, rfl, hsize⟩ := isValid_iff.1 hlast
      obtain rfl : stop = a.utf8ByteSize + b.utf8ByteSize := by omega
      rw [← String.append_assoc, slice?_append, Option.some_inj] at h
      subst h
      exact ⟨a, c, String.append_assoc.symm, rfl, rfl⟩
    · rw [slice?, if_neg hbounds] at h
      cases h
  · rintro ⟨a, c, rfl, rfl, rfl⟩
    exact slice?_append a t c

section
variable {s : String} {a b c : List Char}

theorem slice?_of_toList (h : s.toList = a ++ (b ++ c)) :
    slice? s (String.ofList a).utf8ByteSize (String.ofList (a ++ b)).utf8ByteSize =
      some (String.ofList b) := by
  refine slice?_eq_some.2 ⟨String.ofList a, String.ofList c, ?_, rfl, ?_⟩
  · rw [← String.toList_inj, h]
    simp
  · rw [String.ofList_append, String.utf8ByteSize_append]

theorem sliceFrom?_of_toList (h : s.toList = a ++ b) :
    sliceFrom? s (String.ofList a).utf8ByteSize = some (String.ofList b) := by
  have hslice : slice? s (String.ofList a).utf8ByteSize (String.ofList (a ++ b)).utf8ByteSize =
      some (String.ofList b) := slice?_of_toList (by rw [h, List.append_nil])
  rwa [← h, String.ofList_toList] at hslice

end

end MusicMacro.Text
