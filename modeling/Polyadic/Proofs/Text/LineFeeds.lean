import Mathlib

/-!
# Line feeds in bytes

The UTF-8 form of a text has as many line feeds as the text (`lineFeeds_toUTF8`): a line feed is one byte,
and no other character has this byte in its form.
-/

namespace Polyadic.Text

/-- How many line feeds there are in bytes. -/
def lineFeeds (bytes : ByteArray) : Nat :=
  bytes.data.count 10

lemma lineFeeds_append (first second : ByteArray) :
    lineFeeds (first ++ second) = lineFeeds first + lineFeeds second := by
  rw [lineFeeds, ByteArray.data_append, Array.count_append, lineFeeds, lineFeeds]

/-- A part of bytes without a line feed has none. -/
lemma lineFeeds_extract {bytes : ByteArray} (h : lineFeeds bytes = 0) (start stop : Nat) :
    lineFeeds (bytes.extract start stop) = 0 := by
  rw [lineFeeds, Array.count_eq_zero] at h ⊢
  rw [ByteArray.data_extract, ← Array.mem_toList_iff, Array.toList_extract]
  exact fun mem => h (Array.mem_toList_iff.mp (List.mem_of_mem_drop (List.mem_of_mem_take mem)))

lemma count_utf8EncodeChar (c : Char) :
    (String.utf8EncodeChar c).count 10 = if c = '\n' then 1 else 0 := by
  split
  · rename_i feed
    rw [feed]
    decide
  · rename_i other
    rw [List.count_eq_zero]
    have value : c.val.toNat ≠ 10 := fun same => other (Char.toNat_inj.mp same)
    intro mem
    -- Only the forms of one byte reach down to the byte of a line feed.
    have bytes (n : Nat) (h : (10 : UInt8) = UInt8.ofNat n) : 10 = n % 256 := congrArg UInt8.toNat h
    unfold String.utf8EncodeChar at mem
    dsimp only at mem
    split at mem
    · have := bytes _ (List.mem_singleton.mp mem)
      omega
    · split at mem
      · simp only [List.mem_cons, List.not_mem_nil, or_false] at mem
        obtain mem | mem := mem <;> have := bytes _ mem <;> omega
      · split at mem
        · simp only [List.mem_cons, List.not_mem_nil, or_false] at mem
          obtain mem | mem | mem := mem <;> have := bytes _ mem <;> omega
        · simp only [List.mem_cons, List.not_mem_nil, or_false] at mem
          obtain mem | mem | mem | mem := mem <;> have := bytes _ mem <;> omega

lemma lineFeeds_utf8Encode (chars : List Char) : lineFeeds chars.utf8Encode = chars.count '\n' := by
  induction chars with
  | nil => rfl
  | cons c chars ih =>
    have own : lineFeeds [c].utf8Encode = (String.utf8EncodeChar c).count 10 := by
      simp [lineFeeds, List.utf8Encode]
    rw [List.utf8Encode_cons, lineFeeds_append, ih, own, count_utf8EncodeChar, List.count_cons, Nat.add_comm]
    simp only [beq_iff_eq]

/-- The bytes of a text have as many line feeds as the text. -/
theorem lineFeeds_toUTF8 (text : String) : lineFeeds text.toUTF8 = text.toList.count '\n' := by
  have chars : text.toUTF8 = text.toList.utf8Encode := by
    rw [← String.toByteArray_ofList, String.ofList_toList, String.toUTF8_eq_toByteArray]
  rw [chars, lineFeeds_utf8Encode]

end Polyadic.Text
