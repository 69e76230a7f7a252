import Mathlib

/-!
# Characters from bytes

The bytes of a text that are all below 128 are its characters (`chars_eq`). Read off in this way, the characters
of a text that is written out take the kernel far fewer steps than `String.toList`, which finds the length of each
form first.
-/

namespace Polyadic.Text

/-- The characters of a text. -/
def chars (text : String) : List Char :=
  let bytes := text.toByteArray.data.toList
  if bytes.all (· < 128) then bytes.map fun byte => Char.ofNat byte.toNat else text.toList

lemma map_utf8EncodeChar {c : Char} (h : ∀ byte ∈ String.utf8EncodeChar c, byte < 128) :
    (String.utf8EncodeChar c).map (fun byte => Char.ofNat byte.toNat) = [c] := by
  have first (n : Nat) (hn : 128 ≤ n ∧ n < 256) : ¬ UInt8.ofNat n < 128 := by
    rw [UInt8.lt_iff_toNat_lt, UInt8.toNat_ofNat', Nat.mod_eq_of_lt hn.2, Nat.not_lt]
    exact hn.1
  unfold String.utf8EncodeChar at h ⊢
  dsimp only at h ⊢
  split
  · rename_i ascii
    have value : c.val.toNat % 2 ^ 8 = c.toNat := Nat.mod_eq_of_lt (by omega)
    rw [List.map_singleton, UInt8.toNat_ofNat', value, Char.ofNat_toNat]
  -- The first byte of a longer form is 128 or more.
  · rename_i other
    rw [if_neg other] at h
    split at h
    · exact absurd (h _ List.mem_cons_self) (first _ (by omega))
    · split at h
      · exact absurd (h _ List.mem_cons_self) (first _ (by omega))
      · exact absurd (h _ List.mem_cons_self) (first _ (by omega))

theorem chars_eq (text : String) : chars text = text.toList := by
  have bytes : text.toByteArray.data.toList = text.toList.flatMap String.utf8EncodeChar := by
    rw [← String.ofList_toList (s := text), String.toByteArray_ofList, String.toList_ofList, List.utf8Encode,
      List.data_toByteArray]
  unfold chars
  rw [bytes]
  dsimp only
  split
  · rename_i ascii
    have single (c : Char) (hc : c ∈ text.toList) :
        (String.utf8EncodeChar c).map (fun byte => Char.ofNat byte.toNat) = [c] := by
      refine map_utf8EncodeChar fun byte hbyte => ?_
      exact of_decide_eq_true (List.all_eq_true.mp ascii byte (List.mem_flatMap.mpr ⟨c, hc, hbyte⟩))
    rw [List.map_flatMap, List.flatMap_congr single, List.flatMap_singleton']
  · rfl

end Polyadic.Text
