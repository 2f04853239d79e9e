import Registrar.Text.Basic

/-! Texts as UTF-8 bytes. -/

namespace Registrar.Text

def encode (t : Text) : List UInt8 := (String.ofList t).toUTF8.data.toList

def decode? (bytes : List UInt8) : Option Text :=
  (String.fromUTF8? ⟨bytes.toArray⟩).map String.toList

private theorem fromUTF8?_toUTF8 (s : String) : String.fromUTF8? s.toUTF8 = some s :=
  dif_pos s.isValidUTF8

theorem decode?_encode (t : Text) : decode? (encode t) = some t := by
  rw [decode?, encode, Array.toArray_toList, fromUTF8?_toUTF8]
  simp

theorem encode_nil : encode [] = [] := by
  rw [encode, String.toUTF8_eq_toByteArray]
  rfl

theorem encode_cons (c : Char) (t : Text) :
    encode (c :: t) = String.utf8EncodeChar c ++ encode t := by
  simp only [encode, String.toUTF8_eq_toByteArray, String.toByteArray_ofList, List.utf8Encode,
    List.data_toByteArray, List.toList_toArray, List.flatMap_cons]

/-- The first byte of a character: below `0x80` it is the number of the character. -/
theorem exists_utf8EncodeChar (c : Char) : ∃ byte more, String.utf8EncodeChar c = byte :: more ∧
    (byte.toNat < 0x80 → Char.ofNat byte.toNat = c) := by
  have hlead : ∀ n, 0x80 ≤ n → n < 0x100 → ¬ (UInt8.ofNat n).toNat < 0x80 := by
    intro n hlow hhigh
    rw [UInt8.toNat_ofNat', Nat.mod_eq_of_lt hhigh]
    exact Nat.not_lt.mpr hlow
  simp only [String.utf8EncodeChar]
  split
  · rename_i hascii
    refine ⟨_, _, rfl, fun _ => ?_⟩
    rw [UInt8.toNat_ofNat', Nat.mod_eq_of_lt (by omega)]
    exact Char.ofNat_toNat c
  · split
    · exact ⟨_, _, rfl, fun hlow => absurd hlow (hlead _ (by omega) (by omega))⟩
    · split
      · exact ⟨_, _, rfl, fun hlow => absurd hlow (hlead _ (by omega) (by omega))⟩
      · exact ⟨_, _, rfl, fun hlow => absurd hlow (hlead _ (by omega) (by omega))⟩

end Registrar.Text
