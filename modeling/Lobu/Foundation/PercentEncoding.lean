import Lobu.Foundation.Text

namespace Lobu.Foundation

/-! # Percent encoding

`encodeURIComponent` on texts without lone surrogates: a reader takes every
encoded text back to its bytes, so no two texts are encoded alike.
-/

/-- The characters that `encodeURIComponent` leaves as they are. -/
def isUnreserved (c : Char) : Bool :=
  decide (48 ≤ c.toNat ∧ c.toNat ≤ 57 ∨ 65 ≤ c.toNat ∧ c.toNat ≤ 90 ∨
    97 ≤ c.toNat ∧ c.toNat ≤ 122) ||
    ['-', '_', '.', '!', '~', '*', '\'', '(', ')'].contains c

def upperHexDigit (value : Nat) : Char :=
  Char.ofNat (if value < 10 then 48 + value else 55 + value)

def percentEncodedByte (byte : UInt8) : List Char :=
  ['%', upperHexDigit (byte.toNat / 16), upperHexDigit (byte.toNat % 16)]

def percentEncodedChar (c : Char) : List Char :=
  if isUnreserved c then [c] else (String.utf8EncodeChar c).flatMap percentEncodedByte

def encodeURIComponent (text : String) : String :=
  String.ofList (text.toList.flatMap percentEncodedChar)

example : encodeURIComponent "a b/ü" = "a%20b%2F%C3%BC" := by decide

/-- What an encoded text is made of. -/
def isEncodedChar (c : Char) : Bool :=
  isUnreserved c || c == '%'

theorem isUnreserved_ascii {c : Char} (plain : isUnreserved c = true) : c.toNat < 128 := by
  simp only [isUnreserved, Bool.or_eq_true, decide_eq_true_eq, List.contains_eq_mem,
    List.mem_cons, List.not_mem_nil, or_false] at plain
  rcases plain with letter | rfl | rfl | rfl | rfl | rfl | rfl | rfl | rfl | rfl
  · omega
  all_goals decide

theorem upperHexDigit_unreserved {value : Nat} (small : value < 16) : isUnreserved (upperHexDigit value) = true := by
  have digits : ∀ digit : Fin 16, isUnreserved (upperHexDigit digit.val) = true := by decide
  exact digits ⟨value, small⟩

theorem percentEncodedByte_chars (byte : UInt8) : ∀ c ∈ percentEncodedByte byte, isEncodedChar c = true := by
  have size := byte.toNat_lt
  have high := upperHexDigit_unreserved (show byte.toNat / 16 < 16 by omega)
  have low := upperHexDigit_unreserved (show byte.toNat % 16 < 16 by omega)
  intro c member
  simp only [percentEncodedByte, List.mem_cons, List.not_mem_nil, or_false] at member
  rcases member with rfl | rfl | rfl
  · rfl
  · simp [isEncodedChar, high]
  · simp [isEncodedChar, low]

theorem percentEncodedChar_chars (c : Char) : ∀ other ∈ percentEncodedChar c, isEncodedChar other = true := by
  intro other member
  rw [percentEncodedChar] at member
  split at member
  · rename_i plain
    rw [List.mem_singleton] at member
    subst other
    simp [isEncodedChar, plain]
  · obtain ⟨byte, _, written⟩ := List.mem_flatMap.mp member
    exact percentEncodedByte_chars byte other written

theorem encodeURIComponent_chars (text : String) :
    ∀ c ∈ (encodeURIComponent text).toList, isEncodedChar c = true := by
  intro c member
  rw [encodeURIComponent, String.toList_ofList] at member
  obtain ⟨source, _, written⟩ := List.mem_flatMap.mp member
  exact percentEncodedChar_chars source c written

def upperHexValue (digit : Char) : Nat :=
  if digit.toNat < 58 then digit.toNat - 48 else digit.toNat - 55

def percentDecoded : List Char → List UInt8
  | '%' :: high :: low :: rest =>
    UInt8.ofNat (upperHexValue high * 16 + upperHexValue low) :: percentDecoded rest
  | c :: rest => UInt8.ofNat c.toNat :: percentDecoded rest
  | [] => []

theorem upperHexValue_upperHexDigit {value : Nat} (small : value < 16) :
    upperHexValue (upperHexDigit value) = value := by
  have digits : ∀ digit : Fin 16, upperHexValue (upperHexDigit digit.val) = digit.val := by decide
  exact digits ⟨value, small⟩

theorem percentDecoded_byte (byte : UInt8) (rest : List Char) :
    percentDecoded (percentEncodedByte byte ++ rest) = byte :: percentDecoded rest := by
  have size := byte.toNat_lt
  have value : byte.toNat / 16 * 16 + byte.toNat % 16 = byte.toNat := by omega
  rw [percentEncodedByte, List.cons_append, List.cons_append, List.cons_append, List.nil_append,
    percentDecoded, upperHexValue_upperHexDigit (by omega), upperHexValue_upperHexDigit (by omega), value,
    UInt8.ofNat_toNat]

theorem percentDecoded_bytes (bytes : List UInt8) (rest : List Char) :
    percentDecoded (bytes.flatMap percentEncodedByte ++ rest) = bytes ++ percentDecoded rest := by
  induction bytes with
  | nil => rfl
  | cons byte bytes ih =>
    rw [List.flatMap_cons, List.append_assoc, percentDecoded_byte, ih, List.cons_append]

theorem percentDecoded_char (c : Char) (rest : List Char) :
    percentDecoded (percentEncodedChar c ++ rest) = String.utf8EncodeChar c ++ percentDecoded rest := by
  rw [percentEncodedChar]
  split
  · rename_i plain
    have small := isUnreserved_ascii plain
    have other : c ≠ '%' := by
      rintro rfl
      cases plain
    have encoded : String.utf8EncodeChar c = [UInt8.ofNat c.toNat] := by
      have code : c.val.toNat ≤ 127 := by
        change c.toNat ≤ 127
        omega
      simp only [String.utf8EncodeChar, if_pos code]
      rfl
    rw [List.singleton_append, percentDecoded, encoded, List.singleton_append]
    intro high low tail percent _
    exact other percent
  · exact percentDecoded_bytes _ rest

theorem percentDecoded_encoded (text : List Char) :
    percentDecoded (text.flatMap percentEncodedChar) = text.flatMap String.utf8EncodeChar := by
  induction text with
  | nil => rfl
  | cons c text ih =>
    rw [List.flatMap_cons, percentDecoded_char, ih, List.flatMap_cons]

theorem encodeURIComponent_injective : Function.Injective encodeURIComponent := by
  intro first second same
  have encoded := congrArg String.toList same
  rw [encodeURIComponent, encodeURIComponent, String.toList_ofList, String.toList_ofList] at encoded
  have bytes := congrArg percentDecoded encoded
  rw [percentDecoded_encoded, percentDecoded_encoded] at bytes
  have arrays : first.toList.utf8Encode = second.toList.utf8Encode :=
    congrArg List.toByteArray bytes
  apply String.toByteArray_inj.mp
  simpa using arrays

end Lobu.Foundation
