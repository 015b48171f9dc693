import Mathlib.Algebra.Order.Floor.Div
import Mathlib.Data.Nat.Digits.Lemmas
import KeyEnvelope.Proofs.Text.Base64
import KeyEnvelope.Proofs.Transit.Retention

/-!
# How long wrapped texts are

A wrapped text is the scheme, the decimal number of a version and the base64 form of a nonce,
a ciphertext as long as what was wrapped, and a tag.  All of it is one byte a character, so
its length follows from the number of digits and the length of what was wrapped
(`TransitStore.length_issued`), and what is wrapped of a data key is base64 once more
(`TransitStore.length_issued_encodeText`).
-/

namespace KeyEnvelope

/-! ## Text -/

namespace Utf8

theorem encode_append (a b : String) : encode (a ++ b) = encode a ++ encode b := by
  rw [encode, String.toByteArray_append, ByteArray.data_append, Array.toList_append]
  rfl

/-- A text of characters that take one byte each is as long in bytes. -/
theorem length_encode_ofList {text : List Char} (single : ∀ c ∈ text, c.utf8Size = 1) :
    (encode (String.ofList text)).length = text.length := by
  induction text with
  | nil => rfl
  | cons c text ih =>
    have rest := ih fun c' member => single c' (List.mem_cons_of_mem c member)
    have first : (encode (String.ofList [c])).length = 1 := by
      rw [encode, String.toByteArray_ofList, List.utf8Encode_singleton, List.data_toByteArray,
        String.length_utf8EncodeChar, single c List.mem_cons_self]
    rw [← List.singleton_append, String.ofList_append, encode_append, List.length_append, first,
      rest, List.length_append, List.length_singleton]

end Utf8

/-- A number other than zero is written with its decimal digits. -/
theorem Decimal.length_encode_toString {n : Nat} (positive : 0 < n) :
    (Utf8.encode (toString n)).length = (Nat.digits 10 n).length := by
  have single : ∀ c ∈ Nat.toDigits 10 n, c.utf8Size = 1 := by
    intro c member
    have digit := Nat.isDigit_of_mem_toDigits (by decide) (by decide) member
    simp only [Char.isDigit, Bool.and_eq_true, decide_eq_true_eq] at digit
    exact Char.utf8Size_eq_one_iff.mpr (UInt32.le_trans digit.2 (by decide))
  rw [Nat.toString_eq_ofList_toDigits, Utf8.length_encode_ofList single]
  refine eq_of_forall_ge_iff fun k => ?_
  rcases Nat.eq_zero_or_pos k with rfl | some_digit
  · have written : 0 < (Nat.toDigits 10 n).length := Nat.length_toDigits_pos
    rw [Nat.digits_length_le_iff (by decide)]
    omega
  · rw [Nat.length_toDigits_le_iff (by decide) some_digit, Nat.digits_length_le_iff (by decide)]

theorem Base64.length_encode_ceilDiv (bytes : Bytes) :
    (encode bytes).length = 4 * (bytes.length ⌈/⌉ 3) := by
  rw [length_encode, Nat.ceilDiv_eq_add_pred_div]
  rfl

/-! ## Wrapped texts -/

/-- The base64 form of what was sealed holds a nonce and a tag besides. -/
theorem SealedData.length_toBase64 (key : SealingKey) (nonce : Nonce) (aad plaintext : Bytes) :
    (Utf8.encode (ofPlaintext key nonce aad plaintext).toBase64).length =
      4 * ((28 + plaintext.length) ⌈/⌉ 3) := by
  have sealed : ((ofPlaintext key nonce aad plaintext).nonce ++
      (ofPlaintext key nonce aad plaintext).ciphertext).length = 28 + plaintext.length := by
    simp only [ofPlaintext, Gcm.sealText, Gcm.transform, Gcm.tag, List.length_append,
      Counter.length_apply, Block.length_toBytes, nonce.length_eq, nonceSize]
    omega
  rw [toBase64, Base64.encode_encodeText, Base64.length_encode_ceilDiv, sealed]

namespace TransitStore

variable {version : KeyVersion}

theorem length_issued (positive : 0 < version.number) (name : String) (nonce : Nonce)
    (text : String) : (Utf8.encode (issued version name nonce text)).length =
      8 + (Nat.digits 10 version.number).length +
        4 * ((28 + (Utf8.encode text).length) ⌈/⌉ 3) := by
  have parts : issued version name nonce text = "vault:v" ++ toString version.number ++ ":" ++
      (SealedData.ofPlaintext version.material nonce (Utf8.encode name)
        (Utf8.encode text)).toBase64 := by
    rw [← String.toList_inj, issued, TransitCiphertext.render, String.toList_ofList]
    simp [TransitCiphertext.scheme]
  have scheme : (Utf8.encode "vault:v").length = 7 := by decide
  have colon : (Utf8.encode ":").length = 1 := by decide
  simp only [parts, Utf8.encode_append, List.length_append, scheme, colon,
    Decimal.length_encode_toString positive, SealedData.length_toBase64]
  omega

/-- The length of what is wrapped of a data key: by its own length, and by the number of
digits of the version. -/
def wrappedKeyLength (version keyLength : Nat) : Nat :=
  8 + (Nat.digits 10 version).length + 4 * ((28 + 4 * (keyLength ⌈/⌉ 3)) ⌈/⌉ 3)

theorem length_issued_encodeText (positive : 0 < version.number) (name : String) (nonce : Nonce)
    (key : Bytes) : (Utf8.encode (issued version name nonce (Base64.encodeText key))).length =
      wrappedKeyLength version.number key.length := by
  rw [length_issued positive, Base64.encode_encodeText, Base64.length_encode_ceilDiv]
  rfl

end TransitStore

end KeyEnvelope
