import KeyEnvelope.SealedData
import KeyEnvelope.Proofs.Keystream
import KeyEnvelope.Proofs.Text.Canonical

/-!
# Opening what was sealed

Under the key, the nonce and the associated data that it was sealed under, a text comes
back (`plaintext_ofPlaintext`), and so does sealed data from its base64 form
(`ofBase64_toBase64`).  Nothing else is opened (`plaintext_eq_ok`) or read
(`ofBase64_eq_ok`).
-/

namespace KeyEnvelope

theorem Gcm.openText?_sealText (cipher : Block → Block) (nonce : Nonce) (aad text : Bytes) :
    openText? cipher nonce aad (sealText cipher nonce aad text) = some text := by
  have length_tag : (tag cipher nonce aad (transform cipher nonce text)).length = tagSize :=
    Block.length_toBytes _
  have length : (sealText cipher nonce aad text).length - tagSize =
      (transform cipher nonce text).length := by
    rw [sealText, List.length_append, length_tag, Nat.add_sub_cancel]
  have long : tagSize ≤ (sealText cipher nonce aad text).length := by
    rw [sealText, List.length_append, length_tag]
    exact Nat.le_add_left ..
  unfold openText?
  dsimp only
  rw [length, sealText, List.take_left, List.drop_left, ← sealText, if_pos ⟨long, rfl⟩]
  exact congrArg some (Counter.apply_apply ..)

/-- A message opens to the text that it is the sealed form of, and to no other. -/
theorem Gcm.openText?_eq_some {cipher : Block → Block} {nonce : Nonce}
    {aad message text : Bytes} :
    openText? cipher nonce aad message = some text ↔ message = sealText cipher nonce aad text := by
  refine ⟨fun opened => ?_, fun sealed => sealed ▸ openText?_sealText cipher nonce aad text⟩
  unfold openText? at opened
  dsimp only at opened
  split at opened
  next right =>
    have transformed := Option.some.inj opened
    have back := Counter.apply_apply cipher (nonce.counterBlock + 2) 0
      (message.take (message.length - tagSize))
    rw [← transform, ← transform, transformed] at back
    rw [sealText, back, ← right.2, List.take_append_drop]
  next => cases opened

namespace SealedData

theorem plaintext_ofPlaintext (key : SealingKey) (nonce : Nonce) (aad text : Bytes) :
    (ofPlaintext key nonce aad text).plaintext key aad = .ok text := by
  unfold ofPlaintext plaintext
  dsimp only
  rw [Nonce.ofBytes?_bytes]
  dsimp only
  rw [Gcm.openText?_sealText]

/-- The text of a byte string is cut behind the length of a nonce, if there is room for a tag. -/
theorem ofBase64_encodeText (bytes : Bytes) : ofBase64 (Base64.encodeText bytes) =
    if bytes.length < nonceSize + Gcm.tagSize then .error .sealedDataTooShort
    else .ok ⟨bytes.take nonceSize, bytes.drop nonceSize⟩ := by
  unfold ofBase64
  rw [Base64.encode_encodeText, Base64.decode_encode]
  rfl

theorem ofBase64_toBase64 {data : SealedData} (nonce : data.nonce.length = nonceSize)
    (tagged : Gcm.tagSize ≤ data.ciphertext.length) : ofBase64 data.toBase64 = .ok data := by
  have long : ¬ (data.nonce ++ data.ciphertext).length < nonceSize + Gcm.tagSize := by
    rw [List.length_append, nonce]
    omega
  rw [toBase64, ofBase64_encodeText, if_neg long, ← nonce, List.take_left, List.drop_left]

/-- What was sealed comes back from its base64 form. -/
theorem ofBase64_ofPlaintext (key : SealingKey) (nonce : Nonce) (aad text : Bytes) :
    ofBase64 (ofPlaintext key nonce aad text).toBase64 = .ok (ofPlaintext key nonce aad text) := by
  refine ofBase64_toBase64 nonce.length_eq ?_
  rw [ofPlaintext, Gcm.sealText, List.length_append, Gcm.tag, Block.length_toBytes]
  exact Nat.le_add_left ..

/-! ## All that is opened -/

variable {key : SealingKey} {aad text : Bytes} {data : SealedData} {cause : KeyManagementError}

/-- Data opens to a text exactly if it was sealed from the text, under any nonce. -/
theorem plaintext_eq_ok : data.plaintext key aad = .ok text ↔
    ∃ nonce, data = ofPlaintext key nonce aad text := by
  refine ⟨fun opened => ?_, fun sealed => ?_⟩
  · unfold plaintext at opened
    split at opened
    next => cases opened
    next nonce read =>
      split at opened
      next => cases opened
      next found unsealed =>
        cases opened
        have message := Gcm.openText?_eq_some.mp unsealed
        refine ⟨nonce, ?_⟩
        rw [ofPlaintext, ← message, ← Nonce.of_ofBytes? read]
  · obtain ⟨nonce, rfl⟩ := sealed
    exact plaintext_ofPlaintext key nonce aad text

theorem plaintext_eq_error (sized : data.nonce.length = nonceSize)
    (failed : data.plaintext key aad = .error cause) : cause = .authentication := by
  unfold plaintext at failed
  rw [Nonce.ofBytes?, dif_pos sized] at failed
  dsimp only at failed
  split at failed <;> cases failed
  rfl

/-- A text is read as the sealed data whose base64 form it is, with room for a nonce and a
tag. -/
theorem ofBase64_eq_ok {text : String} : ofBase64 text = .ok data ↔
    text = data.toBase64 ∧ data.nonce.length = nonceSize ∧
      Gcm.tagSize ≤ data.ciphertext.length := by
  refine ⟨fun read => ?_, fun form => form.1 ▸ ofBase64_toBase64 form.2.1 form.2.2⟩
  obtain ⟨bytes, decoded, read⟩ := Outcome.bind_eq_ok.mp read
  obtain ⟨long, read⟩ := Outcome.check_eq_ok.mp read
  cases read
  have spelled := Base64.decode_encode_eq_ok_iff.mp (Outcome.mapError_eq_ok.mp decoded)
  refine ⟨?_, ?_, ?_⟩
  · rw [toBase64, List.take_append_drop, spelled]
  · rw [List.length_take]
    omega
  · rw [List.length_drop]
    omega

theorem ofBase64_eq_error {text : String} (failed : ofBase64 text = .error cause) :
    (∃ defect, cause = .base64 defect) ∨ cause = .sealedDataTooShort := by
  rcases Outcome.bind_eq_error.mp failed with undecoded | ⟨bytes, -, failed⟩
  · obtain ⟨defect, -, rfl⟩ := Outcome.mapError_eq_error.mp undecoded
    exact .inl ⟨defect, rfl⟩
  · split at failed <;> cases failed
    exact .inr rfl

/-- A key of the right size passes the check of key bytes. -/
theorem decrypt_bytes (key : SealingKey) (aad : Bytes) (data : SealedData) :
    decrypt key.bytes aad data = (data.plaintext key aad).mapError .keyManagement := by
  unfold decrypt keyOfBytes
  rw [dif_pos key.length_eq]
  rfl

end SealedData

end KeyEnvelope
