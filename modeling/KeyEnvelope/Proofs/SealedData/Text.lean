import KeyEnvelope.Proofs.SealedData
import KeyEnvelope.Proofs.Text.Alphabet

/-!
# The texts of sealed data

The base64 text of sealed data does not show where the nonce ends.  It is read with a nonce of
twelve bytes whatever the length of the one that was written (`ofBase64_encodeText`), so sealed
data comes back exactly if its nonce has that length and there is a tag.  What is read has one
text, and a text that base64 does not write is refused for that (`ofBase64_canonical`).
-/

namespace KeyEnvelope.SealedData

variable {text : String} {data : SealedData}

theorem ofBase64_toBase64_iff : ofBase64 data.toBase64 = .ok data ↔
    data.nonce.length = nonceSize ∧ Gcm.tagSize ≤ data.ciphertext.length := by
  rw [ofBase64_eq_ok, and_iff_right rfl]

/-- A text is read exactly if base64 writes it, with characters for a nonce and a tag. -/
theorem exists_ofBase64_iff : (∃ data, ofBase64 text = .ok data) ↔
    ∃ characters padding, text.toList = characters ++ List.replicate padding '=' ∧
      Base64.Written characters padding ∧ 28 ≤ 3 * characters.length / 4 := by
  refine ⟨fun read => ?_, fun written => ?_⟩
  · obtain ⟨data, read⟩ := read
    obtain ⟨form, nonce, tagged⟩ := ofBase64_eq_ok.mp read
    obtain ⟨characters, padding, whole, written, size⟩ :=
      Base64.exists_eq_encodeText_iff.mp ⟨_, rfl, form⟩
    refine ⟨characters, padding, whole, written, ?_⟩
    rw [← size, List.length_append, nonce]
    exact Nat.add_le_add_left tagged _
  · obtain ⟨characters, padding, whole, written, room⟩ := written
    obtain ⟨bytes, size, rfl⟩ :=
      Base64.exists_eq_encodeText_iff.mpr ⟨characters, padding, whole, written, rfl⟩
    rw [← size] at room
    exact ⟨_, (ofBase64_encodeText bytes).trans (if_neg (Nat.not_lt.mpr room))⟩

/-- A text that base64 does not write is refused as such. -/
theorem ofBase64_of_unwritten
    (unwritten : ∀ characters padding, text.toList = characters ++ List.replicate padding '=' →
      ¬ Base64.Written characters padding) : ∃ defect, ofBase64 text = .error (.base64 defect) := by
  cases decoded : Base64.decode (Utf8.encode text) with
  | ok bytes =>
    have spelled := Base64.decode_encode_eq_ok_iff.mp decoded
    obtain ⟨characters, padding, whole, written, -⟩ :=
      Base64.exists_eq_encodeText_iff.mp ⟨bytes, rfl, spelled⟩
    exact absurd written (unwritten characters padding whole)
  | error defect =>
    refine ⟨defect, Outcome.bind_eq_error.mpr (.inl ?_)⟩
    exact Outcome.mapError_eq_error.mpr ⟨defect, decoded, rfl⟩

/-- Sealed data comes back from its text exactly if its nonce has twelve bytes and there are
sixteen for a tag; otherwise the same bytes come back cut behind the twelfth, or there are too
few of them.  A text that is read is the text of what is read, and no other text is read as
that.  Texts are read exactly if base64 writes them, long enough, and the ones that it does not
write are refused for a defect. -/
theorem ofBase64_canonical :
    (∀ data : SealedData,
      (ofBase64 data.toBase64 = .ok data ↔
        data.nonce.length = 12 ∧ 16 ≤ data.ciphertext.length) ∧
      (28 ≤ data.nonce.length + data.ciphertext.length →
        ofBase64 data.toBase64 = .ok ⟨(data.nonce ++ data.ciphertext).take 12,
          (data.nonce ++ data.ciphertext).drop 12⟩) ∧
      (data.nonce.length + data.ciphertext.length < 28 →
        ofBase64 data.toBase64 = .error .sealedDataTooShort)) ∧
    (∀ text data, ofBase64 text = .ok data →
      data.toBase64 = text ∧ ∀ other, ofBase64 other = .ok data → other = text) ∧
    (∀ text : String, (∃ data, ofBase64 text = .ok data) ↔
      ∃ characters padding, text.toList = characters ++ List.replicate padding '=' ∧
        Base64.Written characters padding ∧ 28 ≤ 3 * characters.length / 4) ∧
    ∀ text : String, (∀ characters padding,
        text.toList = characters ++ List.replicate padding '=' →
        ¬ Base64.Written characters padding) →
      ∃ defect, ofBase64 text = .error (.base64 defect) := by
  refine ⟨fun data => ⟨ofBase64_toBase64_iff, fun room => ?_, fun short => ?_⟩,
    fun text data read => ?_, fun text => exists_ofBase64_iff,
    fun text => ofBase64_of_unwritten⟩
  · rw [← List.length_append] at room
    exact (ofBase64_encodeText _).trans (if_neg (Nat.not_lt.mpr room))
  · rw [← List.length_append] at short
    exact (ofBase64_encodeText _).trans (if_pos short)
  · have form := (ofBase64_eq_ok.mp read).1
    exact ⟨form.symm, fun other read' => (ofBase64_eq_ok.mp read').1.trans form.symm⟩

/-- A nonce of thirteen bytes loses the last one to the ciphertext, one of eleven bytes is
too short for a tag, and two characters alone are no text. -/
theorem ofBase64_canonical_thirteenth_byte :
    let data : SealedData := ⟨List.replicate 13 1, List.replicate 15 2⟩
    let short : SealedData := ⟨List.replicate 11 1, List.replicate 16 2⟩
    let cut : SealedData := ⟨List.replicate 12 1, 1 :: List.replicate 15 2⟩
    ofBase64 data.toBase64 = .ok cut ∧ ofBase64 data.toBase64 ≠ .ok data ∧
      cut.toBase64 = data.toBase64 ∧ ofBase64 short.toBase64 = .error .sealedDataTooShort ∧
      ∃ defect, ofBase64 "QQ" = .error (.base64 defect) := by
  intro data short cut
  obtain ⟨splits, unique, -, refuses⟩ := ofBase64_canonical
  have read : ofBase64 data.toBase64 = .ok cut := (splits data).2.1 (by decide)
  refine ⟨read, fun same => ?_, (unique _ cut read).1, (splits short).2.2 (by decide), ?_⟩
  · have nonce := ((splits data).1.mp same).1
    exact absurd nonce (by decide)
  · refine refuses "QQ" fun characters padding whole written => ?_
    have length := congrArg List.length whole
    have groups := written.fills.whole
    rw [List.length_append, List.length_replicate] at length
    rw [List.length_map, ← length] at groups
    exact absurd groups (by decide)

end KeyEnvelope.SealedData
