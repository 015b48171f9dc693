import KeyEnvelope.Proofs.Engine.Stages
import KeyEnvelope.Proofs.Text.Report
import KeyEnvelope.Proofs.Wrapper.Inverse

/-!
# What a failure shows of the key

Where the answer of a key service spells no bytes, decrypting and unwrapping fail with a
report on the answer, which is the text of a key or was one (`exists_failsWith`).  The report
is the same whatever was decrypted, and it shows a byte of the answer and its place unless the
answer is merely cut short.  So two answers of one length are told apart by it exactly if
something else is wrong with them (`failures_agree_iff`).
-/

namespace KeyEnvelope

open Base64 (Faulty Shows EndsEarly Alike)

variable {κ α : Type} [KeyService κ] {service service' : κ} {keyName wrapped text text' : String}
  {defect defect' : Base64.Malformed} {e : EnvelopeError}

theorem message_base64 (defect : Base64.Malformed) :
    (EnvelopeError.keyManagement (.base64 defect)).message =
      "Key management error: Base64 decode error: " ++ defect.message := by
  change "Key management error: " ++ ("Base64 decode error: " ++ defect.message) = _
  rw [← String.append_assoc]
  rfl

theorem message_base64_inj : (EnvelopeError.keyManagement (.base64 defect)).message =
    (EnvelopeError.keyManagement (.base64 defect')).message ↔ defect = defect' := by
  rw [message_base64, message_base64, String.append_right_inj, Base64.Malformed.message_inj]

/-! ## Reports on an answer -/

/-- Whatever is decrypted or unwrapped, it ends with a failure once the service has answered
with a text. -/
structure FailsWith (text : String) (e : EnvelopeError) : Prop where
  decrypt : ∀ {κ ρ : Type} [KeyService κ] (engine : Engine) (context : Bytes) (ciphertext : ρ)
    (offset : UInt64) (keyName wrapped : String) (nonce : Nonce) (service service' : κ),
    Context.decode engine.settings.contextFormat context = .ok ⟨Utf8.encode wrapped, nonce⟩ →
    KeyService.unwrap keyName wrapped service = .ok text service' →
    engine.decrypt context ciphertext offset keyName service = .error e service'
  unwrap : ∀ {κ : Type} [KeyService κ] (keyName wrapped : String) (record : WrappedKey)
    (service service' : κ), (KeyWrapper.transit keyName).supports (.wrapped record) = true →
    record.encryptedKeyData = Utf8.encode wrapped →
    KeyService.unwrap keyName wrapped service = .ok text service' →
    (KeyWrapper.transit keyName).unwrap (.wrapped record) service = .error e service'

theorem unwrap_bind_of_faulty (faulty : Faulty (Utf8.encode text) defect)
    (answered : KeyService.unwrap keyName wrapped service = .ok text service')
    (rest : Bytes → EStateM EnvelopeError κ α) :
    (do
      let text ← KeyService.unwrap keyName wrapped
      let bytes ← attempt (.keyManagement ∘ .base64) (Base64.decode (Utf8.encode text))
      rest bytes) service = .error (.keyManagement (.base64 defect)) service' := by
  have reported := Base64.decode_eq_error_iff.mpr faulty
  rw [bind_of_ok answered]
  exact bind_of_error (attempt_eq_error.mpr ⟨defect, reported, rfl, rfl⟩)

theorem failsWith_of_faulty (faulty : Faulty (Utf8.encode text) defect) :
    FailsWith text (.keyManagement (.base64 defect)) where
  decrypt engine context ciphertext offset keyName wrapped nonce service service' decoded
      answered := by
    rw [Engine.decrypt_of_text decoded]
    exact unwrap_bind_of_faulty faulty answered _
  unwrap keyName wrapped record service service' supported held answered := by
    obtain ⟨_, ⟨⟩, algorithm, name⟩ := KeyWrapper.supports_transit.mp supported
    rw [KeyWrapper.unwrap_transit_own algorithm name, held]
    refine (bind_of_ok (attempt_eq_ok.mpr ⟨Utf8.decode_encode wrapped, rfl⟩)).trans ?_
    exact unwrap_bind_of_faulty faulty answered _

/-- What a failure shows of a text: a byte of it and its place, or no more than its length. -/
structure Exposes (text : Bytes) (e : EnvelopeError) : Prop where
  shown : ∀ byte offset, Shows text byte offset → text[offset]? = some byte ∧
    ∃ kind ∈ ["Invalid symbol ", "Invalid last symbol "], e.message =
      "Key management error: Base64 decode error: " ++
        (kind ++ toString byte.toNat ++ ", offset " ++ toString offset ++ ".")
  hidden : EndsEarly text → ∃ kind ∈ ["Invalid padding",
      "Invalid input length: " ++ toString text.length],
    e.message = "Key management error: Base64 decode error: " ++ kind
  either : EndsEarly text ∨ ∃ byte offset, Shows text byte offset

theorem exposes_of_faulty {text : Bytes} (faulty : Faulty text defect) :
    Exposes text (.keyManagement (.base64 defect)) where
  shown byte offset shows := by
    refine ⟨shows.getElem?, ?_⟩
    obtain ⟨found, faulty', shown⟩ := shows
    cases faulty.unique faulty'
    cases defect with
    | symbol =>
      cases shown
      exact ⟨"Invalid symbol ", by simp, message_base64 _⟩
    | lastSymbol =>
      cases shown
      exact ⟨"Invalid last symbol ", by simp, message_base64 _⟩
    | length => cases shown
    | padding => cases shown
  hidden cut := by
    have hidden := faulty.shown?_eq_none_iff.mpr cut
    cases defect with
    | symbol => cases hidden
    | lastSymbol => cases hidden
    | length count =>
      obtain ⟨rfl, -⟩ := faulty.eq_length
      exact ⟨"Invalid input length: " ++ toString text.length, by simp, message_base64 _⟩
    | padding => exact ⟨"Invalid padding", by simp, message_base64 _⟩
  either := by
    cases shown : defect.shown? with
    | none => exact .inl (faulty.shown?_eq_none_iff.mp shown)
    | some place => exact .inr ⟨place.1, place.2, defect, faulty, shown⟩

theorem exists_failsWith (rejected : ∀ bytes, Base64.decode (Utf8.encode text) ≠ .ok bytes) :
    ∃ defect, Faulty (Utf8.encode text) defect ∧
      FailsWith text (.keyManagement (.base64 defect)) := by
  cases decoded : Base64.decode (Utf8.encode text) with
  | ok bytes => exact absurd decoded (rejected bytes)
  | error defect =>
    have faulty := Base64.decode_eq_error_iff.mp decoded
    exact ⟨defect, faulty, failsWith_of_faulty faulty⟩

/-- Two symbols, where two more are missing. -/
theorem faulty_symbols : Faulty (Utf8.encode "AB") .padding :=
  Base64.decode_eq_error_iff.mp (by rfl)

theorem faulty_exclamation : Faulty (Utf8.encode "A!") (.symbol 33 1) :=
  Base64.decode_eq_error_iff.mp (by rfl)

/-- Two answers of one length that spell no bytes end in the same failure, and in the same
words, exactly if both are merely cut short or the same byte is wrong at the same place.  A
failure shows that byte and its place, and nothing of an answer that is cut short. -/
theorem failures_agree_iff (rejected : ∀ bytes, Base64.decode (Utf8.encode text) ≠ .ok bytes)
    (rejected' : ∀ bytes, Base64.decode (Utf8.encode text') ≠ .ok bytes)
    (length : (Utf8.encode text).length = (Utf8.encode text').length) :
    ∃ e e', FailsWith text e ∧ FailsWith text' e' ∧
      (e = e' ↔ Alike (Utf8.encode text) (Utf8.encode text')) ∧
      (e.message = e'.message ↔ Alike (Utf8.encode text) (Utf8.encode text')) ∧
      Exposes (Utf8.encode text) e ∧ Exposes (Utf8.encode text') e' := by
  obtain ⟨defect, faulty, fails⟩ := exists_failsWith rejected
  obtain ⟨defect', faulty', fails'⟩ := exists_failsWith rejected'
  have alike := faulty.eq_iff_alike faulty' length
  refine ⟨_, _, fails, fails', ?_, message_base64_inj.trans alike, exposes_of_faulty faulty,
    exposes_of_faulty faulty'⟩
  rw [← alike, EnvelopeError.keyManagement.injEq, KeyManagementError.base64.injEq]

/-- Of two symbols nothing is shown, and they fail as two others do.  Of an exclamation mark
behind a symbol it is shown that it is there. -/
theorem failures_agree_of_two_symbols :
    (∃ e, FailsWith "AB" e ∧ FailsWith "CD" e) ∧
      ∃ e e', FailsWith "AB" e ∧ FailsWith "A!" e' ∧ e.message ≠ e'.message ∧
        Exposes (Utf8.encode "A!") e' ∧ Shows (Utf8.encode "A!") 33 1 := by
  refine ⟨?_, ?_⟩
  · have faulty : Faulty (Utf8.encode "CD") .padding := Base64.decode_eq_error_iff.mp (by rfl)
    have alike := (faulty_symbols.eq_iff_alike faulty rfl).mp rfl
    obtain ⟨e, e', fails, fails', same, -⟩ :=
      failures_agree_iff faulty_symbols.decode_ne_ok faulty.decode_ne_ok rfl
    exact ⟨e, fails, same.mpr alike ▸ fails'⟩
  · obtain ⟨e, e', fails, fails', -, words, -, exposed⟩ :=
      failures_agree_iff faulty_symbols.decode_ne_ok faulty_exclamation.decode_ne_ok rfl
    refine ⟨e, e', fails, fails', fun same => ?_, exposed, ⟨_, faulty_exclamation, rfl⟩⟩
    cases (faulty_symbols.eq_iff_alike faulty_exclamation rfl).mpr (words.mp same)

/-- Not all answers of one length that spell no bytes end in the same failure, neither when
content is decrypted nor when a key is unwrapped. -/
theorem not_failures_agree :
    (¬ ∀ (engine : Engine) (context : Bytes) (ciphertext : Source) (offset : UInt64)
        (keyName wrapped text text' : String) (nonce : Nonce)
        (service service' : RecordedService),
      Context.decode engine.settings.contextFormat context = .ok ⟨Utf8.encode wrapped, nonce⟩ →
      service.answer (.unwrap keyName wrapped) = .ok text →
      service'.answer (.unwrap keyName wrapped) = .ok text' →
      (∀ bytes, Base64.decode (Utf8.encode text) ≠ .ok bytes) →
      (∀ bytes, Base64.decode (Utf8.encode text') ≠ .ok bytes) →
      (Utf8.encode text).length = (Utf8.encode text').length →
      ∃ e after after',
        engine.decrypt context ciphertext offset keyName service = .error e after ∧
        engine.decrypt context ciphertext offset keyName service' = .error e after') ∧
    ¬ ∀ (keyName wrapped text text' : String) (record : WrappedKey)
        (service service' : RecordedService),
      (KeyWrapper.transit keyName).supports (.wrapped record) = true →
      record.encryptedKeyData = Utf8.encode wrapped →
      service.answer (.unwrap keyName wrapped) = .ok text →
      service'.answer (.unwrap keyName wrapped) = .ok text' →
      (∀ bytes, Base64.decode (Utf8.encode text) ≠ .ok bytes) →
      (∀ bytes, Base64.decode (Utf8.encode text') ≠ .ok bytes) →
      (Utf8.encode text).length = (Utf8.encode text').length →
      ∃ e after after',
        (KeyWrapper.transit keyName).unwrap (.wrapped record) service = .error e after ∧
        (KeyWrapper.transit keyName).unwrap (.wrapped record) service' = .error e after' := by
  let answering (text : String) : RecordedService := .ofReplies fun _ => .ok text
  have unwraps (text : String) : KeyService.unwrap "k" "wrapped" (answering text) =
      .ok text ((answering text).after (.unwrap "k" "wrapped")) :=
    RecordedService.unwrap_eq_ok.mpr ⟨rfl, rfl⟩
  have symbols := failsWith_of_faulty faulty_symbols
  have exclamation := failsWith_of_faulty faulty_exclamation
  refine ⟨fun agree => ?_, fun agree => ?_⟩
  · let engine : Engine := ⟨⟨"k", .lengthPrefixed, 128⟩, rfl⟩
    let nonce : Nonce := ⟨List.replicate 12 9, rfl⟩
    let split : Context := ⟨Utf8.encode "wrapped", nonce⟩
    have encoded : Context.encode .lengthPrefixed split = .ok _ :=
      Context.encode_lengthPrefixed_eq_ok.mpr ⟨by decide, rfl⟩
    have decoded := Context.decode_of_encode _ (Utf8.encode_ne_nil (by decide)) encoded
    obtain ⟨e, _, _, failed, failed'⟩ := agree engine _ ⟨[], []⟩ 0 "k" "wrapped" "AB" "A!" nonce
      (answering "AB") (answering "A!") decoded rfl rfl faulty_symbols.decode_ne_ok
      faulty_exclamation.decode_ne_ok rfl
    cases failed.symm.trans (symbols.decrypt engine _ _ 0 "k" _ nonce _ _ decoded (unwraps "AB"))
    cases failed'.symm.trans
      (exclamation.decrypt engine _ _ 0 "k" _ nonce _ _ decoded (unwraps "A!"))
  · let record : WrappedKey :=
      { wrappingAlgorithm := KeyWrapper.transitAlgorithm, wrappingKeyId := "k",
        encryptedKeyData := Utf8.encode "wrapped" }
    have supported : (KeyWrapper.transit "k").supports (.wrapped record) = true :=
      KeyWrapper.supports_transit.mpr ⟨record, rfl, rfl, rfl⟩
    obtain ⟨e, _, _, failed, failed'⟩ := agree "k" "wrapped" "AB" "A!" record
      (answering "AB") (answering "A!") supported rfl rfl rfl faulty_symbols.decode_ne_ok
      faulty_exclamation.decode_ne_ok rfl
    cases failed.symm.trans (symbols.unwrap "k" _ record _ _ supported rfl (unwraps "AB"))
    cases failed'.symm.trans (exclamation.unwrap "k" _ record _ _ supported rfl (unwraps "A!"))

end KeyEnvelope
