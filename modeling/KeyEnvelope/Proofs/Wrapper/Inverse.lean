import KeyEnvelope.Proofs.RecordedService
import KeyEnvelope.Proofs.Wrapper

/-!
# Unwrapping as the inverse of wrapping

A key in the clear is unwrapped to parameters exactly if it is what these are wrapped to
and their key has a length of the cipher (`unwrap_unencrypted_eq_ok`).  A wrapped key is
taken apart in stages (`unwrapStages_of_supports`): its data has to be a text before the
service is asked, and what the service answers is checked after that.  The check with which
unwrapping begins is the one by which a wrapper says what it supports
(`supports_eq_false_iff`).
-/

namespace KeyEnvelope

namespace ContentParameters

variable {parameters : ContentParameters} {key iv : Bytes}

/-- Of the parts of a stored key, the length of the key is checked first. -/
theorem ofStored_eq (key iv : Bytes) : ofStored key iv =
    if Aes.IsKeyLength key.length then
      if iv.length = 16 then .ok ⟨key, Block.ofBytes iv⟩
      else .error (.corruptedContext (.storedIvSize iv.length))
    else .error (.config (.keySize key.length)) := by
  unfold ofStored checkKeyLength Block.ofBytes?
  split
  next =>
    by_cases sixteen : iv.length = 16
    · simp only [if_pos sixteen]
      rfl
    · simp only [if_neg sixteen]
      rfl
  next => rfl

theorem ofStored_eq_ok : ofStored key iv = .ok parameters ↔
    Aes.IsKeyLength parameters.key.length ∧ key = parameters.key ∧
      iv = Block.toBytes parameters.iv := by
  refine ⟨fun made => ?_, fun parts => ?_⟩
  · rw [ofStored_eq] at made
    split at made
    next fits =>
      split at made
      next sixteen =>
        cases made
        exact ⟨fits, rfl, Block.eq_toBytes_iff.mpr ⟨sixteen, rfl⟩⟩
      next => cases made
    next => cases made
  · rcases parts with ⟨fits, rfl, rfl⟩
    exact ofStored_toBytes fits

theorem ofStored_ne_keyManagement (key iv : Bytes) (cause : KeyManagementError) :
    ofStored key iv ≠ .error (.keyManagement cause) := by
  rw [ofStored_eq]
  split
  next => split <;> nofun
  next => nofun

end ContentParameters

namespace KeyWrapper

variable {κ : Type} [KeyService κ] {parameters : ContentParameters} {wrapper : KeyWrapper}
  {stored : StoredKey} {record : WrappedKey} {keyName : String}

/-! ## Refusals -/

/-- What a wrapper does not support it refuses, and asks no service. -/
theorem refused_of_supports_eq_false (service : κ) (other : wrapper.supports stored = false) :
    ∃ cause, wrapper.unwrap stored service = .error (.keyManagement cause) service := by
  cases wrapper with
  | unencrypted =>
    cases stored with
    | plain record =>
      have unnamed : record.algorithm ≠ dataAlgorithm := of_decide_eq_false other
      exact ⟨.notUnencryptedAes, congrFun (if_neg unnamed) service⟩
    | wrapped record => exact ⟨.notUnencryptedAes, rfl⟩
  | transit keyName =>
    cases stored with
    | plain record => exact ⟨.notWrapped, rfl⟩
    | wrapped record =>
      have foreign : record.wrappingAlgorithm ≠ transitAlgorithm ∨
          record.wrappingKeyId ≠ keyName :=
        Decidable.not_and_iff_or_not.mp (of_decide_eq_false other)
      exact ⟨.foreignKey record.wrappingAlgorithm record.wrappingKeyId keyName,
        congrFun (if_pos foreign) service⟩

/-! ## Keys in the clear -/

theorem supports_unencrypted :
    unencrypted.supports stored = true ↔ ∃ record, stored = .plain record ∧
      record.algorithm = dataAlgorithm := by
  cases stored <;> simp [supports]

/-- A key in the clear for the cipher is read, and no service is asked. -/
theorem unwrap_unencrypted_own {record : PlainKey} (named : record.algorithm = dataAlgorithm) :
    (unencrypted.unwrap (.plain record) : EStateM EnvelopeError κ ContentParameters) =
      attempt id (ContentParameters.ofStored record.keyData record.iv) :=
  if_pos named

theorem unwrap_unencrypted_eq_ok {service service' : κ} :
    unwrap unencrypted stored service = .ok parameters service' ↔
      wrap unencrypted parameters service = .ok stored service' ∧
        Aes.IsKeyLength parameters.key.length := by
  refine ⟨fun unwraps => ?_, fun both => ?_⟩
  · cases supported : unencrypted.supports stored with
    | false =>
      obtain ⟨cause, refused⟩ := refused_of_supports_eq_false service supported
      cases unwraps.symm.trans refused
    | true =>
      obtain ⟨⟨algorithm, keyData, data⟩, rfl, named⟩ := supports_unencrypted.mp supported
      rw [unwrap_unencrypted_own named] at unwraps
      rcases attempt_eq_ok.mp unwraps with ⟨made, rfl⟩
      obtain ⟨fits, key, iv⟩ := ContentParameters.ofStored_eq_ok.mp made
      subst named key iv
      exact ⟨rfl, fits⟩
  · obtain ⟨wraps, fits⟩ := both
    have unchanged : service' = service := by
      cases wraps
      rfl
    subst unchanged
    exact (unwrap_of_wrap_unencrypted fits wraps).2

/-! ## Wrapped keys -/

theorem supports_transit :
    (transit keyName).supports stored = true ↔ ∃ record, stored = .wrapped record ∧
      record.wrappingAlgorithm = transitAlgorithm ∧ record.wrappingKeyId = keyName := by
  cases stored <;> simp [supports]

/-- A key of the wrapper's kind and name is taken apart. -/
theorem unwrap_transit_own (algorithm : record.wrappingAlgorithm = transitAlgorithm)
    (name : record.wrappingKeyId = keyName) :
    ((transit keyName).unwrap (.wrapped record) : EStateM EnvelopeError κ ContentParameters) = (do
      let ciphertext ← attempt (fun _ => .corruptedContext .wrappedKeyNotText)
        (Utf8.decode record.encryptedKeyData)
      let text ← KeyService.unwrap keyName ciphertext
      let bytes ← attempt (.keyManagement ∘ .base64) (Base64.decode (Utf8.encode text))
      attempt id (ContentParameters.ofStored bytes record.iv)) :=
  if_neg fun foreign => foreign.elim (absurd algorithm) (absurd name)

/-- A wrapped key gives parameters back exactly if it is of the wrapper's kind and name, its
data is a text that the service unwraps to the base64 text of a key, and key and counter
block are those of the parameters. -/
theorem unwrap_transit_eq_ok {service service' : κ} :
    unwrap (transit keyName) stored service = .ok parameters service' ↔ ∃ record ciphertext,
      stored = .wrapped record ∧ record.wrappingAlgorithm = transitAlgorithm ∧
        record.wrappingKeyId = keyName ∧ record.encryptedKeyData = Utf8.encode ciphertext ∧
        KeyService.unwrap keyName ciphertext service =
          .ok (Base64.encodeText parameters.key) service' ∧
        Aes.IsKeyLength parameters.key.length ∧ record.iv = Block.toBytes parameters.iv := by
  refine ⟨fun unwraps => ?_, fun parts => ?_⟩
  · cases supported : (transit keyName).supports stored with
    | false =>
      obtain ⟨cause, refused⟩ := refused_of_supports_eq_false service supported
      cases unwraps.symm.trans refused
    | true =>
      obtain ⟨record, rfl, algorithm, name⟩ := supports_transit.mp supported
      rw [unwrap_transit_own algorithm name] at unwraps
      simp only [bind_eq_ok, attempt_eq_ok] at unwraps
      rcases unwraps with ⟨ciphertext, _, ⟨decoded, rfl⟩, text, _, asked, bytes, _,
        ⟨spelled, rfl⟩, made, rfl⟩
      obtain ⟨fits, rfl, iv⟩ := ContentParameters.ofStored_eq_ok.mp made
      cases Base64.decode_encode_eq_ok_iff.mp spelled
      exact ⟨record, ciphertext, rfl, algorithm, name, Utf8.eq_encode_of_decode decoded, asked,
        fits, iv⟩
  · rcases parts with ⟨record, ciphertext, rfl, algorithm, name, data, asked, fits, iv⟩
    have spelled : Base64.decode (Utf8.encode (Base64.encodeText parameters.key)) =
        .ok parameters.key := Base64.decode_encode_eq_ok_iff.mpr rfl
    rw [unwrap_transit_own algorithm name, data, Utf8.decode_encode]
    simp only [bind_eq_ok, attempt_eq_ok]
    exact ⟨ciphertext, service, ⟨rfl, rfl⟩, _, service', asked, parameters.key, service',
      ⟨spelled, rfl⟩, ContentParameters.ofStored_eq_ok.mpr ⟨fits, rfl, iv⟩, rfl⟩

/-- How unwrapping a key that is wrapped under a name ends.  Without a text in it no service
is asked.  Otherwise the service is, and of the bytes that it gives back the length is
checked before that of the counter block. -/
structure UnwrapStages (keyName : String) (record : WrappedKey) (service : RecordedService)
    (outcome : EStateM.Result EnvelopeError RecordedService ContentParameters) : Prop where
  notText : (∀ text, record.encryptedKeyData ≠ Utf8.encode text) →
    outcome = .error (.corruptedContext .wrappedKeyNotText) service
  asks : ∀ ciphertext, record.encryptedKeyData = Utf8.encode ciphertext →
    service.AsksFor keyName ciphertext (fun key =>
      if Aes.IsKeyLength key.length then
        if record.iv.length = 16 then .ok ⟨key, Block.ofBytes record.iv⟩
        else .error (.corruptedContext (.storedIvSize record.iv.length))
      else .error (.config (.keySize key.length))) outcome

theorem unwrapStages_of_supports (service : RecordedService)
    (supported : (transit keyName).supports stored = true) :
    ∃ record, stored = .wrapped record ∧
      UnwrapStages keyName record service ((transit keyName).unwrap stored service) := by
  obtain ⟨record, rfl, algorithm, name⟩ := supports_transit.mp supported
  rw [unwrap_transit_own algorithm name]
  refine ⟨record, rfl, fun noText => ?_, fun ciphertext spelled => ?_⟩
  · cases decoded : Utf8.decode record.encryptedKeyData with
    | ok text => exact absurd (Utf8.eq_encode_of_decode decoded) (noText text)
    | error cause => rfl
  · rw [spelled, Utf8.decode_encode]
    simp only [← ContentParameters.ofStored_eq]
    exact RecordedService.asksFor_unwrap service keyName ciphertext _

/-- Either nothing is asked or what is in the key. -/
theorem UnwrapStages.cases {service : RecordedService}
    {outcome : EStateM.Result EnvelopeError RecordedService ContentParameters}
    (stages : UnwrapStages keyName record service outcome) :
    outcome = .error (.corruptedContext .wrappedKeyNotText) service ∨
      ∃ ciphertext, record.encryptedKeyData = Utf8.encode ciphertext ∧
        finalState outcome = service.after (.unwrap keyName ciphertext) := by
  by_cases text : ∃ ciphertext, record.encryptedKeyData = Utf8.encode ciphertext
  · obtain ⟨ciphertext, spelled⟩ := text
    exact .inr ⟨ciphertext, spelled, (stages.asks ciphertext spelled).finalState_eq⟩
  · exact .inl (stages.notText (not_exists.mp text))

/-! ## What is supported -/

/-- A wrapper refuses a key for what it is, and asks no service, exactly if it says that it
does not support it. -/
theorem supports_eq_false_iff (wrapper : KeyWrapper) (stored : StoredKey)
    (service : RecordedService) :
    wrapper.supports stored = false ↔
      ∃ cause, wrapper.unwrap stored service = .error (.keyManagement cause) service := by
  refine ⟨refused_of_supports_eq_false service, fun refused => ?_⟩
  obtain ⟨cause, refused⟩ := refused
  by_contra supported
  rw [Bool.not_eq_false] at supported
  cases wrapper with
  | unencrypted =>
    obtain ⟨record, rfl, named⟩ := supports_unencrypted.mp supported
    rw [unwrap_unencrypted_own named] at refused
    rcases attempt_eq_error.mp refused with ⟨_, made, rfl, -⟩
    exact ContentParameters.ofStored_ne_keyManagement _ _ cause made
  | transit keyName =>
    obtain ⟨record, -, stages⟩ := unwrapStages_of_supports service supported
    rcases stages.cases with unasked | ⟨ciphertext, -, asked⟩
    · cases refused.symm.trans unasked
    -- A service that has been asked is in another state than before.
    · rw [refused] at asked
      exact RecordedService.after_ne service _ asked.symm

/-! ## What is asked and what comes back -/

/-- From one state of a service to another it was asked nothing, or once to unwrap the text
in a wrapped key under the name of its wrapper. -/
def AsksOnce (wrapper : KeyWrapper) (stored : StoredKey) (service service' : RecordedService) :
    Prop :=
  service' = service ∨ ∃ keyName record ciphertext, wrapper = transit keyName ∧
    stored = .wrapped record ∧ record.encryptedKeyData = Utf8.encode ciphertext ∧
    service' = service.after (.unwrap keyName ciphertext)

theorem asksOnce_unwrap (wrapper : KeyWrapper) (stored : StoredKey) (service : RecordedService) :
    wrapper.AsksOnce stored service (finalState (wrapper.unwrap stored service)) := by
  cases supported : wrapper.supports stored with
  | false =>
    obtain ⟨cause, refused⟩ := refused_of_supports_eq_false service supported
    rw [refused]
    exact .inl rfl
  | true =>
    cases wrapper with
    | unencrypted =>
      obtain ⟨record, rfl, named⟩ := supports_unencrypted.mp supported
      rw [unwrap_unencrypted_own named, finalState_attempt]
      exact .inl rfl
    | transit keyName =>
      obtain ⟨record, held, stages⟩ := unwrapStages_of_supports service supported
      rcases stages.cases with unasked | ⟨ciphertext, spelled, asked⟩
      · rw [unasked]
        exact .inl rfl
      · exact .inr ⟨keyName, record, ciphertext, rfl, held, spelled, asked⟩

/-- Parameters that come back have a key of a length of the cipher. -/
theorem isKeyLength_of_unwrap {service service' : κ}
    (unwraps : wrapper.unwrap stored service = .ok parameters service') :
    Aes.IsKeyLength parameters.key.length := by
  cases wrapper with
  | unencrypted => exact (unwrap_unencrypted_eq_ok.mp unwraps).2
  | transit keyName =>
    obtain ⟨_, _, -, -, -, -, -, fits, -⟩ := unwrap_transit_eq_ok.mp unwraps
    exact fits

/-! ## Both directions -/

/-- Unwrapping is the inverse of wrapping.  A key in the clear is unwrapped to the parameters
that it was made of, if their key has a length of the cipher.  Whatever is not supported is
refused for what it is, and only that.  A wrapped key that is supported is unwrapped in
stages, and gives back parameters with the counter block that it holds and the key that the
service answers with.  What wrapping makes is supported, names the key version of the text
in it, and gives the parameters back wherever the service unwraps that text. -/
theorem unwrap_inverts_wrap :
    (∀ {κ : Type} [KeyService κ] (stored : StoredKey) (parameters : ContentParameters)
        (service service' : κ),
      unwrap unencrypted stored service = .ok parameters service' ↔
        wrap unencrypted parameters service = .ok stored service' ∧
          Aes.IsKeyLength parameters.key.length) ∧
    (∀ (wrapper : KeyWrapper) (stored : StoredKey) (service : RecordedService),
      wrapper.supports stored = false ↔
        ∃ cause, wrapper.unwrap stored service = .error (.keyManagement cause) service) ∧
    ∀ (keyName : String) (service service' : RecordedService) (stored : StoredKey),
      ((transit keyName).supports stored = true → ∃ record, stored = .wrapped record ∧
        UnwrapStages keyName record service ((transit keyName).unwrap stored service)) ∧
      (∀ parameters, (transit keyName).unwrap stored service = .ok parameters service' →
        ∃ record ciphertext, stored = .wrapped record ∧
          record.encryptedKeyData = Utf8.encode ciphertext ∧
          service.answer (.unwrap keyName ciphertext) =
            .ok (Base64.encodeText parameters.key) ∧
          service' = service.after (.unwrap keyName ciphertext) ∧
          Aes.IsKeyLength parameters.key.length ∧
          record.iv = Block.toBytes parameters.iv ∧ record.iv.length = 16) ∧
      ∀ parameters, (transit keyName).wrap parameters service = .ok stored service' →
        (transit keyName).supports stored = true ∧
        ∃ record ciphertext version, stored = .wrapped record ∧
          service.answer (.wrap keyName (Base64.encodeText parameters.key)) = .ok ciphertext ∧
          record.encryptedKeyData = Utf8.encode ciphertext ∧
          TransitCiphertext.parseKeyVersion ciphertext = .ok version ∧
          record.wrappingKeyVersion = toString version ∧
          (Aes.IsKeyLength parameters.key.length → ∀ later : RecordedService,
            later.answer (.unwrap keyName ciphertext) = .ok (Base64.encodeText parameters.key) →
            (transit keyName).unwrap stored later =
              .ok parameters (later.after (.unwrap keyName ciphertext))) := by
  refine ⟨fun stored parameters service service' => unwrap_unencrypted_eq_ok,
    supports_eq_false_iff, fun keyName service service' stored => ⟨?_, ?_, ?_⟩⟩
  · exact unwrapStages_of_supports service
  · intro parameters unwraps
    obtain ⟨record, ciphertext, held, -, -, spelled, asked, fits, iv⟩ :=
      unwrap_transit_eq_ok.mp unwraps
    obtain ⟨answered, rfl⟩ := RecordedService.unwrap_eq_ok.mp asked
    exact ⟨record, ciphertext, held, spelled, answered, rfl, fits, iv,
      (Block.eq_toBytes_iff.mp iv).1⟩
  · intro parameters wraps
    have supported := (supports_iff_of_wrap wraps _).mpr rfl
    obtain ⟨ciphertext, version, asked, parsed, rfl⟩ := wrap_transit_eq_ok.mp wraps
    obtain ⟨answered, rfl⟩ := RecordedService.wrap_eq_ok.mp asked
    refine ⟨supported, _, ciphertext, version, rfl, answered, rfl, parsed, rfl, ?_⟩
    intro fits later unwraps
    exact unwrapTransit_transitKey fits (RecordedService.unwrap_eq_ok.mpr ⟨unwraps, rfl⟩)

/-- A key under a twelfth version comes back.  With two bytes for a counter block it fails
after the service was asked, and with a byte in it that is no text before. -/
theorem unwrap_inverts_wrap_twelfth_version :
    let parameters : ContentParameters := ⟨List.replicate 16 7, 0⟩
    let service := RecordedService.ofReplies fun
      | .unwrap _ _ => .ok (Base64.encodeText parameters.key)
      | _ => .ok "vault:v12:x"
    let asked := service.after (.unwrap "k" "vault:v12:x")
    let record : WrappedKey :=
      ⟨"vault-transit", "k", "12", "AES", Utf8.encode "vault:v12:x", Block.toBytes 0⟩
    (transit "k").wrap parameters service =
        .ok (.wrapped record) (service.after (.wrap "k" (Base64.encodeText parameters.key))) ∧
      (transit "k").unwrap (.wrapped record) service = .ok parameters asked ∧
      (transit "k").unwrap (.wrapped { record with iv := [1, 2] }) service =
        .error (.corruptedContext (.storedIvSize 2)) asked ∧
      (transit "k").unwrap (.wrapped { record with encryptedKeyData := [255] }) service =
        .error (.corruptedContext .wrappedKeyNotText) service := by
  intro parameters service asked record
  obtain ⟨-, -, transits⟩ := unwrap_inverts_wrap
  have wraps : (transit "k").wrap parameters service =
      .ok (.wrapped record) (service.after (.wrap "k" (Base64.encodeText parameters.key))) :=
    wrap_transit_eq_ok.mpr ⟨"vault:v12:x", 12, rfl, by rfl, by rfl⟩
  refine ⟨wraps, ?_, ?_, ?_⟩
  · obtain ⟨-, -, made⟩ := transits "k" service _ (.wrapped record)
    obtain ⟨-, _, ciphertext, _, -, answered, -, -, -, back⟩ := made parameters wraps
    cases Except.ok.inj (show Except.ok "vault:v12:x" = _ from answered)
    exact back (by decide) service rfl
  · obtain ⟨stages, -, -⟩ := transits "k" service service (.wrapped { record with iv := [1, 2] })
    obtain ⟨_, held, staged⟩ := stages rfl
    cases held
    exact (staged.asks "vault:v12:x" rfl).spelled parameters.key rfl
  · obtain ⟨stages, -, -⟩ :=
      transits "k" service service (.wrapped { record with encryptedKeyData := [255] })
    obtain ⟨_, held, staged⟩ := stages rfl
    cases held
    refine staged.notText fun text same => ?_
    have broken : (Utf8.decode [255]).toOption = none := by decide +kernel
    rw [show [255] = Utf8.encode text from same, Utf8.decode_encode] at broken
    cases broken

end KeyWrapper

end KeyEnvelope
