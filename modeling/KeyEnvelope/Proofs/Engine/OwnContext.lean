import KeyEnvelope.Proofs.Engine.RoundTrip

/-!
# Contexts that the engine reads itself

What an encryption hands out is read back by its own engine if the key service wrapped
the data key into some text (`decode_of_encode_text`).  A service that answers with the
empty text is not found out when the content is encrypted under the layout with the
length in front, but the context is refused ever after.
-/

namespace KeyEnvelope.Engine

variable {engine : Engine} {key : KeyMaterial engine.settings.keyLength} {nonce : Nonce}
  {context : Bytes}

/-! ## Contexts -/

/-- Without a wrapped key, a context is written only with the length in front. -/
theorem contextFormat_of_encode_empty
    (encoded : Context.encode engine.settings.contextFormat ⟨[], nonce⟩ = .ok context) :
    engine.settings.contextFormat = .lengthPrefixed := by
  have room := Settings.contextFormat_ne_of_validate engine.valid
  cases layout : engine.settings.contextFormat with
  | fixed length =>
    rw [layout] at encoded room
    have empty : 0 = length := Context.length_of_encode_fixed encoded
    exact absurd (congrArg ContextFormat.fixed empty.symm) room
  | lengthPrefixed => rfl

/-- What is written of a wrapped text is read back unless the text is empty. -/
theorem decode_of_encode_text {format : ContextFormat} {wrapped : String}
    (encoded : Context.encode format ⟨Utf8.encode wrapped, nonce⟩ = .ok context) :
    Context.decode format context =
      if wrapped = "" then .error .emptyWrappedKey else .ok ⟨Utf8.encode wrapped, nonce⟩ := by
  split
  next empty =>
    subst empty
    exact Context.decode_of_encode_empty rfl encoded
  next nonempty => exact Context.decode_of_encode _ (Utf8.encode_ne_nil nonempty) encoded

/-- A context that is refused cannot be decrypted under any service, and none is asked. -/
theorem decrypt_of_decode_error {σ ρ : Type} [KeyService σ] {cause : ContextError}
    (refused : Context.decode engine.settings.contextFormat context = .error cause)
    (stored : ρ) (offset : UInt64) (keyName : String) (later : σ) :
    engine.decrypt context stored offset keyName later =
      .error (.corruptedContext cause) later := by
  unfold decrypt decryptDecoded
  rw [refused]
  rfl

/-! ## Encryptions -/

variable {κ : Type} [KeyService κ] {keyName : String} {service service' : κ}

/-- The context of an encryption reads as the text that the key service wrapped and the
nonce that the stream begins with, exactly if that text is not empty; then the content is
decrypted wherever the text unwraps to the data key.  An empty text passes only with the
length in front, and its content cannot be decrypted. -/
theorem decode_of_encrypt {source : Source} {stream : CounterReader Source}
    (encrypted : engine.encrypt key nonce source keyName service = .ok (stream, context) service') :
    ∃ created wrapped,
      KeyService.createKey keyName service = .ok () created ∧
      KeyService.wrap keyName (Base64.encodeText key.bytes) created = .ok wrapped service' ∧
      CounterReader.start source key.bytes nonce.counterBlock = .ok stream ∧
      Context.decode engine.settings.contextFormat context =
        (if wrapped = "" then .error .emptyWrappedKey else .ok ⟨Utf8.encode wrapped, nonce⟩) ∧
      (wrapped = "" → engine.settings.contextFormat = .lengthPrefixed ∧
        ∀ {σ ρ : Type} [KeyService σ] (stored : ρ) (offset : UInt64) (later : σ),
          engine.decrypt context stored offset keyName later =
            .error (.corruptedContext .emptyWrappedKey) later) ∧
      (wrapped ≠ "" → ∀ plaintext, source.Delivers plaintext →
        ∃ ciphertext : Bytes,
          (∀ sizes, (∀ i, 0 < sizes i) → (Reader.drain sizes stream).1 = (ciphertext, none)) ∧
          ∀ {σ : Type} [KeyService σ] (later last : σ),
            KeyService.unwrap keyName wrapped later = .ok (Base64.encodeText key.bytes) last →
            ∀ (offset : UInt64) (stored : Source),
              stored.Delivers (ciphertext.drop (blockStart offset).toNat) →
              ∃ reader, engine.decrypt context stored offset keyName later = .ok reader last ∧
                ∀ sizes, (∀ i, 0 < sizes i) →
                  (Reader.drain sizes reader).1 = (plaintext.drop offset.toNat, none)) := by
  obtain ⟨created, wrapped, make, wrap, encoded, started⟩ := encrypt_eq_ok.mp encrypted
  have decoded := decode_of_encode_text encoded
  refine ⟨created, wrapped, make, wrap, started, decoded, fun empty => ?_, fun nonempty => ?_⟩
  · subst empty
    refine ⟨contextFormat_of_encode_empty encoded, fun stored offset later => ?_⟩
    exact decrypt_of_decode_error decoded stored offset keyName later
  · rw [if_neg nonempty] at decoded
    intro plaintext delivers
    refine ⟨Counter.apply (cipherOf key.bytes) nonce.counterBlock 0 plaintext,
      fun sizes positive => drain_stream delivers started positive, ?_⟩
    intro σ _ later last unwrap offset stored stored_delivers
    obtain ⟨reader, decrypted, opened⟩ := decrypt_of_decode decoded unwrap stored offset
    exact ⟨reader, decrypted, fun sizes positive => drain_opened opened stored_delivers positive⟩

theorem decode_of_encrypt_returning :
    ∃ stream context service',
      encrypt ⟨⟨"a", .lengthPrefixed, 128⟩, rfl⟩ ⟨List.replicate 16 7, rfl⟩
          ⟨List.replicate 12 9, rfl⟩ (⟨[.data [104, 105]], []⟩ : Source) "a"
          (RecordedService.returning "key") = .ok (stream, context) service' ∧
      Context.decode .lengthPrefixed context =
        .ok ⟨Utf8.encode "wrapped", ⟨List.replicate 12 9, rfl⟩⟩ := by
  obtain ⟨stream, context, service', encrypted⟩ :=
    @exists_encrypt_returning ⟨⟨"a", .lengthPrefixed, 128⟩, rfl⟩ ⟨List.replicate 16 7, rfl⟩
      ⟨List.replicate 12 9, rfl⟩ "a" _ rfl (⟨[.data [104, 105]], []⟩ : Source) "key"
  obtain ⟨_, _, make, wrap, -, decoded, -⟩ := decode_of_encrypt encrypted
  cases make
  cases wrap
  exact ⟨stream, context, _, encrypted, decoded⟩

/-- An engine does not always read back the contexts that it hands out. -/
theorem not_decode_of_encrypt :
    ¬ ∀ (engine : Engine) (key : KeyMaterial engine.settings.keyLength) (nonce : Nonce)
        (source : Source) (keyName : String) (service service' : RecordedService)
        (stream : CounterReader Source) (context : Bytes),
      engine.encrypt key nonce source keyName service = .ok (stream, context) service' →
      ∃ decoded, Context.decode engine.settings.contextFormat context = .ok decoded := by
  intro reads
  have encoded : Context.encode .lengthPrefixed ⟨Utf8.encode "", ⟨List.replicate 12 9, rfl⟩⟩ =
      .ok (List.replicate 4 0 ++ List.replicate 12 9) := rfl
  have refused := Context.decode_of_encode_empty rfl encoded
  obtain ⟨decoded, read⟩ := reads ⟨⟨"a", .lengthPrefixed, 128⟩, rfl⟩ ⟨List.replicate 16 7, rfl⟩
    ⟨List.replicate 12 9, rfl⟩ ⟨[], []⟩ "a" (RecordedService.ofReplies fun _ => .ok "") _ _ _
    (encrypt_eq_ok.mpr ⟨_, "", rfl, rfl, encoded, CounterReader.start_eq_ok.mpr
      ⟨by decide, rfl⟩⟩)
  cases refused.symm.trans read

end KeyEnvelope.Engine
