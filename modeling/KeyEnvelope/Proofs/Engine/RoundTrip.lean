import KeyEnvelope.RecordedService
import KeyEnvelope.Proofs.Context
import KeyEnvelope.Proofs.Engine.Opening
import KeyEnvelope.Proofs.Reader.Skipping
import KeyEnvelope.Proofs.Text.Base64

/-!
# Decrypting what was encrypted

Content that was encrypted is decrypted from any offset on (`drain_opened`).  How the
content, its ciphertext and the requests for either are cut into pieces does not show,
and of the key service it is enough that unwrapping returns the text that was wrapped
(`decrypt_of_encrypt_eq_ok`).
-/

namespace KeyEnvelope

theorem Utf8.encode_ne_nil {text : String} (nonempty : text ≠ "") : encode text ≠ [] := by
  intro empty
  have decoded := decode_encode text
  rw [empty] at decoded
  exact nonempty (Except.ok.inj (decoded.symm.trans (decode_encode "")))

variable {κ : Type} [KeyService κ]

/-- What a service wraps from one state on is not empty, and the service unwraps it to
the same text at a later state. -/
def KeyService.Returns (keyName text : String) (service later : κ) : Prop :=
  ∀ created wrapped wrappedAt, createKey keyName service = .ok () created →
    wrap keyName text created = .ok wrapped wrappedAt →
    wrapped ≠ "" ∧ ∃ last, unwrap keyName wrapped later = .ok text last

namespace RecordedService

/-- The service that unwraps everything to one text. -/
def returning (text : String) : RecordedService :=
  ofReplies fun
    | .unwrap _ _ => .ok text
    | _ => .ok "wrapped"

theorem returns_returning (keyName text : String) :
    KeyService.Returns keyName text (returning text) (returning text) := by
  intro created wrapped wrappedAt make wrap
  cases make
  cases wrap
  exact ⟨by decide, _, rfl⟩

end RecordedService

namespace Engine

open ScriptedReader (script)

variable {engine : Engine} {key : KeyMaterial engine.settings.keyLength} {nonce : Nonce}
  {keyName : String} {service service' later : κ} {plaintext : Bytes}

/-! ## The stream -/

/-- A stream at the start of the keystream reads as the ciphertext of what its source
delivers. -/
theorem drain_stream {iv : Block} {bytes : Bytes} {source : Source} {stream : CounterReader Source}
    (delivers : source.Delivers plaintext)
    (started : CounterReader.start source bytes iv = .ok stream)
    {sizes : Nat → Nat} (positive : ∀ i, 0 < sizes i) :
    (Reader.drain sizes stream).1 = (Counter.apply (cipherOf bytes) iv 0 plaintext, none) := by
  rcases CounterReader.start_eq_ok.mp started with ⟨-, begun⟩
  have steady : (script stream).Steady := by
    rw [begun]
    exact delivers.steady.underKeystream _ _ 0
  have content : (script stream).content = Counter.apply (cipherOf bytes) iv 0 plaintext := by
    rw [CounterReader.content_script, begun, Source.script_eq, delivers.content]
    rfl
  have account :=
    ScriptedReader.account (ρ := CounterReader Source) Script.Steady.of_answer And.left
  rw [account.drain ScriptedReader.answers positive steady, content]

/-! ## The reader -/

/-- A reader that was opened on the ciphertext from the block of its offset on reads as
the plaintext from the offset on. -/
theorem drain_opened {parameters : ContentParameters} {offset : UInt64} {stored : Source}
    {reader : DecryptingReader Source}
    (opened : openAt parameters offset stored = .ok reader)
    (delivers : stored.Delivers ((Counter.apply (cipherOf parameters.key) parameters.iv 0
      plaintext).drop (blockStart offset).toNat))
    {sizes : Nat → Nat} (positive : ∀ i, 0 < sizes i) :
    (Reader.drain sizes reader).1 = (plaintext.drop offset.toNat, none) := by
  have steady := steady_of_openAt opened delivers.steady
  rw [SkippingReader.steady_account.drain SkippingReader.answers positive steady,
    content_drop_pending_of_openAt opened delivers.content]

/-! ## Both together -/

/-- A context that reads as a wrapped text and a nonce decrypts to both, if the service
unwraps the text to a data key. -/
theorem decrypt_of_decode {ρ : Type} {context : Bytes} {wrapped : String} {last : κ}
    (decoded : Context.decode engine.settings.contextFormat context =
      .ok ⟨Utf8.encode wrapped, nonce⟩)
    (unwrap : KeyService.unwrap keyName wrapped later = .ok (Base64.encodeText key.bytes) last)
    (stored : ρ) (offset : UInt64) :
    ∃ reader, engine.decrypt context stored offset keyName later = .ok reader last ∧
      openAt ⟨key.bytes, nonce.counterBlock⟩ offset stored = .ok reader := by
  have fits := isKeyLength key
  obtain ⟨reader, opened⟩ : ∃ reader,
      openAt ⟨key.bytes, nonce.counterBlock⟩ offset stored = .ok reader :=
    openAt_of_isKeyLength fits offset stored
  refine ⟨reader, decrypt_eq_ok.mpr ?_, opened⟩
  refine ⟨_, wrapped, _, key.bytes, decoded, ?_, unwrap, ?_, opened⟩
  · rw [Context.wrappedKeyText, Utf8.decode_encode]
    rfl
  · rw [Base64.encode_encodeText, Base64.decode_encode]

/-- The context that an encryption returns decrypts to the data key and the nonce of the
encryption, wherever the content is opened. -/
theorem decrypt_of_encrypt_eq_ok {ρ ρ' : Type} {source : ρ} {stream : CounterReader ρ}
    {context : Bytes}
    (returns : KeyService.Returns keyName (Base64.encodeText key.bytes) service later)
    (encrypted : engine.encrypt key nonce source keyName service = .ok (stream, context) service')
    (stored : ρ') (offset : UInt64) :
    ∃ reader last, engine.decrypt context stored offset keyName later = .ok reader last ∧
      openAt ⟨key.bytes, nonce.counterBlock⟩ offset stored = .ok reader := by
  rcases encrypt_eq_ok.mp encrypted with ⟨created, wrapped, make, wrap, encoded, -⟩
  obtain ⟨nonempty, last, unwrap⟩ := returns created wrapped service' make wrap
  have decoded : Context.decode engine.settings.contextFormat context =
      .ok ⟨Utf8.encode wrapped, nonce⟩ :=
    Context.decode_of_encode _ (Utf8.encode_ne_nil nonempty) encoded
  obtain ⟨reader, decrypted, opened⟩ := decrypt_of_decode decoded unwrap stored offset
  exact ⟨reader, last, decrypted, opened⟩

theorem exists_encrypt_returning {ρ : Type}
    (prefixed : engine.settings.contextFormat = .lengthPrefixed) (source : ρ) (text : String) :
    ∃ stream context service', engine.encrypt key nonce source keyName
      (RecordedService.returning text) = .ok (stream, context) service' := by
  have fits := isKeyLength key
  have encoded : Context.encode engine.settings.contextFormat ⟨Utf8.encode "wrapped", nonce⟩ =
      .ok (Bytes.ofNatBE 4 7 ++ Utf8.encode "wrapped" ++ nonce.bytes) := by
    rw [prefixed]
    rfl
  exact ⟨_, _, _, encrypt_eq_ok.mpr ⟨_, "wrapped", rfl, rfl, encoded,
    CounterReader.start_eq_ok.mpr ⟨fits, rfl⟩⟩⟩

/-- Content that was encrypted is as long as its ciphertext, and decrypts to itself from
every offset on. -/
theorem decrypt_encrypt {source : Source} {stream : CounterReader Source} {context : Bytes}
    (delivers : source.Delivers plaintext)
    (returns : KeyService.Returns keyName (Base64.encodeText key.bytes) service later)
    (encrypted : engine.encrypt key nonce source keyName service = .ok (stream, context) service') :
    ∃ ciphertext : Bytes, ciphertext.length = plaintext.length ∧
      (∀ sizes, (∀ i, 0 < sizes i) → (Reader.drain sizes stream).1 = (ciphertext, none)) ∧
      ∀ (offset : UInt64) (stored : Source),
        stored.Delivers (ciphertext.drop (blockStart offset).toNat) →
        ∃ reader last, engine.decrypt context stored offset keyName later = .ok reader last ∧
          ∀ sizes, (∀ i, 0 < sizes i) →
            (Reader.drain sizes reader).1 = (plaintext.drop offset.toNat, none) := by
  rcases encrypt_eq_ok.mp encrypted with ⟨_, _, _, _, _, started⟩
  refine ⟨Counter.apply (cipherOf key.bytes) nonce.counterBlock 0 plaintext,
    Counter.length_apply .., fun sizes positive => drain_stream delivers started positive, ?_⟩
  intro offset stored stored_delivers
  obtain ⟨reader, last, decrypted, opened⟩ :=
    decrypt_of_encrypt_eq_ok returns encrypted stored offset
  exact ⟨reader, last, decrypted,
    fun sizes positive => drain_opened opened stored_delivers positive⟩

theorem decrypt_encrypt_two_pieces :
    ∃ stream context service',
      encrypt ⟨⟨"a", .lengthPrefixed, 128⟩, rfl⟩ ⟨List.replicate 16 7, rfl⟩
          ⟨List.replicate 12 9, rfl⟩ (⟨[.data [104], .data [105]], []⟩ : Source) "a"
          (RecordedService.returning (Base64.encodeText (List.replicate 16 7))) =
        .ok (stream, context) service' ∧
      ∃ ciphertext : Bytes, ciphertext.length = 2 ∧
        (∀ sizes, (∀ i, 0 < sizes i) → (Reader.drain sizes stream).1 = (ciphertext, none)) ∧
        ∀ (offset : UInt64) (stored : Source),
          stored.Delivers (ciphertext.drop (blockStart offset).toNat) →
          ∃ reader last, decrypt ⟨⟨"a", .lengthPrefixed, 128⟩, rfl⟩ context stored offset "a"
              (RecordedService.returning (Base64.encodeText (List.replicate 16 7))) =
                .ok reader last ∧
            ∀ sizes, (∀ i, 0 < sizes i) →
              (Reader.drain sizes reader).1 = ([104, 105].drop offset.toNat, none) := by
  have delivers : (⟨[.data [104], .data [105]], []⟩ : Source).Delivers [104, 105] :=
    ⟨⟨by simp [Script.Filled], by simp⟩, rfl⟩
  obtain ⟨stream, context, service', encrypted⟩ :=
    @exists_encrypt_returning ⟨⟨"a", .lengthPrefixed, 128⟩, rfl⟩ ⟨List.replicate 16 7, rfl⟩
      ⟨List.replicate 12 9, rfl⟩ "a" _ rfl (⟨[.data [104], .data [105]], []⟩ : Source)
      (Base64.encodeText (List.replicate 16 7))
  refine ⟨stream, context, service', encrypted, decrypt_encrypt delivers ?_ encrypted⟩
  exact RecordedService.returns_returning _ _

end Engine

end KeyEnvelope
