import KeyEnvelope.Engine
import KeyEnvelope.Proofs.Reader.Script
import KeyEnvelope.Proofs.Settings
import KeyEnvelope.Proofs.Wrapper

/-!
# Opening content at an offset

What the engine's operations do step by step, as one inversion lemma for each
(`encrypt_eq_ok`, `decrypt_eq_ok`, `encryptWithWrappers_eq_ok`,
`decryptWithWrappers_eq_ok`), and what a reader opened at an offset decrypts: the
ciphertext from the block of the offset on, with the bytes before the offset pending
(`content_of_openAt`).
-/

namespace KeyEnvelope

variable {κ ρ φ : Type}

theorem CounterReader.start_eq_ok {inner : ρ} {key : Bytes} {iv : Block}
    {stream : CounterReader ρ} : start inner key iv = .ok stream ↔
      Aes.IsKeyLength key.length ∧ stream = ⟨inner, Aes.Schedule.ofKey key, iv, 0⟩ := by
  rw [← checkKeyLength_eq_ok]
  unfold start
  cases checkKeyLength key.length with
  | ok _ =>
    refine ⟨fun same => (by cases same; exact ⟨rfl, rfl⟩), fun both => ?_⟩
    rw [both.2]
    rfl
  | error cause => exact ⟨fun same => (by cases same), fun both => (by cases both.1)⟩

namespace Engine

theorem isKeyLength {engine : Engine} (key : KeyMaterial engine.settings.keyLength) :
    Aes.IsKeyLength key.bytes.length := by
  rw [key.length_eq]
  exact Settings.isKeyLength_of_validate engine.valid

/-! ## Opening -/

variable {parameters : ContentParameters} {offset : UInt64} {ciphertext : ρ}
  {reader : DecryptingReader ρ}

theorem openAt_eq_ok : openAt parameters offset ciphertext = .ok reader ↔
    Aes.IsKeyLength parameters.key.length ∧
      reader = if offset = 0 then
          .fromStart ⟨ciphertext, Aes.Schedule.ofKey parameters.key,
            Counter.seek parameters.iv offset, 0⟩
        else
          .fromOffset ⟨ciphertext, Aes.Schedule.ofKey parameters.key,
            Counter.seek parameters.iv offset, 0⟩ offset := by
  unfold openAt
  cases started : CounterReader.start ciphertext parameters.key
      (Counter.seek parameters.iv offset) with
  | error cause =>
    refine ⟨nofun, fun parts => ?_⟩
    rw [CounterReader.start_eq_ok.mpr ⟨parts.1, rfl⟩] at started
    cases started
  | ok stream =>
    rcases CounterReader.start_eq_ok.mp started with ⟨fits, rfl⟩
    exact ⟨fun same => ⟨fits, (Except.ok.inj same).symm⟩, fun parts => by rw [parts.2]; rfl⟩

/-- A reader that was opened begins with the keystream of the block of its offset, and
with what stands before the offset in that block pending. -/
theorem of_openAt (opened : openAt parameters offset ciphertext = .ok reader) :
    Aes.IsKeyLength parameters.key.length ∧
      reader.inner = ⟨ciphertext, Aes.Schedule.ofKey parameters.key,
        Counter.seek parameters.iv offset, 0⟩ ∧
      reader.pending = (blockRemainder offset).toNat := by
  obtain ⟨fits, same⟩ := openAt_eq_ok.mp opened
  split at same
  next zero => subst zero; subst same; exact ⟨fits, rfl, rfl⟩
  next => subst same; exact ⟨fits, rfl, rfl⟩

/-- Content opens at every offset under a key of the cipher's lengths. -/
theorem openAt_of_isKeyLength (fits : Aes.IsKeyLength parameters.key.length) (offset : UInt64)
    (ciphertext : ρ) : ∃ reader, openAt parameters offset ciphertext = .ok reader :=
  ⟨_, openAt_eq_ok.mpr ⟨fits, rfl⟩⟩

/-- Content opens nowhere under any other key. -/
theorem openAt_of_not_isKeyLength (unfit : ¬ Aes.IsKeyLength parameters.key.length)
    (offset : UInt64) (ciphertext : ρ) :
    openAt parameters offset ciphertext = .error (.keySize parameters.key.length) := by
  unfold openAt CounterReader.start checkKeyLength
  rw [if_neg unfit]
  rfl

section Content

variable [ScriptedReader ρ]

open ScriptedReader (script)

/-- The content of an opened reader is what the ciphertext decrypts to from the block of
the offset on. -/
theorem content_of_openAt (opened : openAt parameters offset ciphertext = .ok reader) :
    (script reader.inner).content =
      Counter.apply (cipherOf parameters.key) parameters.iv (blockStart offset).toNat
        (script ciphertext).content := by
  rcases of_openAt opened with ⟨-, inner, -⟩
  rw [CounterReader.content_script, inner, Counter.apply_seek, Nat.add_zero]
  rfl

/-- On the ciphertext from the block of the offset on, an opened reader has the plaintext from
the offset on behind what is pending. -/
theorem content_drop_pending_of_openAt {plaintext : Bytes}
    (opened : openAt parameters offset ciphertext = .ok reader)
    (whole : (script ciphertext).content =
      (Counter.apply (cipherOf parameters.key) parameters.iv 0 plaintext).drop
        (blockStart offset).toNat) :
    (script reader.inner).content.drop reader.pending = plaintext.drop offset.toNat := by
  rcases of_openAt opened with ⟨-, -, pending⟩
  rw [content_of_openAt opened, whole, Counter.apply_drop_apply, pending, List.drop_drop,
    Counter.blockStart_add_blockRemainder]

/-- On a part of the ciphertext that begins at the block of the offset, an opened reader
has the same part of the plaintext. -/
theorem content_of_openAt_prefix {plaintext : Bytes}
    (opened : openAt parameters offset ciphertext = .ok reader)
    (within : (script ciphertext).content <+:
      (Counter.apply (cipherOf parameters.key) parameters.iv 0 plaintext).drop
        (blockStart offset).toNat) :
    (script reader.inner).content =
      (plaintext.drop (blockStart offset).toNat).take (script ciphertext).content.length := by
  rw [content_of_openAt opened, Counter.apply_of_prefix _ _ within]

theorem steady_of_openAt (opened : openAt parameters offset ciphertext = .ok reader)
    (steady : (script ciphertext).Steady) : (script reader.inner).Steady := by
  rcases of_openAt opened with ⟨-, inner, -⟩
  rw [inner]
  exact steady.underKeystream _ _ 0

theorem filled_of_openAt (opened : openAt parameters offset ciphertext = .ok reader)
    (filled : (script ciphertext).Filled) : (script reader.inner).Filled := by
  rcases of_openAt opened with ⟨-, inner, -⟩
  rw [inner]
  exact filled.underKeystream _ _ 0

end Content

/-! ## Operations -/

section Beside

variable {α : Type} {value : α} {e : EnvelopeError} {state state' : κ × φ}

theorem onService_eq (step : EStateM EnvelopeError κ α) (state : κ × φ) :
    onService step state = onPart (·, state.2) id (step state.1) := by
  unfold onService
  dsimp only
  cases step state.1 <;> rfl

theorem onFetch_eq (step : EStateM StreamError φ α) (state : κ × φ) :
    onFetch step state = onPart (state.1, ·) .stream (step state.2) := by
  unfold onFetch
  dsimp only
  cases step state.2 <;> rfl

theorem onService_eq_ok {step : EStateM EnvelopeError κ α} :
    onService step state = .ok value state' ↔
      ∃ service', step state.1 = .ok value service' ∧ state' = (service', state.2) := by
  rw [onService_eq, onPart_eq_ok]

theorem onFetch_eq_ok {step : EStateM StreamError φ α} :
    onFetch step state = .ok value state' ↔
      ∃ place', step state.2 = .ok value place' ∧ state' = (state.1, place') := by
  rw [onFetch_eq, onPart_eq_ok]

theorem onService_eq_error {step : EStateM EnvelopeError κ α} :
    onService step state = .error e state' ↔
      ∃ service', step state.1 = .error e service' ∧ state' = (service', state.2) := by
  rw [onService_eq, onPart_eq_error]
  refine ⟨fun part => ?_, fun part => ?_⟩
  · rcases part with ⟨_, service', failed, rfl, same⟩
    exact ⟨service', failed, same⟩
  · rcases part with ⟨service', failed, same⟩
    exact ⟨e, service', failed, rfl, same⟩

theorem onFetch_eq_error {step : EStateM StreamError φ α} :
    onFetch step state = .error e state' ↔
      ∃ failure place', step state.2 = .error failure place' ∧ e = .stream failure ∧
        state' = (state.1, place') := by
  rw [onFetch_eq, onPart_eq_error]

end Beside

variable [KeyService κ] {engine : Engine} {plaintext : ρ} {stream : CounterReader ρ}
  {key : KeyMaterial engine.settings.keyLength} {service service' : κ} {place place' : φ}
  {ω σ : Type} {state state' : σ}

theorem encrypt_eq_ok {nonce : Nonce} {keyName : String} {context : Bytes} :
    engine.encrypt key nonce plaintext keyName service = .ok (stream, context) service' ↔
      ∃ created wrapped, KeyService.createKey keyName service = .ok () created ∧
        KeyService.wrap keyName (Base64.encodeText key.bytes) created = .ok wrapped service' ∧
        Context.encode engine.settings.contextFormat ⟨Utf8.encode wrapped, nonce⟩ = .ok context ∧
        CounterReader.start plaintext key.bytes nonce.counterBlock = .ok stream := by
  unfold encrypt
  simp only [bind_eq_ok, attempt_eq_ok]
  refine ⟨fun steps => ?_, fun steps => ?_⟩
  · rcases steps with ⟨_, created, make, wrapped, after, wrap, _, _, ⟨encoded, rfl⟩, _, _,
      ⟨started, rfl⟩, same⟩
    cases same
    exact ⟨created, wrapped, make, wrap, encoded, started⟩
  · rcases steps with ⟨created, wrapped, make, wrap, encoded, started⟩
    exact ⟨_, created, make, wrapped, _, wrap, _, _, ⟨encoded, rfl⟩, _, _, ⟨started, rfl⟩, rfl⟩

theorem decrypt_eq_ok {context : Bytes} {keyName : String} :
    engine.decrypt context ciphertext offset keyName service = .ok reader service' ↔
      ∃ decoded wrapped text bytes,
        Context.decode engine.settings.contextFormat context = .ok decoded ∧
        decoded.wrappedKeyText = .ok wrapped ∧
        KeyService.unwrap keyName wrapped service = .ok text service' ∧
        Base64.decode (Utf8.encode text) = .ok bytes ∧
        openAt ⟨bytes, decoded.nonce.counterBlock⟩ offset ciphertext = .ok reader := by
  unfold decrypt decryptDecoded
  simp only [bind_eq_ok, attempt_eq_ok]
  refine ⟨fun steps => ?_, fun steps => ?_⟩
  · rcases steps with ⟨decoded, _, ⟨read, rfl⟩, wrapped, _, ⟨spelled, rfl⟩, text, after, unwrap,
      bytes, _, ⟨spells, rfl⟩, opened, rfl⟩
    exact ⟨decoded, wrapped, text, bytes, read, spelled, unwrap, spells, opened⟩
  · rcases steps with ⟨decoded, wrapped, text, bytes, read, spelled, unwrap, spells, opened⟩
    exact ⟨decoded, _, ⟨read, rfl⟩, wrapped, _, ⟨spelled, rfl⟩, text, _, unwrap, bytes, _,
      ⟨spells, rfl⟩, opened, rfl⟩

theorem encryptWithWrappers_eq_ok {iv : Block} [DataKeyWrapper ω σ] {wrappers : List ω}
    {keys : List StoredKey} :
    engine.encryptWithWrappers key iv plaintext wrappers state = .ok (stream, keys) state' ↔
      wrappers ≠ [] ∧
        wrappers.mapM (fun wrapper => DataKeyWrapper.wrap wrapper ⟨key.bytes, iv⟩) state =
          .ok keys state' ∧
        CounterReader.start plaintext key.bytes iv = .ok stream := by
  cases wrappers with
  | nil => exact ⟨fun none => (by cases none), fun given => absurd rfl given.1⟩
  | cons wrapper wrappers =>
    unfold encryptWithWrappers
    simp only [List.isEmpty_cons, Bool.false_eq_true, if_false, bind_eq_ok, attempt_eq_ok]
    refine ⟨fun steps => ?_, fun steps => ?_⟩
    · rcases steps with ⟨_, _, wrapped, _, _, ⟨started, rfl⟩, same⟩
      cases same
      exact ⟨nofun, wrapped, started⟩
    · rcases steps with ⟨-, wrapped, started⟩
      exact ⟨_, _, wrapped, _, _, ⟨started, rfl⟩, rfl⟩

theorem decryptWithWrappers_eq_ok [WrapperKind ω] [DataKeyWrapper ω σ] {wrappers : List ω}
    {keys : List StoredKey} {range : ByteRange} {fetch : ByteRange → EStateM StreamError φ ρ}
    {limited : RangeReader ρ} :
    decryptWithWrappers keys wrappers range fetch (state, place) = .ok limited (state', place') ↔
      ∃ wrapper key parameters ciphertext reader,
        selectKey wrappers keys = some (wrapper, key) ∧
        DataKeyWrapper.unwrap wrapper key state = .ok parameters state' ∧
        fetch range.blockAligned place = .ok ciphertext place' ∧
        openAt parameters range.start ciphertext = .ok reader ∧
        limited = ⟨reader, range.limit⟩ := by
  unfold decryptWithWrappers
  cases selectKey wrappers keys with
  | none =>
    refine ⟨fun none => (by cases none), fun steps => ?_⟩
    rcases steps with ⟨_, _, _, _, _, none, _⟩
    cases none
  | some pair =>
    rcases pair with ⟨wrapper, key⟩
    simp only [bind_eq_ok, attempt_eq_ok, onService_eq_ok, onFetch_eq_ok]
    refine ⟨fun steps => ?_, fun steps => ?_⟩
    · rcases steps with ⟨parameters, _, ⟨_, unwrap, rfl⟩, ciphertext, _, ⟨_, fetched, rfl⟩, opened,
        _, ⟨opens, rfl⟩, same⟩
      cases same
      exact ⟨wrapper, key, parameters, ciphertext, opened, rfl, unwrap, fetched, opens, rfl⟩
    · rcases steps with ⟨_, _, parameters, ciphertext, opened, chosen, unwrap, fetched, opens, rfl⟩
      cases chosen
      exact ⟨parameters, _, ⟨_, unwrap, rfl⟩, ciphertext, _, ⟨_, fetched, rfl⟩, opened, _,
        ⟨opens, rfl⟩, rfl⟩

end Engine

end KeyEnvelope
