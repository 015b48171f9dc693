import KeyEnvelope.Proofs.Engine.OwnContext
import KeyEnvelope.Proofs.RecordedService

/-!
# The stages of decrypting

Decrypting the content of a context ends in the first stage that fails.  The context is
taken apart before the key service is asked, once, for the text in it, and what the service
answers is looked at after that (`stages_decrypt`).  The offset picks the counter and the
mode of the reader and cannot make a stage fail (`openAt_eq`).  The ciphertext only
passes through (`decrypt_onto`).  This is so unless the layout has a fixed length that leaves
no room for the nonce in a word: such a layout is taken for valid, and then there are contexts
for which the program stops in the first stage (`decrypt?_eq_none_iff`).
-/

namespace KeyEnvelope

namespace Engine

variable {ρ κ : Type} [KeyService κ] {engine : Engine} {context : Bytes} {ciphertext : ρ}
  {offset : UInt64} {keyName : String}

/-! ## The ciphertext -/

/-- A reader that was opened on nothing, put onto a ciphertext. -/
def onto (ciphertext : ρ) (reader : DecryptingReader Unit) : DecryptingReader ρ where
  inner := { reader.inner with inner := ciphertext }
  mode := reader.mode
  pending := reader.pending

/-- A reader opens if the key has a length of the cipher, whatever the offset.  At the start
nothing is pending, and behind it what lies before the offset in its block. -/
theorem openAt_eq (parameters : ContentParameters) (offset : UInt64) (ciphertext : ρ) :
    openAt parameters offset ciphertext =
      if Aes.IsKeyLength parameters.key.length then
        .ok ⟨⟨ciphertext, Aes.Schedule.ofKey parameters.key,
            Counter.seek parameters.iv offset, 0⟩,
          if offset = 0 then .fromStart else .blockRemainder (offset % 16),
          offset.toNat % 16⟩
      else .error (.keySize parameters.key.length) := by
  split
  next fits =>
    refine openAt_eq_ok.mpr ⟨fits, ?_⟩
    split
    next zero =>
      subst zero
      rfl
    next => rw [SkippingReader.fromOffset, Counter.toNat_blockRemainder, blockRemainder]
  next unfit => exact openAt_of_not_isKeyLength unfit offset ciphertext

/-- Opening is the last stage, and fails for the length of the key only. -/
theorem attempt_openAt {σ : Type} (key : Bytes) (iv : Block) (offset : UInt64) (ciphertext : ρ) :
    (attempt .config (openAt ⟨key, iv⟩ offset ciphertext) :
        EStateM EnvelopeError σ (DecryptingReader ρ)) =
      attempt id (if Aes.IsKeyLength key.length then
        .ok ⟨⟨ciphertext, Aes.Schedule.ofKey key, Counter.seek iv offset, 0⟩,
          if offset = 0 then .fromStart else .blockRemainder (offset % 16),
          offset.toNat % 16⟩
      else .error (.config (.keySize key.length))) := by
  rw [openAt_eq]
  split <;> rfl

theorem openAt_onto (parameters : ContentParameters) (offset : UInt64) (ciphertext : ρ) :
    openAt parameters offset ciphertext = (openAt parameters offset ()).map (onto ciphertext) := by
  rw [openAt_eq, openAt_eq]
  split <;> rfl

/-- What decrypting does before the ciphertext is read does not depend on it. -/
theorem decrypt_onto (engine : Engine) (context : Bytes) (ciphertext : ρ) (offset : UInt64)
    (keyName : String) :
    (engine.decrypt context ciphertext offset keyName : EStateM EnvelopeError κ _) =
      onto ciphertext <$> engine.decrypt context () offset keyName := by
  unfold decrypt decryptDecoded
  simp only [map_bind]
  refine bind_congr fun split => bind_congr fun wrapped => bind_congr fun text =>
    bind_congr fun key => ?_
  rw [openAt_onto]
  cases openAt ⟨key, split.nonce.counterBlock⟩ offset () <;> rfl

/-! ## The context -/

theorem decrypt_of_not_text {split : Context} (service : κ)
    (decoded : Context.decode engine.settings.contextFormat context = .ok split)
    (noText : ∀ text, split.wrappedKey ≠ Utf8.encode text) :
    engine.decrypt context ciphertext offset keyName service =
      .error (.corruptedContext .wrappedKeyNotText) service := by
  unfold decrypt decryptDecoded Context.wrappedKeyText
  rw [decoded]
  refine (bind_of_ok (a := split) rfl).trans ?_
  cases read : Utf8.decode split.wrappedKey with
  | ok text => exact absurd (Utf8.eq_encode_of_decode read) (noText text)
  | error cause => rfl

/-- With a text in the context, a service is asked for what is in the text. -/
theorem decrypt_of_text {wrapped : String} {nonce : Nonce}
    (decoded : Context.decode engine.settings.contextFormat context =
      .ok ⟨Utf8.encode wrapped, nonce⟩) :
    (engine.decrypt context ciphertext offset keyName :
        EStateM EnvelopeError κ (DecryptingReader ρ)) = (do
      let text ← KeyService.unwrap keyName wrapped
      let key ← attempt (.keyManagement ∘ .base64) (Base64.decode (Utf8.encode text))
      attempt .config (openAt ⟨key, nonce.counterBlock⟩ offset ciphertext)) := by
  unfold decrypt decryptDecoded Context.wrappedKeyText
  rw [decoded, attempt, pure_bind]
  dsimp only
  rw [Utf8.decode_encode]
  rfl

/-! ## All stages -/

/-- How decrypting the content of a context ends.  A context that is not the written form of
a wrapped key and a nonce, or whose wrapped key is no text, is refused before the service is
asked.  Otherwise the service is, and the bytes that it gives back open a reader if their
number is a length of a key. -/
structure Stages (engine : Engine) (context : Bytes) (ciphertext : ρ) (offset : UInt64)
    (keyName : String) (service : RecordedService)
    (outcome : EStateM.Result EnvelopeError RecordedService (DecryptingReader ρ)) : Prop where
  unsplit : (∀ split : Context, split.wrappedKey ≠ [] →
      split.encode engine.settings.contextFormat ≠ .ok context) →
    ∃ cause, outcome = .error (.corruptedContext cause) service
  notText : ∀ split : Context, split.wrappedKey ≠ [] →
    split.encode engine.settings.contextFormat = .ok context →
    (∀ text, split.wrappedKey ≠ Utf8.encode text) →
    outcome = .error (.corruptedContext .wrappedKeyNotText) service
  asks : ∀ wrapped nonce, wrapped ≠ "" →
    Context.encode engine.settings.contextFormat ⟨Utf8.encode wrapped, nonce⟩ = .ok context →
    service.AsksFor keyName wrapped (fun key =>
      if Aes.IsKeyLength key.length then
        .ok ⟨⟨ciphertext, Aes.Schedule.ofKey key, Counter.seek nonce.counterBlock offset, 0⟩,
          if offset = 0 then .fromStart else .blockRemainder (offset % 16),
          offset.toNat % 16⟩
      else .error (.config (.keySize key.length))) outcome

theorem stages_decrypt (engine : Engine) (context : Bytes) (ciphertext : ρ) (offset : UInt64)
    (keyName : String) (service : RecordedService) :
    Stages engine context ciphertext offset keyName service
      (engine.decrypt context ciphertext offset keyName service) where
  unsplit unwritten := by
    cases decoded : Context.decode engine.settings.contextFormat context with
    | ok split =>
      obtain ⟨nonempty, written⟩ := Context.decode_eq_ok.mp decoded
      exact absurd written (unwritten split nonempty)
    | error cause =>
      exact ⟨cause, decrypt_of_decode_error decoded ciphertext offset keyName service⟩
  notText split nonempty written noText :=
    decrypt_of_not_text service (Context.decode_eq_ok.mpr ⟨nonempty, written⟩) noText
  asks wrapped nonce nonempty written := by
    have decoded := Context.decode_eq_ok.mpr ⟨Utf8.encode_ne_nil nonempty, written⟩
    rw [decrypt_of_text decoded]
    simp only [attempt_openAt]
    exact RecordedService.asksFor_unwrap service keyName wrapped _

/-- Nothing else fails: either the context is refused and the service is as before, or the
service was asked once and refused itself, spelled no bytes, or spelled a number of them that
no key has. -/
theorem Stages.of_error {service service' : RecordedService} {e : EnvelopeError}
    {outcome : EStateM.Result EnvelopeError RecordedService (DecryptingReader ρ)}
    (stages : Stages engine context ciphertext offset keyName service outcome)
    (failed : outcome = .error e service') :
    (service' = service ∧ ∃ cause, e = .corruptedContext cause) ∨
      ∃ wrapped, service' = service.after (.unwrap keyName wrapped) ∧
        (service.answer (.unwrap keyName wrapped) = .error e ∨
          (∃ cause, e = .keyManagement (.base64 cause)) ∨
          ∃ length, ¬ Aes.IsKeyLength length ∧ e = .config (.keySize length)) := by
  by_cases splits : ∃ split : Context, split.wrappedKey ≠ [] ∧
      split.encode engine.settings.contextFormat = .ok context
  · obtain ⟨⟨wrappedKey, nonce⟩, nonempty, written⟩ := splits
    by_cases text : ∃ wrapped, wrappedKey = Utf8.encode wrapped
    · obtain ⟨wrapped, rfl⟩ := text
      have some_text : wrapped ≠ "" := fun empty => nonempty (by rw [empty]; rfl)
      have asks := stages.asks wrapped nonce some_text written
      have asked := asks.finalState_eq
      rw [failed] at asked
      refine .inr ⟨wrapped, asked, (asks.of_error failed).imp_right (Or.imp_right ?_)⟩
      intro unopened
      obtain ⟨key, unopened⟩ := unopened
      split at unopened
      next => cases unopened
      next unfit =>
        cases unopened
        exact ⟨key.length, unfit, rfl⟩
    · cases failed.symm.trans (stages.notText _ nonempty written (not_exists.mp text))
      exact .inl ⟨rfl, _, rfl⟩
  · obtain ⟨cause, refused⟩ := stages.unsplit fun split nonempty written =>
      splits ⟨split, nonempty, written⟩
    cases failed.symm.trans refused
    exact .inl ⟨rfl, cause, rfl⟩

/-! ## Layouts that leave no room for the nonce -/

/-- A fixed length leaves room for the nonce if a word holds both. -/
def LeavesRoom (format : ContextFormat) : Prop :=
  ∀ length, format = .fixed length → length ≤ UInt64.size - 13

/-- Where the layout leaves room, reading a context stops no program. -/
theorem decrypt?_eq (room : LeavesRoom engine.settings.contextFormat)
    (overflow : Context.Overflow) (context : Bytes) (ciphertext : ρ) (offset : UInt64)
    (keyName : String) :
    engine.decrypt? overflow context ciphertext offset keyName =
      some (engine.decrypt context ciphertext offset keyName :
        EStateM EnvelopeError κ (DecryptingReader ρ)) := by
  unfold decrypt?
  rw [Context.decode?_eq overflow room]
  rfl

theorem exists_fixed_of_not_leavesRoom {format : ContextFormat} (cramped : ¬ LeavesRoom format) :
    ∃ length, format = .fixed length ∧ UInt64.size - 13 < length := by
  unfold LeavesRoom at cramped
  push Not at cramped
  exact cramped

section

variable {length : Nat} (fixed : engine.settings.contextFormat = .fixed length)
  (large : UInt64.size - 13 < length)

include fixed large

/-- Where it does not, the program stops for every context or for those of one length, as
overflow is treated. -/
theorem decrypt?_eq_none_iff {overflow : Context.Overflow} :
    (engine.decrypt? overflow context ciphertext offset keyName :
        Option (EStateM EnvelopeError κ (DecryptingReader ρ))) = none ↔
      overflow = .trapped ∨ context.length = (length + nonceSize) % UInt64.size := by
  unfold decrypt?
  rw [fixed, Option.map_eq_none_iff]
  exact Context.decode?_eq_none_iff large

/-- All other contexts are refused there. -/
theorem refused_of_decrypt? {overflow : Context.Overflow}
    {step : EStateM EnvelopeError κ (DecryptingReader ρ)}
    (begun : engine.decrypt? overflow context ciphertext offset keyName = some step) :
    ∃ cause, ∀ service, step service = .error (.corruptedContext cause) service := by
  unfold decrypt? at begun
  rw [fixed] at begun
  obtain ⟨outcome, read, rfl⟩ := Option.map_eq_some_iff.mp begun
  obtain ⟨cause, rfl⟩ := Context.exists_error_of_decode? large read
  exact ⟨cause, fun service => rfl⟩

end

/-- Decrypting goes through its stages in their order and fails in no other way, and the
ciphertext passes through unread, exactly if the layout leaves room for the nonce.  If it does
not, the program stops, for every context or for those of one length as overflow is treated,
and all other contexts are refused before the service is asked. -/
theorem decrypt_staged_iff (engine : Engine) (overflow : Context.Overflow) :
    (LeavesRoom engine.settings.contextFormat ↔
      ∀ (ρ : Type) (context : Bytes) (ciphertext : ρ) (offset : UInt64) (keyName : String)
        (service : RecordedService), ∃ step bare,
        engine.decrypt? overflow context ciphertext offset keyName = some step ∧
        engine.decrypt? overflow context () offset keyName = some bare ∧
        Stages engine context ciphertext offset keyName service (step service) ∧
        (∀ e service', step service = .error e service' →
          (service' = service ∧ ∃ cause, e = .corruptedContext cause) ∨
            ∃ wrapped, service' = service.after (.unwrap keyName wrapped) ∧
              (service.answer (.unwrap keyName wrapped) = .error e ∨
                (∃ cause, e = .keyManagement (.base64 cause)) ∨
                ∃ length, ¬ Aes.IsKeyLength length ∧ e = .config (.keySize length))) ∧
        step service = (onto ciphertext <$> bare) service) ∧
    ∀ length, engine.settings.contextFormat = .fixed length → UInt64.size - 13 < length →
      ∀ (ρ : Type) (context : Bytes) (ciphertext : ρ) (offset : UInt64) (keyName : String),
        ((engine.decrypt? overflow context ciphertext offset keyName :
            Option (EStateM EnvelopeError RecordedService (DecryptingReader ρ))) = none ↔
          overflow = .trapped ∨ context.length = (length + nonceSize) % UInt64.size) ∧
        ∀ step : EStateM EnvelopeError RecordedService (DecryptingReader ρ),
          engine.decrypt? overflow context ciphertext offset keyName = some step →
          ∃ cause, ∀ service, step service = .error (.corruptedContext cause) service := by
  refine ⟨⟨fun room => ?_, fun staged => ?_⟩, fun length fixed large ρ context ciphertext offset
    keyName => ⟨decrypt?_eq_none_iff fixed large, fun step => refused_of_decrypt? fixed large⟩⟩
  · intro ρ context ciphertext offset keyName service
    have stages := stages_decrypt engine context ciphertext offset keyName service
    refine ⟨_, _, decrypt?_eq room overflow .., decrypt?_eq room overflow .., stages,
      fun e service' failed => stages.of_error failed, ?_⟩
    rw [decrypt_onto engine context ciphertext]
  · by_contra cramped
    obtain ⟨length, fixed, large⟩ := exists_fixed_of_not_leavesRoom cramped
    obtain ⟨step, -, begun, -⟩ :=
      staged Unit (List.replicate ((length + nonceSize) % UInt64.size) 0) () 0 ""
        ⟨fun _ _ => .ok "", []⟩
    cases begun.symm.trans
      ((decrypt?_eq_none_iff fixed large).mpr (.inr List.length_replicate))

/-- Inside the second block, with a key, with an answer that is no base64 text, and with one
byte for a key; and a context of one byte. -/
theorem decrypt_staged_second_block :
    let engine : Engine := ⟨⟨"a", .lengthPrefixed, 128⟩, rfl⟩
    let nonce : Nonce := ⟨List.replicate 12 9, rfl⟩
    let context : Bytes := [0, 0, 0, 1, 107] ++ nonce.bytes
    let source : Source := ⟨[.data [104, 105]], []⟩
    let key : Bytes := List.replicate 16 7
    let answering := fun text => RecordedService.ofReplies fun _ => .ok text
    let asked := fun text => (answering text).after (.unwrap "a" "k")
    (∃ step, engine.decrypt? .trapped context source 17 "a" = some step ∧
        step (answering (Base64.encodeText key)) =
          .ok ⟨⟨source, Aes.Schedule.ofKey key, Counter.seek nonce.counterBlock 17, 0⟩,
            .blockRemainder 1, 1⟩ (asked (Base64.encodeText key))) ∧
      (∃ step cause, engine.decrypt? .trapped context source 17 "a" = some step ∧
        step (answering "?") = .error (.keyManagement (.base64 cause)) (asked "?")) ∧
      (∃ step, engine.decrypt? .trapped context source 17 "a" = some step ∧
        step (answering (Base64.encodeText [7])) =
          .error (.config (.keySize 1)) (asked (Base64.encodeText [7]))) ∧
      ∃ step cause, engine.decrypt? .trapped [1] source 17 "a" = some step ∧
        step (answering "?") = .error (.corruptedContext cause) (answering "?") := by
  intro engine nonce context source key answering asked
  have written : Context.encode engine.settings.contextFormat ⟨Utf8.encode "k", nonce⟩ =
      .ok context := Context.encode_lengthPrefixed_eq_ok.mpr ⟨by decide, by decide +kernel⟩
  have staged := (decrypt_staged_iff engine .trapped).1.mp nofun Source
  refine ⟨?_, ?_, ?_, ?_⟩
  · obtain ⟨step, _, begun, -, stages, -⟩ :=
      staged context source 17 "a" (answering (Base64.encodeText key))
    exact ⟨step, begun, (stages.asks "k" nonce (by decide) written).spelled key rfl⟩
  · obtain ⟨step, _, begun, -, stages, -⟩ := staged context source 17 "a" (answering "?")
    obtain ⟨cause, garbled⟩ := (stages.asks "k" nonce (by decide) written).garbled "?" rfl
      fun bytes same => by
        have read := Base64.decode_encode_eq_ok_iff.mpr same
        have broken : (Base64.decode (Utf8.encode "?")).toOption = none := by decide +kernel
        rw [read] at broken
        cases broken
    exact ⟨step, cause, begun, garbled⟩
  · obtain ⟨step, _, begun, -, stages, -⟩ :=
      staged context source 17 "a" (answering (Base64.encodeText [7]))
    exact ⟨step, begun, (stages.asks "k" nonce (by decide) written).spelled [7] rfl⟩
  · obtain ⟨step, _, begun, -, stages, -⟩ := staged [1] source 17 "a" (answering "?")
    obtain ⟨cause, refused⟩ := stages.unsplit fun split nonempty written => by
      have short := congrArg List.length (Context.encode_lengthPrefixed_eq_ok.mp written).2
      simp only [List.length_append, Bytes.length_ofNatBE, List.length_singleton] at short
      omega
    exact ⟨step, cause, begun, refused⟩

/-- A context that is not in the layout is not always refused, however overflow is treated. -/
theorem not_decrypt_staged :
    ¬ ∃ overflow : Context.Overflow, ∀ (engine : Engine) (context : Bytes) (ciphertext : Source)
        (offset : UInt64) (keyName : String) (service : RecordedService),
      (∀ split : Context, split.wrappedKey ≠ [] →
        split.encode engine.settings.contextFormat ≠ .ok context) →
      ∃ step cause, engine.decrypt? overflow context ciphertext offset keyName = some step ∧
        step service = .error (.corruptedContext cause) service := by
  rintro ⟨overflow, refuses⟩
  obtain ⟨step, cause, begun, -⟩ := refuses ⟨⟨"a", .fixed 18446744073709551615, 128⟩, rfl⟩
    (List.replicate 11 0) ⟨[], []⟩ 0 "a" ⟨fun _ _ => .ok "", []⟩ fun split nonempty written => by
      obtain ⟨fits, same⟩ := Context.encode_fixed_eq_ok.mp written
      have total := congrArg List.length same
      rw [List.length_append, fits, List.length_replicate] at total
      omega
  cases begun.symm.trans ((decrypt?_eq_none_iff rfl (by decide)).mpr (.inr rfl))

end Engine

end KeyEnvelope
