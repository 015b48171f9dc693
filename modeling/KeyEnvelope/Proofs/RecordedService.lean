import KeyEnvelope.RecordedService
import KeyEnvelope.Proofs.Service
import KeyEnvelope.Proofs.Text.Canonical

/-!
# Asking for a data key

A call on a recorded service ends with the service's answer and is on record
(`call_eq_ok`, `call_eq_error`).  Wherever a data key comes back, a service is asked for
one text, which has to be the base64 text of the key: what is done with the key comes
after the answer, and is reached in no other way (`asksFor_unwrap`).
-/

namespace KeyEnvelope

namespace RecordedService

variable {α : Type} {service service' : RecordedService} {request : ServiceCall}
  {name ciphertext text : String} {e : EnvelopeError}

/-! ## One call -/

/-- What a service answers to a call. -/
def answer (service : RecordedService) (request : ServiceCall) : Except EnvelopeError String :=
  service.respond service.calls request

/-- A service once a call has been made. -/
def after (service : RecordedService) (request : ServiceCall) : RecordedService :=
  { service with calls := request :: service.calls }

@[simp] theorem calls_after (service : RecordedService) (request : ServiceCall) :
    (service.after request).calls = request :: service.calls := rfl

theorem after_ne (service : RecordedService) (request : ServiceCall) :
    service.after request ≠ service := by
  intro same
  have longer := congrArg (fun service => service.calls.length) same
  simp at longer

theorem call_eq (service : RecordedService) (request : ServiceCall) :
    call request service = attempt id (service.answer request) (service.after request) := by
  unfold call answer after
  dsimp only
  cases service.respond service.calls request <;> rfl

theorem call_eq_ok : call request service = .ok text service' ↔
    service.answer request = .ok text ∧ service' = service.after request := by
  rw [call_eq, attempt_eq_ok]

theorem call_eq_error : call request service = .error e service' ↔
    service.answer request = .error e ∧ service' = service.after request := by
  rw [call_eq, attempt_eq_error]
  refine ⟨fun some => ?_, fun both => ⟨e, both.1, rfl, both.2⟩⟩
  rcases some with ⟨cause, answered, rfl, rest⟩
  exact ⟨answered, rest⟩

theorem wrap_eq_ok : KeyService.wrap name text service = .ok ciphertext service' ↔
    service.answer (.wrap name text) = .ok ciphertext ∧
      service' = service.after (.wrap name text) :=
  call_eq_ok

theorem unwrap_eq_ok : KeyService.unwrap name ciphertext service = .ok text service' ↔
    service.answer (.unwrap name ciphertext) = .ok text ∧
      service' = service.after (.unwrap name ciphertext) :=
  call_eq_ok

theorem unwrap_eq_error : KeyService.unwrap name ciphertext service = .error e service' ↔
    service.answer (.unwrap name ciphertext) = .error e ∧
      service' = service.after (.unwrap name ciphertext) :=
  call_eq_error

/-! ## A call for a data key -/

/-- An outcome is that of a step which asks a service once, for one text, and goes on with
the bytes that the answer spells.  A refusal comes back as it is, and an answer that spells
no bytes is a failure of key management. -/
structure AsksFor (service : RecordedService) (name ciphertext : String)
    (rest : Bytes → Except EnvelopeError α)
    (outcome : EStateM.Result EnvelopeError RecordedService α) : Prop where
  refused : ∀ e, service.answer (.unwrap name ciphertext) = .error e →
    outcome = .error e (service.after (.unwrap name ciphertext))
  garbled : ∀ text, service.answer (.unwrap name ciphertext) = .ok text →
    (∀ bytes, text ≠ Base64.encodeText bytes) →
    ∃ cause, outcome = .error (.keyManagement (.base64 cause))
      (service.after (.unwrap name ciphertext))
  spelled : ∀ bytes,
    service.answer (.unwrap name ciphertext) = .ok (Base64.encodeText bytes) →
    outcome = attempt id (rest bytes) (service.after (.unwrap name ciphertext))

theorem asksFor_unwrap (service : RecordedService) (name ciphertext : String)
    (rest : Bytes → Except EnvelopeError α) :
    service.AsksFor name ciphertext rest ((do
      let text ← KeyService.unwrap name ciphertext
      let bytes ← attempt (.keyManagement ∘ .base64) (Base64.decode (Utf8.encode text))
      attempt id (rest bytes)) service) where
  refused e answered := bind_of_error (unwrap_eq_error.mpr ⟨answered, rfl⟩)
  garbled text answered unspelled := by
    rw [bind_of_ok (unwrap_eq_ok.mpr ⟨answered, rfl⟩)]
    cases decoded : Base64.decode (Utf8.encode text) with
    | ok bytes => exact absurd (Base64.decode_encode_eq_ok_iff.mp decoded) (unspelled bytes)
    | error cause => exact ⟨cause, bind_of_error rfl⟩
  spelled bytes answered := by
    have decoded : Base64.decode (Utf8.encode (Base64.encodeText bytes)) = .ok bytes :=
      Base64.decode_encode_eq_ok_iff.mpr rfl
    rw [bind_of_ok (unwrap_eq_ok.mpr ⟨answered, rfl⟩), decoded]
    exact bind_of_ok rfl

namespace AsksFor

variable {rest : Bytes → Except EnvelopeError α}
  {outcome : EStateM.Result EnvelopeError RecordedService α}

/-- There are three ways to end, and the service has been asked in each. -/
theorem cases (asks : service.AsksFor name ciphertext rest outcome) :
    (∃ e, service.answer (.unwrap name ciphertext) = .error e ∧
        outcome = .error e (service.after (.unwrap name ciphertext))) ∨
      (∃ cause, outcome = .error (.keyManagement (.base64 cause))
        (service.after (.unwrap name ciphertext))) ∨
      ∃ bytes, outcome = attempt id (rest bytes) (service.after (.unwrap name ciphertext)) := by
  cases answered : service.answer (.unwrap name ciphertext) with
  | error e => exact .inl ⟨e, rfl, asks.refused e answered⟩
  | ok text =>
    by_cases spelled : ∃ bytes, text = Base64.encodeText bytes
    · rcases spelled with ⟨bytes, rfl⟩
      exact .inr (.inr ⟨bytes, asks.spelled bytes answered⟩)
    · exact .inr (.inl (asks.garbled text answered (not_exists.mp spelled)))

/-- Whatever the outcome, the one call is on record and nothing else is. -/
theorem finalState_eq (asks : service.AsksFor name ciphertext rest outcome) :
    finalState outcome = service.after (.unwrap name ciphertext) := by
  rcases asks.cases with ⟨e, -, rfl⟩ | ⟨cause, rfl⟩ | ⟨bytes, rfl⟩
  · rfl
  · rfl
  · rw [finalState_attempt]

/-- Such a step fails for what the service answers or for what its rest makes of the bytes. -/
theorem of_error (asks : service.AsksFor name ciphertext rest outcome)
    (failed : outcome = .error e service') :
    service.answer (.unwrap name ciphertext) = .error e ∨
      (∃ cause, e = .keyManagement (.base64 cause)) ∨ ∃ bytes, rest bytes = .error e := by
  rcases asks.cases with ⟨e', answered, ended⟩ | ⟨cause, ended⟩ | ⟨bytes, ended⟩
  · cases failed.symm.trans ended
    exact .inl answered
  · cases failed.symm.trans ended
    exact .inr (.inl ⟨cause, rfl⟩)
  · rcases attempt_eq_error.mp (ended.symm.trans failed) with ⟨_, unmade, rfl, -⟩
    exact .inr (.inr ⟨bytes, unmade⟩)

end AsksFor

end RecordedService

end KeyEnvelope
