import KeyEnvelope.Transit.Client
import KeyEnvelope.Proofs.Service
import KeyEnvelope.Proofs.Transit.Run

/-!
# Calls on a transit service

Whatever is called on a transit service, and whether or not the calls succeed, its store
goes through a run of the same operations with what the service draws for them
(`exists_run`).  Wrapping and unwrapping are those of the store.
-/

namespace KeyEnvelope.TransitClient

open TransitStore (Operation)

/-- A call on a transit service. -/
inductive Call
  | createKey (name : String)
  | wrap (name text : String)
  | unwrap (name ciphertext : String)
  | rotate (name : String)
  | setMinimum (name : String) (version : Nat)
  | trim (name : String)

/-- The call that an operation comes from. -/
def callOf : Operation → Call
  | .createKey name _ _ => .createKey name
  | .wrap name _ text => .wrap name text
  | .unwrap name ciphertext => .unwrap name ciphertext
  | .rotate name _ _ => .rotate name
  | .setMinimum name version => .setMinimum name version
  | .trim name => .trim name

/-- The service that an outcome leaves. -/
def outcomeState {α : Type} : EStateM.Result EnvelopeError TransitClient α → TransitClient
  | .ok _ client => client
  | .error _ client => client

/-- The service after a call. -/
def perform (client : TransitClient) : Call → TransitClient
  | .createKey name => outcomeState (KeyService.createKey name client)
  | .wrap name text => outcomeState (KeyService.wrap name text client)
  | .unwrap name ciphertext => outcomeState (KeyService.unwrap name ciphertext client)
  | .rotate name => outcomeState (KeyService.rotate name client)
  | .setMinimum name version => outcomeState (setMinimum name version client)
  | .trim name => outcomeState (trim name client)

/-- A call does to the store what one of its operations does. -/
theorem exists_step (client : TransitClient) (call : Call) :
    ∃ operation, callOf operation = call ∧
      (client.perform call).store = client.store.step operation := by
  cases call with
  | createKey name => exact ⟨.createKey name _ _, rfl, rfl⟩
  | wrap name text =>
    refine ⟨.wrap name (Entropy.drawNonce client.entropy).1 text, rfl, ?_⟩
    change (outcomeState (attempt .keyManagement (client.store.wrap name _ text) _)).store = _
    cases client.store.wrap name _ text <;> rfl
  | unwrap name ciphertext =>
    refine ⟨.unwrap name ciphertext, rfl, ?_⟩
    change (outcomeState (attempt .keyManagement (client.store.unwrap name ciphertext) _)).store = _
    cases client.store.unwrap name ciphertext <;> rfl
  | rotate name =>
    refine ⟨.rotate name (Entropy.drawKey sealingKeySize client.entropy).1 client.clock, rfl, ?_⟩
    change (outcomeState (EStateM.bind (attempt .keyManagement (client.store.rotate name
      (Entropy.drawKey sealingKeySize client.entropy).1 client.clock)) setStore _)).store = _
    rw [TransitStore.step]
    cases client.store.rotate name (Entropy.drawKey sealingKeySize client.entropy).1
      client.clock <;> rfl
  | setMinimum name version =>
    refine ⟨.setMinimum name version, rfl, ?_⟩
    change (outcomeState (EStateM.bind
      (attempt .keyManagement (client.store.setMinimum name version)) setStore _)).store = _
    rw [TransitStore.step]
    cases client.store.setMinimum name version <;> rfl
  | trim name =>
    refine ⟨.trim name, rfl, ?_⟩
    change (outcomeState
      (EStateM.bind (attempt .keyManagement (client.store.trim name)) _ _)).store = _
    rw [TransitStore.step]
    cases client.store.trim name <;> rfl

/-- Calls one after the other take the store through a run of their operations. -/
theorem exists_run (client : TransitClient) (calls : List Call) :
    ∃ operations, operations.map callOf = calls ∧
      (calls.foldl perform client).store = client.store.run operations := by
  induction calls generalizing client with
  | nil => exact ⟨[], rfl, rfl⟩
  | cons call calls ih =>
    obtain ⟨operation, same, step⟩ := exists_step client call
    obtain ⟨operations, rest, run⟩ := ih (client.perform call)
    refine ⟨operation :: operations, ?_, ?_⟩
    · rw [List.map_cons, same, rest]
    · rw [List.foldl_cons, run, step, TransitStore.run_cons]

/-! ## Wrapping and unwrapping -/

variable {client client' : TransitClient} {name text ciphertext : String}

theorem wrap_eq_ok (wrapped : KeyService.wrap name text client = .ok ciphertext client') :
    ∃ nonce, client.store.wrap name nonce text = .ok ciphertext :=
  ⟨_, (attempt_eq_ok.mp wrapped).1⟩

theorem unwrap_eq (client : TransitClient) (name ciphertext : String) :
    KeyService.unwrap name ciphertext client =
      match client.store.unwrap name ciphertext with
      | .ok text => .ok text client
      | .error cause => .error (.keyManagement cause) client := by
  change attempt .keyManagement (client.store.unwrap name ciphertext) client = _
  cases client.store.unwrap name ciphertext <;> rfl

end KeyEnvelope.TransitClient
