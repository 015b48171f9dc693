import KeyEnvelope.Error

/-!
# Key services

A service that keeps wrapping keys under names and wraps texts with them.  The keys
never leave it.  The state of a service is part of every operation on it, so what an
operation asks of a service, and in which order, is part of its meaning.
-/

namespace KeyEnvelope

/-- States of key services. -/
class KeyService (κ : Type) where
  /-- Makes sure that a key of this name exists. -/
  createKey : (name : String) → EStateM EnvelopeError κ Unit
  /-- Wraps a text under the key of a name. -/
  wrap : (name : String) → (text : String) → EStateM EnvelopeError κ String
  /-- The text that was wrapped under the key of a name. -/
  unwrap : (name : String) → (ciphertext : String) → EStateM EnvelopeError κ String
  /-- Replaces the key of a name for everything wrapped from now on. -/
  rotate : (name : String) → EStateM EnvelopeError κ Unit

/-- The outcome of a computation without state, its failure put into a group. -/
def attempt {ε σ α : Type} (group : ε → EnvelopeError) (outcome : Except ε α) :
    EStateM EnvelopeError σ α :=
  match outcome with
  | .ok value => pure value
  | .error cause => throw (group cause)

end KeyEnvelope
