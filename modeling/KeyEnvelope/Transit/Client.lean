import KeyEnvelope.Entropy
import KeyEnvelope.KeyService
import KeyEnvelope.Transit.Store

/-!
# The transit service

The store of named keys as a key service: it draws key material and nonces itself and
stamps each key version with the time of a clock that every new version moves on.
-/

namespace KeyEnvelope

/-- A transit service in memory. -/
structure TransitClient where
  store : TransitStore := {}
  entropy : Entropy
  clock : Nat := 0

namespace TransitClient

/-- A value drawn from the generator of the service. -/
def draw {α : Type} (source : StateM Entropy α) : EStateM EnvelopeError TransitClient α :=
  fun client =>
    let (value, entropy) := source client.entropy
    .ok value { client with entropy }

/-- The time, which moves on. -/
def tick : EStateM EnvelopeError TransitClient Nat :=
  fun client => .ok client.clock { client with clock := client.clock + 1 }

/-- Replaces the store. -/
def setStore (store : TransitStore) : EStateM EnvelopeError TransitClient Unit :=
  fun client => .ok () { client with store }

instance : KeyService TransitClient where
  createKey name := do
    let material ← draw (Entropy.drawKey sealingKeySize)
    let now ← tick
    setStore ((← get).store.createKey name material now)
  wrap name text := do
    let nonce ← draw Entropy.drawNonce
    attempt .keyManagement ((← get).store.wrap name nonce text)
  unwrap name ciphertext := do
    attempt .keyManagement ((← get).store.unwrap name ciphertext)
  rotate name := do
    let material ← draw (Entropy.drawKey sealingKeySize)
    let now ← tick
    setStore (← attempt .keyManagement ((← get).store.rotate name material now))

/-- Sets the smallest version of a key that may still unwrap. -/
def setMinimum (name : String) (version : Nat) : EStateM EnvelopeError TransitClient Unit := do
  setStore (← attempt .keyManagement ((← get).store.setMinimum name version))

/-- Removes the versions of a key below its minimum and yields how many there were. -/
def trim (name : String) : EStateM EnvelopeError TransitClient Nat := do
  let (count, store) ← attempt .keyManagement ((← get).store.trim name)
  setStore store
  return count

end TransitClient

end KeyEnvelope
