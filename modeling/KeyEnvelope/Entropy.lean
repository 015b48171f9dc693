import KeyEnvelope.Cipher.Counter
import KeyEnvelope.Cipher.Key

/-!
# Drawing keys and nonces

A generator of bytes that cannot be told from random ones without its seed: the
keystream of the seed.  Whatever is drawn lies behind everything drawn before.
-/

namespace KeyEnvelope

/-- The keystream of a seed and how much of it is used up. -/
structure Entropy where
  schedule : Aes.Schedule
  position : Nat

namespace Entropy

/-- The generator of a seed of 32 bytes. -/
def ofSeed (seed : Bytes) : Entropy :=
  ⟨Aes.Schedule.ofKey seed, 0⟩

/-- The next bytes. -/
def peek (length : Nat) (entropy : Entropy) : Bytes :=
  Counter.keystream (Aes.encryptBlock entropy.schedule) 0 entropy.position length

/-- The generator behind the next bytes. -/
def skip (length : Nat) (entropy : Entropy) : Entropy :=
  { entropy with position := entropy.position + length }

/-- Draws key bytes. -/
def drawKey (length : Nat) : StateM Entropy (KeyMaterial length) :=
  fun entropy => (⟨entropy.peek length, by simp [peek]⟩, entropy.skip length)

/-- Draws a key for the cipher, if it has keys of this length. -/
def generateKey (length : Nat) : EStateM ConfigError Entropy (KeyMaterial length) :=
  fun entropy =>
    match checkKeyLength length with
    | .error cause => .error cause entropy
    | .ok () =>
      let (key, entropy) := drawKey length entropy
      .ok key entropy

/-- Draws a nonce. -/
def drawNonce : StateM Entropy Nonce :=
  fun entropy => (⟨entropy.peek nonceSize, by simp [peek]⟩, entropy.skip nonceSize)

/-- Draws an initial counter block. -/
def drawIv : StateM Entropy Block :=
  fun entropy => (Block.ofBytes (entropy.peek blockSize), entropy.skip blockSize)

end Entropy

end KeyEnvelope
