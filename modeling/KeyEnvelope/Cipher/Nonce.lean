import KeyEnvelope.Cipher.Block

/-!
# Nonces

The twelve random bytes that a piece of content, or a sealed message, is encrypted
under.  The counter starts at zero behind them.
-/

namespace KeyEnvelope

/-- The length of a nonce in bytes. -/
def nonceSize : Nat := 12

/-- Twelve bytes that are drawn anew for everything that is encrypted. -/
structure Nonce where
  bytes : Bytes
  length_eq : bytes.length = nonceSize
  deriving DecidableEq

namespace Nonce

/-- The nonce that exactly twelve bytes spell. -/
def ofBytes? (bytes : Bytes) : Option Nonce :=
  if h : bytes.length = nonceSize then some ⟨bytes, h⟩ else none

/-- The counter block in which a nonce is followed by a zero counter. -/
def counterBlock (nonce : Nonce) : Block :=
  Block.ofBytes (nonce.bytes ++ [0, 0, 0, 0])

end Nonce

end KeyEnvelope
