import KeyEnvelope.Cipher.Counter
import KeyEnvelope.Cipher.Nonce

/-!
# Authenticated encryption

Galois/counter mode over any block cipher, with twelve-byte nonces and sixteen-byte
tags.  The tag is a polynomial in a secret point of the field of `2 ^ 128` elements
whose coefficients are the blocks of the associated data, of the ciphertext and of
both lengths.  `openText?` gives back a text only under the tag that `sealText` computes.
-/

namespace KeyEnvelope.Gcm

/-- The length of an authentication tag in bytes. -/
def tagSize : Nat := 16

/-! ## The field of the tag -/

/-- Multiplication by the indeterminate; the leftmost bit is the constant coefficient. -/
def timesX (v : Block) : Block :=
  if v.getLsbD 0 then (v >>> 1) ^^^ BitVec.ofNat 128 (0xe1 <<< 120) else v >>> 1

/-- The product of two field elements, one coefficient of the left one at a time. -/
def multiply (x y : Block) : Block :=
  ((List.range 128).foldl
    (fun (sum, v) i => (if x.getMsbD i then sum ^^^ v else sum, timesX v))
    ((0 : Block), y)).1

/-- A polynomial without constant term at a point, its coefficients highest first. -/
def evaluate (point : Block) (coefficients : List Block) : Block :=
  coefficients.foldl (fun sum c => multiply (sum ^^^ c) point) 0

/-! ## Sealing and opening -/

/-- The block that closes the tag polynomial: both lengths in bits. -/
def lengthBlock (aad ciphertext : Bytes) : Block :=
  BitVec.ofNat 64 (8 * aad.length) ++ BitVec.ofNat 64 (8 * ciphertext.length)

/-- The tag of a ciphertext and its associated data. -/
def tag (cipher : Block → Block) (nonce : Nonce) (aad ciphertext : Bytes) : Bytes :=
  let coefficients :=
    Block.ofPadded aad ++ Block.ofPadded ciphertext ++ [lengthBlock aad ciphertext]
  let mask := cipher (nonce.counterBlock + 1)
  Block.toBytes (evaluate (cipher 0) coefficients ^^^ mask)

/-- The text under counter mode: counter one makes the tag, the text begins at two. -/
def transform (cipher : Block → Block) (nonce : Nonce) (text : Bytes) : Bytes :=
  Counter.apply cipher (nonce.counterBlock + 2) 0 text

/-- A text encrypted, with its tag behind it. -/
def sealText (cipher : Block → Block) (nonce : Nonce) (aad plaintext : Bytes) : Bytes :=
  let ciphertext := transform cipher nonce plaintext
  ciphertext ++ tag cipher nonce aad ciphertext

/-- The text of a sealed message, if its tag is the right one. -/
def openText? (cipher : Block → Block) (nonce : Nonce) (aad message : Bytes) : Option Bytes :=
  let size := message.length - tagSize
  let ciphertext := message.take size
  if tagSize ≤ message.length ∧ message.drop size = tag cipher nonce aad ciphertext then
    some (transform cipher nonce ciphertext)
  else
    none

end KeyEnvelope.Gcm
