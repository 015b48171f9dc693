import KeyEnvelope.Bytes

/-!
# Cipher blocks

A block is sixteen bytes, held as one 128-bit word whose most significant byte
comes first.  The word form makes the counter of counter mode plain addition
modulo `2 ^ 128`.
-/

namespace KeyEnvelope

/-- The width of a cipher block in bytes. -/
def blockSize : Nat := 16

/-- A cipher block: sixteen bytes as one big-endian word. -/
abbrev Block := BitVec 128

namespace Block

/-- The sixteen bytes of a block. -/
def toBytes (block : Block) : Bytes :=
  Bytes.ofNatBE 16 block.toNat

/-- The block that a byte string spells; only the last sixteen bytes count. -/
def ofBytes (bytes : Bytes) : Block :=
  BitVec.ofNat 128 (Bytes.toNatBE bytes)

/-- The block that exactly sixteen bytes spell. -/
def ofBytes? (bytes : Bytes) : Option Block :=
  if bytes.length = 16 then some (ofBytes bytes) else none

/-- The blocks of a byte string whose end is filled up with zero bytes. -/
def ofPadded (bytes : Bytes) : List Block :=
  let count := (bytes.length + 15) / 16
  let padded := bytes ++ List.replicate (16 * count - bytes.length) 0
  (Bytes.groups 16 count padded).map ofBytes

@[simp] theorem length_toBytes (block : Block) : (toBytes block).length = 16 := by
  simp [toBytes]

end Block

/-! ## Positions inside a block-structured stream -/

/-- The number of the block that holds a position. -/
def blockIndex (offset : UInt64) : UInt64 := offset / 16

/-- How far a position lies inside its block. -/
def blockRemainder (offset : UInt64) : UInt64 := offset % 16

/-- The position at which the block that holds a position begins. -/
def blockStart (offset : UInt64) : UInt64 := offset - blockRemainder offset

end KeyEnvelope
