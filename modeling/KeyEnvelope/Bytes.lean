/-!
# Byte strings

Content, keys and records are lists of bytes.  This module holds the big-endian
reading and writing of numbers that every wire form here uses, and the bytewise
exclusive or of the ciphers.
-/

namespace KeyEnvelope

/-- A byte string. -/
abbrev Bytes := List UInt8

namespace Bytes

/-- The low `width` bytes of a number, most significant byte first. -/
def ofNatBE : (width : Nat) → Nat → Bytes
  | 0, _ => []
  | width + 1, n => UInt8.ofNat (n / Nat.pow 256 width) :: ofNatBE width n

/-- The number whose bytes, most significant first, are the given ones. -/
def toNatBE (bytes : Bytes) : Nat :=
  bytes.foldl (fun n byte => n * 256 + byte.toNat) 0

/-- Bytewise exclusive or, as long as the shorter operand. -/
def xor (a b : Bytes) : Bytes :=
  List.zipWith (· ^^^ ·) a b

/-- Bytes as numbers between brackets. -/
def describe (bytes : Bytes) : String :=
  let numbers := ", ".intercalate (bytes.map fun byte => toString byte.toNat)
  s!"[{numbers}]"

/-- The first `count` consecutive groups of `size` elements. -/
def groups (size : Nat) : (count : Nat) → List α → List (List α)
  | 0, _ => []
  | count + 1, items => items.take size :: groups size count (items.drop size)

@[simp] theorem length_ofNatBE (width n : Nat) : (ofNatBE width n).length = width := by
  induction width with
  | zero => rfl
  | succ width ih => simp [ofNatBE, ih]

@[simp] theorem length_xor (a b : Bytes) : (xor a b).length = min a.length b.length := by
  simp [xor]

end Bytes

end KeyEnvelope
