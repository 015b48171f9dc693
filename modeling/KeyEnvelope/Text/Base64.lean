import KeyEnvelope.Bytes

/-!
# Base64

The standard alphabet with padding.  `decode` reads canonical texts only: every symbol
is in the alphabet, padding fills the last group of four, and the bits that the last
symbol has beyond the data are zero.
-/

namespace KeyEnvelope.Base64

/-! ## Symbols -/

/-- The byte that fills up the last group. -/
def pad : UInt8 := 0x3d

/-- The symbol of a six-bit value: letters, digits, plus and slash. -/
def symbol (value : Nat) : UInt8 :=
  if value < 26 then UInt8.ofNat (0x41 + value)
  else if value < 52 then UInt8.ofNat (0x61 + (value - 26))
  else if value < 62 then UInt8.ofNat (0x30 + (value - 52))
  else if value = 62 then 0x2b
  else 0x2f

/-- The six-bit value of a symbol. -/
def value? (byte : UInt8) : Option Nat :=
  let n := byte.toNat
  if 0x41 ≤ n ∧ n ≤ 0x5a then some (n - 0x41)
  else if 0x61 ≤ n ∧ n ≤ 0x7a then some (n - 0x61 + 26)
  else if 0x30 ≤ n ∧ n ≤ 0x39 then some (n - 0x30 + 52)
  else if n = 0x2b then some 62
  else if n = 0x2f then some 63
  else none

/-- The symbols of the `count` six-bit digits of a number, the highest digit first. -/
def symbols : (count : Nat) → (n : Nat) → Bytes
  | 0, _ => []
  | count + 1, n => symbol (n / Nat.pow 64 count % 64) :: symbols count n

/-- The number whose six-bit digits are the given ones, the highest digit first. -/
def toNat (values : List Nat) : Nat :=
  values.foldl (fun n value => n * 64 + value) 0

/-! ## Writing -/

/-- The text of a byte string: four symbols for three bytes, two or three symbols and
padding for one or two bytes at the end. -/
def encode : Bytes → Bytes
  | a :: b :: c :: rest => symbols 4 (Bytes.toNatBE [a, b, c]) ++ encode rest
  | [a, b] => symbols 3 (Bytes.toNatBE [a, b] * 4) ++ [pad]
  | [a] => symbols 2 (Bytes.toNatBE [a] * 16) ++ [pad, pad]
  | [] => []

/-- The text of a byte string as characters. -/
def encodeText (bytes : Bytes) : String :=
  String.ofList ((encode bytes).map fun byte => Char.ofNat byte.toNat)

/-! ## Reading -/

/-- Why a text is not the text of any byte string. -/
inductive Malformed
  /-- A byte that may not stand at its place. -/
  | symbol (byte : UInt8) (offset : Nat)
  /-- The last group has too few symbols; this many are there in all. -/
  | length (count : Nat)
  /-- The last group is not filled up. -/
  | padding
  /-- The last symbol has bits that belong to no byte. -/
  | lastSymbol (byte : UInt8) (offset : Nat)
  deriving DecidableEq, Repr

/-- The wording of a defect. -/
def Malformed.message : Malformed → String
  | symbol byte offset => s!"Invalid symbol {byte.toNat}, offset {offset}."
  | length count => s!"Invalid input length: {count}"
  | padding => "Invalid padding"
  | lastSymbol byte offset => s!"Invalid last symbol {byte.toNat}, offset {offset}."

/-- The values of symbols, the first of which stands at an offset. -/
def values (offset : Nat) : Bytes → Except Malformed (List Nat)
  | [] => .ok []
  | byte :: rest =>
    match value? byte with
    | none => .error (.symbol byte offset)
    | some value => (values (offset + 1) rest).map (value :: ·)

/-- The bytes of the last group, which stands at an offset and holds one to four bytes
of text. -/
def decodeLast (offset : Nat) (group : Bytes) : Except Malformed Bytes := do
  let data := group.takeWhile (· ≠ pad)
  let padding := group.dropWhile (· ≠ pad)
  let digits ← values offset data
  if padding ≠ [] ∧ (data.length < 2 ∨ padding.any (· ≠ pad)) then
    throw (.symbol pad (offset + data.length))
  if data.length < 2 then
    throw (.length (offset + data.length))
  if group.length ≠ 4 then
    throw .padding
  let spare := Nat.pow 2 (2 * (4 - data.length))
  if toNat digits % spare ≠ 0 then
    throw (.lastSymbol (data.getLastD 0) (offset + data.length - 1))
  return Bytes.ofNatBE (data.length - 1) (toNat digits / spare)

/-- The bytes of a text whose first byte stands at an offset. -/
def decodeFrom (offset : Nat) : Bytes → Except Malformed Bytes
  | [] => .ok []
  | a :: b :: c :: d :: e :: rest => do
    let digits ← values offset [a, b, c, d]
    let bytes ← decodeFrom (offset + 4) (e :: rest)
    return Bytes.ofNatBE 3 (toNat digits) ++ bytes
  | group => decodeLast offset group

/-- The byte string that a text is the text of.  A stray symbol behind whole groups is
reported before anything else. -/
def decode (text : Bytes) : Except Malformed Bytes :=
  match text.getLast? with
  | none => .ok []
  | some last =>
    if text.length % 4 = 1 ∧ last ≠ pad ∧ value? last = none then
      .error (.symbol last (text.length - 1))
    else
      decodeFrom 0 text

end KeyEnvelope.Base64
