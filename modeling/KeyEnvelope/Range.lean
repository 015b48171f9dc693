import KeyEnvelope.Cipher.Block
import KeyEnvelope.Error
import KeyEnvelope.Text.Blank

/-!
# Ranges of bytes

Requests for a part of a content, as they stand in a range header: from a first to a
last position, both included, from a position on, or the last so many bytes.  `parse`
and `toHeader` are inverse to each other up to the forms that need the length of the
content.
-/

namespace KeyEnvelope

/-- The positions from `start` to `last`, or from `start` on. -/
structure ByteRange where
  start : UInt64
  last : Option UInt64
  deriving DecidableEq, Repr

namespace ByteRange

/-- All positions. -/
def full : ByteRange := ⟨0, none⟩

/-- The positions from `start` on. -/
def startingFrom (start : UInt64) : ByteRange := ⟨start, none⟩

/-- The positions from `start` to `last`, which may not come before it. -/
def ofBounds (start last : UInt64) : Except RangeError ByteRange :=
  if last < start then .error (.endPrecedesStart last.toNat start.toNat)
  else .ok ⟨start, some last⟩

/-- The number of positions, cut off at the largest word; nothing for a range without an
end or with an end before its start. -/
def length? (range : ByteRange) : Option UInt64 :=
  match range.last with
  | none => none
  | some last =>
    if last < range.start then none
    else some (UInt64.ofNat (min (last.toNat - range.start.toNat + 1) (UInt64.size - 1)))

/-- The largest number of bytes that a reader of the range gives out. -/
def limit (range : ByteRange) : Nat :=
  (range.length?.getD (UInt64.ofNat (UInt64.size - 1))).toNat

/-- The bytes of a content at the positions of a range. -/
def slice (range : ByteRange) (content : Bytes) : Bytes :=
  let upTo := match range.last with
    | some last => content.take (last.toNat + 1)
    | none => content
  upTo.drop range.start.toNat

/-- Whether a range holds all positions. -/
def isFull (range : ByteRange) : Bool :=
  range.start = 0 && range.last.isNone

/-- The range begun at the start of a cipher block. -/
def blockAligned (range : ByteRange) : ByteRange :=
  { range with start := blockStart range.start }

/-- The range as the value of a header. -/
def toHeader (range : ByteRange) : String :=
  match range.last with
  | some last => s!"bytes={range.start.toNat}-{last.toNat}"
  | none => s!"bytes={range.start.toNat}-"

/-! ## Requests -/

/-- The position that a text of digits spells. -/
def parsePosition (digits : List Char) : Except RangeDefect UInt64 :=
  if digits.isEmpty ∨ digits.any (fun c => (Decimal.digit? c).isNone) then .error .notDigits
  else
    match Decimal.read (UInt64.size - 1) digits with
    | .ok position => .ok (UInt64.ofNat position)
    | .error _ => .error .tooLarge

/-- The range between two positions of a request, of which either may be missing. -/
def parseBounds (contentLength : Option UInt64) (first last : List Char) :
    Except RangeDefect ByteRange :=
  match first, last with
  | [], [] => .ok full
  | [], suffix => do
    let count ← parsePosition suffix
    match contentLength with
    | none => throw .suffixWithoutLength
    | some length => return startingFrom (length - min length count)
  | start, [] => do
    return startingFrom (← parsePosition start)
  | start, last => do
    let start ← parsePosition start
    let last ← parsePosition last
    (ofBounds start last).mapError fun _ => .endPrecedesStart

/-- The range that a header value asks for; an empty one asks for everything. -/
def parseHeader (contentLength : Option UInt64) (header : List Char) :
    Except RangeDefect ByteRange :=
  if header.isEmpty then .ok full
  else
    match Text.after? "bytes=".toList header with
    | none => .error .unit
    | some set =>
      if ',' ∈ set then .error .severalRanges
      else
        match Text.cut? '-' set with
        | none => .error .missingDash
        | some (first, last) => parseBounds contentLength (Text.trim first) (Text.trim last)

/-- The range that a header asks for of a content of the given length, if known.  White
space around the value does not count. -/
def parse (header : String) (contentLength : Option UInt64) : Except RangeError ByteRange :=
  let value := Text.trim header.toList
  (parseHeader contentLength value).mapError (.request (String.ofList value))

end ByteRange

end KeyEnvelope
