import KeyEnvelope.Record.Field

/-!
# Records as bytes

A record is written as a two-byte marker, the number of its fields and each field with
its length in front; numbers have four bytes, are big-endian and signed.  Reading tells
a record of another marker (`none`) from a broken one (a failure), and takes nothing
behind the last field.
-/

namespace KeyEnvelope

/-! ## Markers and lengths -/

/-- The character that a written record begins with; it fits in two bytes. -/
structure Marker where
  char : Char
  fits : char.toNat < 65536
  deriving DecidableEq

namespace Marker

/-- The marker of a character. -/
def ofChar (char : Char) : Except Defect Marker :=
  if h : char.toNat < 65536 then .ok ⟨char, h⟩ else .error (.wideMarker char)

/-- The two bytes of a marker. -/
def bytes (marker : Marker) : Bytes :=
  Bytes.ofNatBE 2 marker.char.toNat

/-- Whether data begins with a marker, and what follows it. -/
def read (marker : Marker) (input : Bytes) : Except RecordError (Option Bytes) :=
  if input.length < 2 then .error .shortMarker
  else .ok (if input.take 2 = marker.bytes then some (input.drop 2) else none)

end Marker

/-- The four bytes of a length. -/
def encodeLength (length : Nat) : Except Defect Bytes :=
  if length < UInt32.size / 2 then .ok (Bytes.ofNatBE 4 length) else .error (.lengthTooLarge length)

/-- The length at the beginning of data, and what follows it. -/
def decodeLength (input : Bytes) : Except RecordError (Nat × Bytes) :=
  if input.length < 4 then .error .shortLength
  else
    let n := Bytes.toNatBE (input.take 4)
    if n < UInt32.size / 2 then .ok (n, input.drop 4)
    else .error (.negativeLength (n - UInt32.size))

/-- A length takes four bytes. -/
theorem length_of_decodeLength {input rest : Bytes} {n : Nat}
    (h : decodeLength input = .ok (n, rest)) : rest.length + 4 = input.length := by
  unfold decodeLength at h
  split at h
  · cases h
  · dsimp only at h
    split at h <;> cases h
    simp
    omega

/-! ## Records -/

/-- How records of type `δ` are written. -/
structure RecordCodec (δ : Type) where
  marker : Marker
  fields : List (Field δ)

namespace RecordCodec

variable {δ : Type}

/-- The codec of records that a character marks. -/
def ofChar (marker : Char) (fields : List (Field δ)) : Except Defect (RecordCodec δ) :=
  (Marker.ofChar marker).map fun marker => ⟨marker, fields⟩

/-- A field with its length in front. -/
def encodeField (record : δ) (field : Field δ) : Except Defect Bytes := do
  let declared := field.encodedLength record
  let length ← encodeLength declared
  let written := field.write record
  if written.length = declared then return length ++ written
  else throw (.fieldWrote field.name written.length declared)

/-- The written form of a record. -/
def encode (codec : RecordCodec δ) (record : δ) : Except Defect Bytes := do
  let count ← encodeLength codec.fields.length
  let fields ← codec.fields.mapM (encodeField record)
  return codec.marker.bytes ++ count ++ fields.flatten

/-- A record with one field read from the data, and what follows the field. -/
def decodeField (field : Field δ) (record : δ) (input : Bytes) :
    Except DecodeFailure (δ × Bytes) := do
  let (length, input) ← (decodeLength input).mapError (.malformed ∘ .record)
  if input.length < length then
    throw (.malformed (.record (.fieldOverrun field.name length input.length)))
  let (record, taken) ← field.read record input length
  if taken = length then return (record, input.drop taken)
  else throw (.defect (.fieldRead field.name taken length))

/-- A record with fields read from the data one after the other, and what follows. -/
def decodeFields : (fields : List (Field δ)) → (record : δ) → (input : Bytes) →
    Except DecodeFailure (δ × Bytes)
  | [], record, input => .ok (record, input)
  | field :: fields, record, input => do
    let (record, input) ← decodeField field record input
    decodeFields fields record input

/-- The record that follows the marker in data.  Places without a field keep the
default. -/
def decodeBody [Inhabited δ] (codec : RecordCodec δ) (input : Bytes) :
    Except DecodeFailure δ := do
  let (count, input) ← (decodeLength input).mapError (.malformed ∘ .record)
  if count ≠ codec.fields.length then
    throw (.malformed (.record (.fieldCount codec.marker.char codec.fields.length count)))
  let (record, rest) ← decodeFields codec.fields default input
  if rest.isEmpty then return record
  else throw (.malformed (.record (.trailing rest.length codec.marker.char)))

/-- The record that data is the written form of, or nothing if the data is marked as
another kind of record. -/
def decode [Inhabited δ] (codec : RecordCodec δ) (data : Bytes) :
    Except DecodeFailure (Option δ) := do
  match ← (codec.marker.read data).mapError (.malformed ∘ .record) with
  | none => return none
  | some input => return some (← codec.decodeBody input)

end RecordCodec

/-! ## Lists -/

namespace ListCodec

/-- The marker of lists. -/
def marker : Marker := ⟨'L', by decide⟩

/-- An element with its length in front. -/
def encodeElement (element : Bytes) : Except Defect Bytes := do
  return (← encodeLength element.length) ++ element

/-- The written form of a list of byte strings: the marker, then the elements. -/
def encode (elements : List Bytes) : Except Defect Bytes := do
  return marker.bytes ++ (← elements.mapM encodeElement).flatten

/-- The elements up to the end of the data. -/
def decodeElements (input : Bytes) : Except RecordError (List Bytes) :=
  if input.isEmpty then .ok []
  else
    match _h : decodeLength input with
    | .error cause => .error cause
    | .ok (length, rest) =>
      if rest.length < length then .error (.elementOverrun length rest.length)
      else (decodeElements (rest.drop length)).map (rest.take length :: ·)
termination_by input.length
decreasing_by
  have := length_of_decodeLength _h
  simp
  omega

/-- The list that data is the written form of, or nothing if it is marked as something
else. -/
def decode (data : Bytes) : Except RecordError (Option (List Bytes)) := do
  match ← marker.read data with
  | none => return none
  | some input => return some (← decodeElements input)

end ListCodec

end KeyEnvelope
