import KeyEnvelope.Error

/-!
# Fields of records

The types of values that a record can hold, with their written form, and a field as
the place of such a value in a record.  A field type states the length of what it
writes beforehand; whether it keeps to that is checked where records are written and
read, not assumed here.  It may refuse what it is given with a failure of any group, and
whoever reads a record hands that on.
-/

namespace KeyEnvelope

/-- Why a field or a record could not be read. -/
inductive DecodeFailure
  /-- The data was refused: as a record that is malformed, or by a field type with a cause of
  its own. -/
  | malformed (cause : EnvelopeError)
  /-- A field type broke its promise. -/
  | defect (cause : Defect)
  deriving DecidableEq, Repr

/-- A type of values that a record can hold. -/
class FieldType (α : Type) where
  /-- The length of the written form. -/
  encodedLength : α → Nat
  /-- The written form. -/
  write : α → Bytes
  /-- The value at the beginning of the input, which has the given length, and how many
  bytes of the input it takes. -/
  read : (input : Bytes) → (length : Nat) → Except DecodeFailure (α × Nat)

namespace FieldType

/-- The bytes at the beginning of an input. -/
def readBytes (input : Bytes) (length : Nat) : Except DecodeFailure (Bytes × Nat) :=
  if length ≤ input.length then .ok (input.take length, length)
  else .error (.defect .shortInput)

/-- The text at the beginning of an input. -/
def readText (input : Bytes) (length : Nat) : Except DecodeFailure (String × Nat) := do
  let (bytes, taken) ← readBytes input length
  match Utf8.decode bytes with
  | .ok text => return (text, taken)
  | .error cause => throw (.malformed (.record (.fieldNotText cause)))

instance : FieldType Bytes where
  encodedLength := List.length
  write bytes := bytes
  read := readBytes

instance : FieldType String where
  encodedLength text := text.utf8ByteSize
  write := Utf8.encode
  read := readText

end FieldType

/-- A place in records of type `δ`, with how its value is written and read. -/
structure Field (δ : Type) where
  name : String
  encodedLength : δ → Nat
  write : δ → Bytes
  /-- The record with its value replaced by the one read, and how many bytes it takes. -/
  read : δ → (input : Bytes) → (length : Nat) → Except DecodeFailure (δ × Nat)

/-- The field of a value that can be taken out of a record and put into it. -/
def Field.of {δ α : Type} [FieldType α] (name : String) (get : δ → α) (set : δ → α → δ) :
    Field δ where
  name := name
  encodedLength record := FieldType.encodedLength (get record)
  write record := FieldType.write (get record)
  read record input length :=
    (FieldType.read input length).map fun (value, taken) => (set record value, taken)

end KeyEnvelope
