import KeyEnvelope.Cipher.Counter
import KeyEnvelope.Cipher.Key
import KeyEnvelope.Reader.Source

/-!
# Reading through counter mode

A reader that encrypts or decrypts another one on the way.  Its state is the position
in the keystream: it moves by what the inner reader returns and by nothing else, so
how the stream is cut into requests does not show in the bytes.
-/

namespace KeyEnvelope

/-- A reader under the keystream of a key from a counter block on. -/
structure CounterReader (ρ : Type) where
  inner : ρ
  schedule : Aes.Schedule
  iv : Block
  /-- How many bytes have been read. -/
  position : Nat

namespace CounterReader

variable {ρ : Type}

/-- A reader at the start of the keystream; the key has to have a length of the cipher. -/
def start (inner : ρ) (key : Bytes) (iv : Block) : Except ConfigError (CounterReader ρ) := do
  checkKeyLength key.length
  return ⟨inner, Aes.Schedule.ofKey key, iv, 0⟩

/-- A reader at the start of the keystream whose counter block is given as bytes. -/
def startAtBytes (inner : ρ) (key iv : Bytes) : Except ConfigError (CounterReader ρ) := do
  checkKeyLength key.length
  match Block.ofBytes? iv with
  | some iv => start inner key iv
  | none => throw (.ivSize iv.length)

/-- The text of a reader for diagnosis, which shows nothing of the key. -/
def redacted : String := "CtrReader \x7b .. \x7d"

variable [Reader ρ]

/-- One request on the inner reader, its bytes under the keystream at their positions. -/
def read (n : Nat) (r : CounterReader ρ) : ReadResult (CounterReader ρ) Bytes :=
  match Reader.read n r.inner with
  | .ok data inner =>
    let text := Counter.apply (Aes.encryptBlock r.schedule) r.iv r.position data
    .ok text { r with inner, position := r.position + data.length }
  | .error e inner => .error e { r with inner }

instance : Reader (CounterReader ρ) where
  read := read
  remaining r := Reader.remaining r.inner
  length_le := by
    intro n data r r' h
    unfold read at h
    split at h <;> cases h
    simpa using Reader.length_le ‹_›
  remaining_of_ok := by
    intro n data r r' h
    unfold read at h
    split at h <;> cases h
    simpa using Reader.remaining_of_ok ‹_›
  remaining_of_error := by
    intro n e r r' h
    unfold read at h
    split at h <;> cases h
    exact Reader.remaining_of_error ‹_›

end CounterReader

end KeyEnvelope
