import KeyEnvelope.Error

/-!
# Readers

A reader is a state from which bytes are taken, a request at a time.  A request may
return fewer bytes than it asks for, none at the end, or fail and leave the reader as
it then is.  Each reader bounds the bytes and failures that are still to come, and so
every loop below ends.  A failure of kind `interrupted` asks for another try.
-/

namespace KeyEnvelope

/-- What a request on a reader of type `ρ` yields: a value or a failure, and the reader
after it. -/
abbrev ReadResult (ρ α : Type) := EStateM.Result StreamError ρ α

/-- States from which bytes are read. -/
class Reader (ρ : Type) where
  /-- One request for at most `n` bytes. -/
  read : (n : Nat) → ρ → ReadResult ρ Bytes
  /-- A bound on the bytes and the failures that are still to come. -/
  remaining : ρ → Nat
  /-- A request returns at most what it asks for. -/
  length_le : read n r = .ok data r' → data.length ≤ n
  /-- The bytes of a request are taken off the bound. -/
  remaining_of_ok : read n r = .ok data r' → remaining r' + data.length ≤ remaining r
  /-- A failure is taken off the bound. -/
  remaining_of_error : read n r = .error e r' → remaining r' < remaining r

namespace Reader

variable {ρ : Type} [Reader ρ]

/-- The bytes taken by requests of at most `size` bytes until `count` are there or
nothing more comes.  A failure is reported together with what came before it. -/
def collect (size count : Nat) (r : ρ) : (Bytes × Option StreamError) × ρ :=
  if count = 0 then (([], none), r)
  else
    match _h : read (min count size) r with
    | .ok [] r' => (([], none), r')
    | .ok (byte :: data) r' =>
      let ((rest, failure), r'') := collect size (count - (byte :: data).length) r'
      ((byte :: data ++ rest, failure), r'')
    | .error e r' =>
      if e.kind = .interrupted then collect size count r' else (([], some e), r')
termination_by remaining r
decreasing_by
  · have := remaining_of_ok _h
    simp at this
    omega
  · exact remaining_of_error _h

/-- The size of the requests that read a stream to its end. -/
def requestSize : Nat := 8192

/-- All bytes up to the first request that returns none, together with the failure that
ended the reading, if one did. -/
def readToEnd (r : ρ) : (Bytes × Option StreamError) × ρ :=
  collect requestSize (remaining r + 1) r

/-- All bytes of a stream, unless a failure ends the reading. -/
def toBytes (r : ρ) : Except StreamError Bytes :=
  match readToEnd r with
  | ((bytes, none), _) => .ok bytes
  | ((_, some e), _) => .error e

/-- Exactly `n` bytes; a stream that ends before is a failure. -/
def readExact (n : Nat) (r : ρ) : ReadResult ρ Bytes :=
  match collect n n r with
  | ((_, some e), r') => .error e r'
  | ((data, none), r') => if data.length = n then .ok data r' else .error .endOfStream r'

/-- Takes bytes off the reader until `count` are gone or nothing more comes; yields how
many of them did not come. -/
def discardLoop (size count : Nat) (r : ρ) : ReadResult ρ Nat :=
  if count = 0 then .ok 0 r
  else
    match _h : read (min count size) r with
    | .ok [] r' => .ok count r'
    | .ok (byte :: data) r' => discardLoop size (count - (byte :: data).length) r'
    | .error e r' => if e.kind = .interrupted then discardLoop size count r' else .error e r'
termination_by remaining r
decreasing_by
  · have := remaining_of_ok _h
    simp at this
    omega
  · exact remaining_of_error _h

/-- The largest request that `discard` makes. -/
def maxDiscardRequest : Nat := 2048

/-- Takes up to `n` bytes off the reader and yields how many there were. -/
def discard (n : Nat) (r : ρ) : ReadResult ρ Nat :=
  match discardLoop (min n maxDiscardRequest) n r with
  | .ok missing r' => .ok (n - missing) r'
  | .error e r' => .error e r'

end Reader

end KeyEnvelope
