import KeyEnvelope.KeyService

/-!
# Key services with a record of calls

Any behaviour of a key service, given as what it answers after the calls before, together
with a record of the calls made.  Whatever holds of all recorded services holds under
every key service, and says what was asked of it.
-/

namespace KeyEnvelope

/-- A call on a key service. -/
inductive ServiceCall
  | createKey (name : String)
  | wrap (name text : String)
  | unwrap (name ciphertext : String)
  | rotate (name : String)
  deriving DecidableEq, Repr

/-- A key service that answers each call in the light of the calls before it. -/
structure RecordedService where
  /-- The answer to a call; `past` holds the calls before it, the last one first.  Calls
  that yield no text only have to succeed. -/
  respond : (past : List ServiceCall) → ServiceCall → Except EnvelopeError String
  /-- The calls so far, the last one first. -/
  calls : List ServiceCall := []

namespace RecordedService

/-- The service that answers each call in the same way whatever came before. -/
def ofReplies (reply : ServiceCall → Except EnvelopeError String) : RecordedService :=
  ⟨fun _ => reply, []⟩

/-- Makes a call and records it. -/
def call (request : ServiceCall) : EStateM EnvelopeError RecordedService String :=
  fun service =>
    let recorded := { service with calls := request :: service.calls }
    match service.respond service.calls request with
    | .ok text => .ok text recorded
    | .error cause => .error cause recorded

instance : KeyService RecordedService where
  createKey name := discard (call (.createKey name))
  wrap name text := call (.wrap name text)
  unwrap name ciphertext := call (.unwrap name ciphertext)
  rotate name := discard (call (.rotate name))

end RecordedService

end KeyEnvelope
