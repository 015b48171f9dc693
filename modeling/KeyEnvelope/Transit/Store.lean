import Std.Data.ExtTreeMap
import KeyEnvelope.SealedData
import KeyEnvelope.Transit.Ciphertext

/-!
# The keys of the transit service

Named keys with numbered versions.  Texts are wrapped under the latest version and
unwrapped under the one they name, as long as it is retained and not below the minimum
of its key.  Rotation adds a version and trimming removes those below the minimum.

Everything that is drawn or read off a clock is an argument, so the operations are
functions on stores.
-/

namespace KeyEnvelope

/-- One version of a named key. -/
structure KeyVersion where
  number : Nat
  material : SealingKey
  createdAt : Nat
  deriving DecidableEq

/-- A named key: its retained versions, oldest first, the latest number that was given
to one, and the smallest that may still unwrap. -/
structure TransitKey where
  versions : List KeyVersion
  latest : Nat
  minimum : Nat
  deriving DecidableEq

namespace TransitKey

/-- A key with its first version. -/
def create (material : SealingKey) (createdAt : Nat) : TransitKey :=
  ⟨[⟨1, material, createdAt⟩], 1, 1⟩

/-- The retained version of a number. -/
def version? (key : TransitKey) (number : Nat) : Option KeyVersion :=
  key.versions.find? (·.number = number)

/-- The key with one version more.  The count of versions has no bound here; a count in words of
32 bits is the same until a key has been rotated `UInt32.size - 1` times. -/
def rotate (key : TransitKey) (material : SealingKey) (createdAt : Nat) : TransitKey :=
  { key with
    versions := key.versions ++ [⟨key.latest + 1, material, createdAt⟩]
    latest := key.latest + 1 }

/-- The key without the versions below its minimum. -/
def trim (key : TransitKey) : TransitKey :=
  { key with versions := key.versions.filter (key.minimum ≤ ·.number) }

end TransitKey

/-- What the service tells about a key. -/
structure TransitKeyInfo where
  name : String
  latest : Nat
  minimum : Nat
  retained : Nat
  createdAt : Nat
  rotatedAt : Nat
  deriving DecidableEq, Repr

/-- The keys of a transit service under their names. -/
structure TransitStore where
  keys : Std.ExtTreeMap String TransitKey := {}

namespace TransitStore

/-- The key of a name. -/
def find (store : TransitStore) (name : String) : Except KeyManagementError TransitKey :=
  match store.keys[name]? with
  | some key => .ok key
  | none => .error (.keyNotFound name)

/-- The store with a key put under a name. -/
def put (store : TransitStore) (name : String) (key : TransitKey) : TransitStore :=
  ⟨store.keys.insert name key⟩

/-! ## Operations of a key service -/

/-- Creates the key of a name, unless there is one. -/
def createKey (store : TransitStore) (name : String) (material : SealingKey)
    (createdAt : Nat) : TransitStore :=
  if name ∈ store.keys then store else store.put name (.create material createdAt)

/-- A text wrapped under the latest version of a key. -/
def wrap (store : TransitStore) (name : String) (nonce : Nonce) (text : String) :
    Except KeyManagementError String := do
  let key ← store.find name
  let some version := key.version? key.latest | throw (.versionMissing name key.latest)
  let data := SealedData.ofPlaintext version.material nonce (Utf8.encode name) (Utf8.encode text)
  return TransitCiphertext.render ⟨version.number, data.toBase64.toList⟩

/-- The text that was wrapped under a key. -/
def unwrap (store : TransitStore) (name ciphertext : String) :
    Except KeyManagementError String := do
  let ⟨number, payload⟩ ← TransitCiphertext.parse ciphertext
  let key ← store.find name
  if number < key.minimum then
    throw (.versionBelowMinimum name number key.minimum)
  let some version := key.version? number | throw (.versionMissing name number)
  let data ← SealedData.ofBase64 (String.ofList payload)
  let plaintext ← data.plaintext version.material (Utf8.encode name)
  (Utf8.decode plaintext).mapError fun _ => .unwrappedNotText

/-- Adds a version to a key. -/
def rotate (store : TransitStore) (name : String) (material : SealingKey) (createdAt : Nat) :
    Except KeyManagementError TransitStore := do
  let key ← store.find name
  return store.put name (key.rotate material createdAt)

/-! ## Retention -/

/-- Sets the smallest version of a key that may still unwrap. -/
def setMinimum (store : TransitStore) (name : String) (version : Nat) :
    Except KeyManagementError TransitStore := do
  let key ← store.find name
  if version = 0 ∨ key.latest < version then
    throw (.minimumOutside version key.latest)
  return store.put name { key with minimum := version }

/-- Removes the versions of a key below its minimum and yields how many there were. -/
def trim (store : TransitStore) (name : String) :
    Except KeyManagementError (Nat × TransitStore) := do
  let key ← store.find name
  let trimmed := key.trim
  return (key.versions.length - trimmed.versions.length, store.put name trimmed)

/-! ## What the store tells -/

/-- The latest version of a key. -/
def latestVersion? (store : TransitStore) (name : String) : Option Nat :=
  store.keys[name]?.map (·.latest)

/-- The names of all keys in order. -/
def names (store : TransitStore) : List String :=
  store.keys.keys

/-- What there is to tell about a key that has a version left. -/
def info? (store : TransitStore) (name : String) : Option TransitKeyInfo := do
  let key ← store.keys[name]?
  let oldest ← key.versions.head?
  let newest ← key.versions.getLast?
  return {
    name := name
    latest := key.latest
    minimum := key.minimum
    retained := key.versions.length
    createdAt := oldest.createdAt
    rotatedAt := newest.createdAt }

end TransitStore

end KeyEnvelope
