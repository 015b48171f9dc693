import Mathlib.Algebra.Order.BigOperators.Group.List
import KeyEnvelope.Record.StoredKey
import KeyEnvelope.Proofs.Record.Faithful

/-!
# Stored keys read back

Both kinds of stored keys have faithful codecs, and their markers tell them apart, so
data reads as a stored key exactly if it is the written form of that key, and it does not
matter which kind is tried first.  The same holds of lists of stored keys, which no
stored key is mistaken for.
-/

namespace KeyEnvelope

/-! ## The two kinds -/

theorem PlainKey.codec_faithful : PlainKey.codec.Faithful where
  honest := by simp [codec, Field.of_honest]
  apart := by simp [codec, Field.of_spares]
  covers := by
    intro key key' same
    simp only [codec, List.forall_mem_cons] at same
    obtain ⟨algorithm, keyData, iv, -⟩ := same
    cases key
    cases key'
    rw [mk.injEq]
    exact ⟨FieldType.eq_of_write_eq algorithm, FieldType.eq_of_write_eq keyData,
      FieldType.eq_of_write_eq iv⟩

theorem WrappedKey.codec_faithful : WrappedKey.codec.Faithful where
  honest := by simp [codec, Field.of_honest]
  apart := by simp [codec, Field.of_spares]
  covers := by
    intro key key' same
    simp only [codec, List.forall_mem_cons] at same
    obtain ⟨algorithm, keyId, version, dataAlgorithm, keyData, iv, -⟩ := same
    cases key
    cases key'
    rw [mk.injEq]
    exact ⟨FieldType.eq_of_write_eq algorithm, FieldType.eq_of_write_eq keyId,
      FieldType.eq_of_write_eq version, FieldType.eq_of_write_eq dataAlgorithm,
      FieldType.eq_of_write_eq keyData, FieldType.eq_of_write_eq iv⟩

variable {data : Bytes} {failure : DecodeFailure}

theorem PlainKey.decode_eq_some {key : PlainKey} :
    decode data = .ok (some key) ↔ encode key = .ok data :=
  RecordCodec.decode_eq_some_of_faithful codec_faithful

theorem WrappedKey.decode_eq_some {key : WrappedKey} :
    decode data = .ok (some key) ↔ encode key = .ok data :=
  RecordCodec.decode_eq_some_of_faithful codec_faithful

/-- Data is too short to be of either kind, or foreign to one of them at least. -/
theorem StoredKey.decode_cases (data : Bytes) :
    (PlainKey.decode data = .error (.malformed (.record .shortMarker)) ∧
        WrappedKey.decode data = .error (.malformed (.record .shortMarker))) ∨
      PlainKey.decode data = .ok none ∨ WrappedKey.decode data = .ok none := by
  rcases Nat.lt_or_ge data.length 2 with short | room
  · exact .inl ⟨RecordCodec.decode_of_short short, RecordCodec.decode_of_short short⟩
  -- The markers differ, so data that bears one of them does not bear the other.
  · rcases Classical.em (data.take 2 = PlainKey.codec.marker.bytes) with plain | foreign
    · refine .inr (.inr (RecordCodec.decode_eq_none.mpr (Marker.read_eq_none.mpr ⟨room, ?_⟩)))
      rw [plain]
      decide
    · exact .inr (.inl (RecordCodec.decode_eq_none.mpr (Marker.read_eq_none.mpr ⟨room, foreign⟩)))

theorem WrappedKey.decode_eq_none_of_plain {key : PlainKey}
    (plain : PlainKey.decode data = .ok (some key)) : decode data = .ok none := by
  rcases StoredKey.decode_cases data with ⟨short, -⟩ | foreign | foreign
  · rw [short] at plain
    cases plain
  · rw [foreign] at plain
    cases plain
  · exact foreign

theorem PlainKey.decode_eq_none_of_wrapped {key : WrappedKey}
    (wrapped : WrappedKey.decode data = .ok (some key)) : decode data = .ok none := by
  rcases StoredKey.decode_cases data with ⟨-, short⟩ | foreign | foreign
  · rw [short] at wrapped
    cases wrapped
  · exact foreign
  · rw [foreign] at wrapped
    cases wrapped

namespace StoredKey

variable {key : StoredKey} {keys : List StoredKey}

/-! ## One stored key -/

/-- A key that was found, or a failure where there is none. -/
def orUnknown {α : Type} (kind : α → StoredKey) : Option α → Except DecodeFailure StoredKey
  | some key => .ok (kind key)
  | none => .error (.malformed (.record .unknownVariant))

theorem orUnknown_eq_ok {α : Type} {kind : α → StoredKey}
    {outcome : Except DecodeFailure (Option α)} :
    outcome >>= orUnknown kind = .ok key ↔
      ∃ found, outcome = .ok (some found) ∧ kind found = key := by
  rw [Outcome.bind_eq_ok]
  refine ⟨fun steps => ?_, fun found => ?_⟩
  · obtain ⟨_ | found, same, kept⟩ := steps
    · cases kept
    · exact ⟨found, same, Except.ok.inj kept⟩
  · obtain ⟨found, same, rfl⟩ := found
    exact ⟨some found, same, rfl⟩

/-- The stored key that data is the written form of, with wrapped keys tried first. -/
def decodeWrappedFirst (data : Bytes) : Except DecodeFailure StoredKey := do
  if let some key ← WrappedKey.decode data then
    return wrapped key
  if let some key ← PlainKey.decode data then
    return plain key
  throw (.malformed (.record .unknownVariant))

theorem decode_of_plain_none (foreign : PlainKey.decode data = .ok none) :
    decode data = WrappedKey.decode data >>= orUnknown wrapped ∧
      decodeWrappedFirst data = WrappedKey.decode data >>= orUnknown wrapped := by
  unfold decode decodeWrappedFirst
  rw [foreign]
  cases WrappedKey.decode data with
  | error failure => exact ⟨rfl, rfl⟩
  | ok found => cases found <;> exact ⟨rfl, rfl⟩

theorem decode_of_wrapped_none (foreign : WrappedKey.decode data = .ok none) :
    decode data = PlainKey.decode data >>= orUnknown plain ∧
      decodeWrappedFirst data = PlainKey.decode data >>= orUnknown plain := by
  unfold decode decodeWrappedFirst
  rw [foreign]
  cases PlainKey.decode data with
  | error failure => exact ⟨rfl, rfl⟩
  | ok found => cases found <;> exact ⟨rfl, rfl⟩

theorem decode_of_short (plain : PlainKey.decode data = .error failure)
    (wrapped : WrappedKey.decode data = .error failure) :
    decode data = .error failure ∧ decodeWrappedFirst data = .error failure := by
  unfold decode decodeWrappedFirst
  rw [plain, wrapped]
  exact ⟨rfl, rfl⟩

/-- It does not matter which kind is tried first. -/
theorem decodeWrappedFirst_eq (data : Bytes) : decodeWrappedFirst data = decode data := by
  rcases decode_cases data with ⟨plain, wrapped⟩ | foreign | foreign
  · obtain ⟨first, second⟩ := decode_of_short plain wrapped
    rw [first, second]
  · obtain ⟨first, second⟩ := decode_of_plain_none foreign
    rw [first, second]
  · obtain ⟨first, second⟩ := decode_of_wrapped_none foreign
    rw [first, second]

/-- A record that is broken for one kind is not read as the other. -/
theorem decode_of_error
    (broken : PlainKey.decode data = .error failure ∨ WrappedKey.decode data = .error failure) :
    decode data = .error failure := by
  rcases decode_cases data with ⟨plain, wrapped⟩ | foreign | foreign
  · rw [(decode_of_short plain wrapped).1]
    rw [plain, wrapped] at broken
    rcases broken with same | same <;> cases same <;> rfl
  · rw [foreign] at broken
    rw [(decode_of_plain_none foreign).1, broken.resolve_left nofun]
    rfl
  · rw [foreign] at broken
    rw [(decode_of_wrapped_none foreign).1, broken.resolve_right nofun]
    rfl

theorem decode_of_plain {key : PlainKey} (written : PlainKey.encode key = .ok data) :
    decode data = .ok (plain key) := by
  have found := PlainKey.decode_eq_some.mpr written
  rw [(decode_of_wrapped_none (WrappedKey.decode_eq_none_of_plain found)).1]
  exact orUnknown_eq_ok.mpr ⟨key, found, rfl⟩

theorem decode_of_wrapped {key : WrappedKey} (written : WrappedKey.encode key = .ok data) :
    decode data = .ok (wrapped key) := by
  have found := WrappedKey.decode_eq_some.mpr written
  rw [(decode_of_plain_none (PlainKey.decode_eq_none_of_wrapped found)).1]
  exact orUnknown_eq_ok.mpr ⟨key, found, rfl⟩

/-- Data reads as a stored key exactly if it is the written form of that key. -/
theorem decode_eq_ok : decode data = .ok key ↔ encode key = .ok data := by
  refine ⟨fun decoded => ?_, fun written => ?_⟩
  · rcases decode_cases data with ⟨plain, wrapped⟩ | foreign | foreign
    · rw [(decode_of_short plain wrapped).1] at decoded
      cases decoded
    · rw [(decode_of_plain_none foreign).1] at decoded
      obtain ⟨found, read, rfl⟩ := orUnknown_eq_ok.mp decoded
      exact WrappedKey.decode_eq_some.mp read
    · rw [(decode_of_wrapped_none foreign).1] at decoded
      obtain ⟨found, read, rfl⟩ := orUnknown_eq_ok.mp decoded
      exact PlainKey.decode_eq_some.mp read
  · cases key with
    | plain key => exact decode_of_plain written
    | wrapped key => exact decode_of_wrapped written

theorem orUnknown_eq_error {α : Type} {kind : α → StoredKey}
    {outcome : Except DecodeFailure (Option α)}
    (blames : ∀ {failure}, outcome = .error failure → ∃ cause, failure = .malformed (.record cause))
    (failed : outcome >>= orUnknown kind = .error failure) :
    ∃ cause, failure = .malformed (.record cause) := by
  obtain broken | ⟨_ | found, -, unknown⟩ := Outcome.bind_eq_error.mp failed
  · exact blames broken
  · cases unknown
    exact ⟨_, rfl⟩
  · cases unknown

/-- Data that is no stored key is to blame for it. -/
theorem of_decode_error (failed : decode data = .error failure) :
    ∃ cause, failure = .malformed (.record cause) := by
  rcases decode_cases data with ⟨plain, wrapped⟩ | foreign | foreign
  · rw [(decode_of_short plain wrapped).1] at failed
    cases failed
    exact ⟨_, rfl⟩
  · rw [(decode_of_plain_none foreign).1] at failed
    exact orUnknown_eq_error (RecordCodec.of_decode_error WrappedKey.codec_faithful.honest) failed
  · rw [(decode_of_wrapped_none foreign).1] at failed
    exact orUnknown_eq_error (RecordCodec.of_decode_error PlainKey.codec_faithful.honest) failed

/-! ## Lengths -/

/-- What the fields of a stored key's record hold, one after the other. -/
def parts : StoredKey → List Bytes
  | plain key => [Utf8.encode key.algorithm, key.keyData, key.iv]
  | wrapped key => [Utf8.encode key.wrappingAlgorithm, Utf8.encode key.wrappingKeyId,
      Utf8.encode key.wrappingKeyVersion, Utf8.encode key.dataAlgorithm, key.encryptedKeyData,
      key.iv]

/-- The length of a stored key's record. -/
def recordLength (key : StoredKey) : Nat :=
  6 + (key.parts.map fun part => 4 + part.length).sum

/-- A stored key has a written form exactly if none of its parts is too long. -/
theorem exists_encode_iff (key : StoredKey) :
    (∃ data, encode key = .ok data) ↔ ∀ part ∈ key.parts, part.length < UInt32.size / 2 := by
  cases key with
  | plain key =>
    have parts : (plain key).parts = PlainKey.codec.fields.map (·.write key) := rfl
    rw [parts, List.forall_mem_map]
    exact RecordCodec.exists_encode_iff PlainKey.codec_faithful.honest (by decide)
  | wrapped key =>
    have parts : (wrapped key).parts = WrappedKey.codec.fields.map (·.write key) := rfl
    rw [parts, List.forall_mem_map]
    exact RecordCodec.exists_encode_iff WrappedKey.codec_faithful.honest (by decide)

theorem length_of_encode (written : encode key = .ok data) : data.length = key.recordLength := by
  cases key with
  | plain key => exact RecordCodec.length_of_encode written
  | wrapped key => exact RecordCodec.length_of_encode written

/-- A part is shorter than the record. -/
theorem length_le_recordLength {part : Bytes} (member : part ∈ key.parts) :
    part.length ≤ key.recordLength := by
  have framed : 4 + part.length ∈ key.parts.map fun part => 4 + part.length :=
    List.mem_map_of_mem member
  have summand := List.le_sum_of_mem framed
  unfold recordLength
  omega

theorem exists_encode_of_recordLength (short : key.recordLength < UInt32.size / 2) :
    ∃ data, encode key = .ok data :=
  (exists_encode_iff key).mpr fun _ member =>
    Nat.lt_of_le_of_lt (length_le_recordLength member) short

end StoredKey

end KeyEnvelope
