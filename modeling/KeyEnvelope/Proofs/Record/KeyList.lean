import KeyEnvelope.Proofs.Record.StoredKey

/-!
# Lists of stored keys read back

Data reads as a list of stored keys exactly if it is the written form of that list
(`StoredKey.decodeList_eq_ok`), and otherwise the data is to blame.  Stored keys and lists
of them bear different markers, so neither is taken for the other
(`StoredKey.decodeList_of_encode`, `StoredKey.decode_of_encodeList`).
-/

namespace KeyEnvelope.StoredKey

variable {data : Bytes} {failure : DecodeFailure} {key : StoredKey} {keys : List StoredKey}

/-! ## Steps -/

theorem encodeList_eq_ok :
    encodeList keys = .ok data ↔
      ∃ elements, keys.mapM encode = .ok elements ∧ ListCodec.encode elements = .ok data :=
  Outcome.bind_eq_ok

theorem decodeList_eq (data : Bytes) :
    decodeList data = match ListCodec.decode data with
      | .ok (some elements) => elements.mapM decode
      | .ok none => .error (.malformed (.record .notKeyList))
      | .error cause => .error (.malformed (.record cause)) := by
  unfold decodeList
  cases ListCodec.decode data with
  | error cause => rfl
  | ok elements => cases elements <;> rfl

/-- Reading the elements of a list one by one undoes writing them. -/
theorem mapM_decode_eq_ok {elements : List Bytes} :
    elements.mapM decode = .ok keys ↔ keys.mapM encode = .ok elements := by
  rw [Outcome.mapM_eq_ok, Outcome.mapM_eq_ok]
  refine ⟨fun read => .flip ?_, fun written => .flip ?_⟩
  · exact read.imp fun _ _ => decode_eq_ok.mp
  · exact written.imp fun _ _ => decode_eq_ok.mpr

/-! ## Whole lists -/

/-- Data reads as stored keys exactly if it is the written form of them. -/
theorem decodeList_eq_ok : decodeList data = .ok keys ↔ encodeList keys = .ok data := by
  rw [encodeList_eq_ok, decodeList_eq]
  refine ⟨fun decoded => ?_, fun written => ?_⟩
  · split at decoded
    next elements found =>
      exact ⟨elements, mapM_decode_eq_ok.mp decoded, ListCodec.decode_eq_some.mp found⟩
    next => cases decoded
    next => cases decoded
  · obtain ⟨elements, written, framed⟩ := written
    rw [ListCodec.decode_eq_some.mpr framed]
    exact mapM_decode_eq_ok.mpr written

theorem of_decodeList_error (failed : decodeList data = .error failure) :
    ∃ cause, failure = .malformed (.record cause) := by
  rw [decodeList_eq] at failed
  split at failed
  next =>
    obtain ⟨element, -, failed⟩ := Outcome.mapM_eq_error failed
    exact of_decode_error failed
  next => cases failed; exact ⟨_, rfl⟩
  next => cases failed; exact ⟨_, rfl⟩

/-- Stored keys have a written form as a list exactly if none of their records is too
long. -/
theorem exists_encodeList_iff (keys : List StoredKey) :
    (∃ data, encodeList keys = .ok data) ↔ ∀ key ∈ keys, key.recordLength < UInt32.size / 2 := by
  refine ⟨fun written key member => ?_, fun short => ?_⟩
  · obtain ⟨data, written⟩ := written
    obtain ⟨elements, written, framed⟩ := encodeList_eq_ok.mp written
    obtain ⟨element, among, written⟩ := Outcome.exists_of_mapM_eq_ok written member
    rw [← length_of_encode written]
    exact ListCodec.exists_encode_iff.mp ⟨data, framed⟩ element among
  · obtain ⟨elements, written⟩ : ∃ elements, keys.mapM encode = .ok elements :=
      Outcome.exists_mapM_eq_ok fun key member => exists_encode_of_recordLength (short key member)
    obtain ⟨data, framed⟩ : ∃ data, ListCodec.encode elements = .ok data := by
      refine ListCodec.exists_encode_iff.mpr fun element among => ?_
      obtain ⟨key, member, read⟩ :=
        Outcome.exists_of_mapM_eq_ok (mapM_decode_eq_ok.mpr written) among
      rw [length_of_encode (decode_eq_ok.mp read)]
      exact short key member
    exact ⟨data, encodeList_eq_ok.mpr ⟨elements, written, framed⟩⟩

/-- The lists of stored keys are a canonical format: data reads as a list exactly if it is
the written form of that list, which every list of short records has and shares with no
other, and other data is malformed. -/
theorem decodeList_canonical :
    (∀ data keys, decodeList data = .ok keys ↔ encodeList keys = .ok data) ∧
    (∀ keys, (∃ data, encodeList keys = .ok data) ↔
      ∀ key ∈ keys, key.recordLength < UInt32.size / 2) ∧
    (∀ keys keys' data, encodeList keys = .ok data → encodeList keys' = .ok data → keys = keys') ∧
    ∀ data, (∀ keys, encodeList keys ≠ .ok data) →
      ∃ cause, decodeList data = .error (.malformed (.record cause)) := by
  refine ⟨fun data keys => decodeList_eq_ok, exists_encodeList_iff, ?_, ?_⟩
  · intro keys keys' data written written'
    have decoded := decodeList_eq_ok.mpr written
    rw [decodeList_eq_ok.mpr written'] at decoded
    exact (Except.ok.inj decoded).symm
  · intro data unwritten
    cases outcome : decodeList data with
    | ok keys => exact absurd (decodeList_eq_ok.mp outcome) (unwritten keys)
    | error failure =>
      obtain ⟨cause, rfl⟩ := of_decodeList_error outcome
      exact ⟨cause, rfl⟩

/-- A key in the clear twice and a wrapped key with empty fields between. -/
theorem decodeList_canonical_repeated :
    let plain : StoredKey := .plain ⟨"AES", [1, 2], [3]⟩
    let wrapped : StoredKey := .wrapped ⟨"é", "", "", "", [], []⟩
    let data : Bytes := [0, 76,
      0, 0, 0, 24, 0, 85, 0, 0, 0, 3, 0, 0, 0, 3, 65, 69, 83, 0, 0, 0, 2, 1, 2, 0, 0, 0, 1, 3,
      0, 0, 0, 32, 0, 69, 0, 0, 0, 6, 0, 0, 0, 2, 195, 169, 0, 0, 0, 0, 0, 0, 0, 0, 0, 0, 0, 0,
        0, 0, 0, 0, 0, 0, 0, 0,
      0, 0, 0, 24, 0, 85, 0, 0, 0, 3, 0, 0, 0, 3, 65, 69, 83, 0, 0, 0, 2, 1, 2, 0, 0, 0, 1, 3]
    decodeList data = .ok [plain, wrapped, plain] ∧
      ∃ cause, decodeList [0, 76, 255, 0, 0, 0] = .error (.malformed (.record cause)) := by
  refine ⟨(decodeList_canonical.1 _ _).mpr (by decide +kernel), ?_⟩
  refine decodeList_canonical.2.2.2 _ fun keys written => ?_
  have read := decodeList_eq_ok.mpr written
  have broken : (decodeList [0, 76, 255, 0, 0, 0]).toOption = none := by decide +kernel
  rw [read] at broken
  cases broken

/-! ## One key or many -/

/-- A stored key is no list of stored keys. -/
theorem decodeList_of_encode (written : encode key = .ok data) :
    decodeList data = .error (.malformed (.record .notKeyList)) := by
  have foreign : ListCodec.marker.read data = .ok none := by
    cases key with
    | plain key =>
      have framed : PlainKey.codec.encode key = .ok data := written
      exact RecordCodec.read_of_encode framed (by decide)
    | wrapped key =>
      have framed : WrappedKey.codec.encode key = .ok data := written
      exact RecordCodec.read_of_encode framed (by decide)
  rw [decodeList_eq, ListCodec.decode_of_foreign foreign]

/-- A list of stored keys is no stored key. -/
theorem decode_of_encodeList (written : encodeList keys = .ok data) :
    decode data = .error (.malformed (.record .unknownVariant)) := by
  obtain ⟨elements, -, framed⟩ := encodeList_eq_ok.mp written
  have plain : PlainKey.decode data = .ok none :=
    RecordCodec.decode_eq_none.mpr (ListCodec.read_of_encode framed (by decide))
  have wrapped : WrappedKey.decode data = .ok none :=
    RecordCodec.decode_eq_none.mpr (ListCodec.read_of_encode framed (by decide))
  rw [(decode_of_plain_none plain).1, wrapped]
  rfl

/-- Data reads as a stored key exactly if it is the written form of that key, whichever
kind is tried first.  What is broken for one kind is not read as the other, and neither is
a key taken for a list nor a list for a key. -/
theorem decode_canonical :
    (∀ data key, decode data = .ok key ↔ encode key = .ok data) ∧
    (∀ key, (∃ data, encode key = .ok data) ↔
      ∀ part ∈ key.parts, part.length < UInt32.size / 2) ∧
    (∀ data, decodeWrappedFirst data = decode data) ∧
    (∀ data key, PlainKey.encode key = .ok data → WrappedKey.decode data = .ok none) ∧
    (∀ data key, WrappedKey.encode key = .ok data → PlainKey.decode data = .ok none) ∧
    (∀ data failure,
      PlainKey.decode data = .error failure ∨ WrappedKey.decode data = .error failure →
        decode data = .error failure) ∧
    (∀ data key, encode key = .ok data →
      decodeList data = .error (.malformed (.record .notKeyList))) ∧
    ∀ data keys, encodeList keys = .ok data →
      decode data = .error (.malformed (.record .unknownVariant)) := by
  refine ⟨fun _ _ => decode_eq_ok, exists_encode_iff, decodeWrappedFirst_eq, ?_, ?_, ?_, ?_, ?_⟩
  · intro data key written
    exact WrappedKey.decode_eq_none_of_plain (PlainKey.decode_eq_some.mpr written)
  · intro data key written
    exact PlainKey.decode_eq_none_of_wrapped (WrappedKey.decode_eq_some.mpr written)
  · intro data failure broken
    exact decode_of_error broken
  · intro data key written
    exact decodeList_of_encode written
  · intro data keys written
    exact decode_of_encodeList written

/-- A key in the clear, and a wrapped key of which only the number of fields is left. -/
theorem decode_canonical_beside_broken :
    let key : PlainKey := ⟨"AES", [1, 2], [3]⟩
    let data : Bytes :=
      [0, 85, 0, 0, 0, 3, 0, 0, 0, 3, 65, 69, 83, 0, 0, 0, 2, 1, 2, 0, 0, 0, 1, 3]
    let broken : Bytes := [0, 69, 0, 0, 0, 6]
    (decode data = .ok (plain key) ∧ WrappedKey.decode data = .ok none ∧
      decodeList data = .error (.malformed (.record .notKeyList))) ∧
    decode broken = .error (.malformed (.record .shortLength)) ∧
    decode [0, 76] = .error (.malformed (.record .unknownVariant)) := by
  intro key data broken
  obtain ⟨canonical, -, -, foreign, -, unrescued, noList, noKey⟩ := decode_canonical
  have written : key.encode = .ok data := by decide +kernel
  refine ⟨⟨?_, ?_, ?_⟩, ?_, ?_⟩
  · exact (canonical data (plain key)).mpr written
  · exact foreign data key written
  · exact noList data (plain key) written
  · exact unrescued broken _ (.inr (by decide +kernel))
  · exact noKey _ [] (by decide +kernel)

end KeyEnvelope.StoredKey
