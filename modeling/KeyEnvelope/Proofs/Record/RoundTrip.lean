import KeyEnvelope.Proofs.Record.Grammar

/-!
# Records of a schema written and read back

A schema writes the marker, the number of fields and the value of each field with its length in
front (`RecordCodec.encode_ofSchema_eq_ok`), so what it writes depends on nothing but the places
that it binds.  Reading that back gives the record with everything else replaced by the default
(`RecordCodec.decode_encode_ofSchema`), however often a place is bound.
-/

namespace KeyEnvelope

variable {δ : Type} {places : Places δ} {schema : List (Binding places)} {marker : Marker}
  {record kept : δ} {data : Bytes}

/-! ## What a schema writes -/

/-- The bytes of the value that a record holds in the place of a binding. -/
def Binding.spell (binding : Binding places) (record : δ) : Bytes :=
  binding.kind.spell (places.get binding.place record)

/-- That value with its length in front, four bytes of a signed number. -/
def Binding.frame (binding : Binding places) (record : δ) : Bytes :=
  Bytes.ofNatBE 4 (binding.spell record).length ++ binding.spell record

theorem Binding.encodeField_eq_ok {binding : Binding places} {framed : Bytes} :
    RecordCodec.encodeField record binding.field = .ok framed ↔
      (binding.spell record).length < UInt32.size / 2 ∧ framed = binding.frame record := by
  have written : binding.field.write record = binding.spell record :=
    binding.kind.write_eq_spell (places.get binding.place record)
  rw [RecordCodec.encodeField_of_honest binding.honest, written, ListCodec.encodeElement_eq_ok]
  simp only [encodeLength_eq_ok, and_assoc, exists_and_left, exists_eq_left]
  rfl

namespace RecordCodec

theorem encodeFields_schema_eq_ok {framed : List Bytes} :
    (schema.map Binding.field).mapM (encodeField record) = .ok framed ↔
      (∀ binding ∈ schema, (binding.spell record).length < UInt32.size / 2) ∧
        framed = schema.map fun binding => binding.frame record := by
  rw [Outcome.mapM_eq_ok]
  induction schema generalizing framed with
  | nil =>
    rw [List.map_nil, List.forall₂_nil_left_iff]
    exact ⟨fun empty => ⟨nofun, empty⟩, fun both => both.2⟩
  | cons binding schema ih =>
    rw [List.map_cons, List.forall₂_cons_left_iff]
    simp only [Binding.encodeField_eq_ok, ih, List.forall_mem_cons, List.map_cons]
    refine ⟨fun parts => ?_, fun both => ?_⟩
    · obtain ⟨_, _, ⟨short, rfl⟩, ⟨others, rfl⟩, rfl⟩ := parts
      exact ⟨⟨short, others⟩, rfl⟩
    · obtain ⟨⟨short, others⟩, rfl⟩ := both
      exact ⟨_, _, ⟨short, rfl⟩, ⟨others, rfl⟩, rfl⟩

/-- A record that the fields of a schema can write: neither their number nor one of the values
is too large for its length. -/
structure Fits (schema : List (Binding places)) (record : δ) : Prop where
  few : schema.length < UInt32.size / 2
  short : ∀ binding ∈ schema, (binding.spell record).length < UInt32.size / 2

/-- The written form of a record of a schema. -/
def written (marker : Marker) (schema : List (Binding places)) (record : δ) : Bytes :=
  Bytes.ofNatBE 2 marker.char.toNat ++ Bytes.ofNatBE 4 schema.length ++
    schema.flatMap fun binding => binding.frame record

/-- A schema writes the records that fit, each in one form. -/
theorem encode_ofSchema_eq_ok :
    (ofSchema marker schema).encode record = .ok data ↔
      Fits schema record ∧ data = written marker schema record := by
  have count : (ofSchema marker schema).fields.length = schema.length := List.length_map _
  have fields : (ofSchema marker schema).fields = schema.map Binding.field := rfl
  rw [encode_eq_ok, count, fields]
  simp only [encodeLength_eq_ok, encodeFields_schema_eq_ok]
  refine ⟨fun parts => ?_, fun both => ?_⟩
  · obtain ⟨_, _, ⟨few, rfl⟩, ⟨short, rfl⟩, rfl⟩ := parts
    exact ⟨⟨few, short⟩, rfl⟩
  · obtain ⟨⟨few, short⟩, rfl⟩ := both
    exact ⟨_, _, ⟨few, rfl⟩, ⟨short, rfl⟩, rfl⟩

/-! ## What is kept of a record -/

/-- What is written shows nothing of the places that a schema does not bind. -/
theorem encode_ofSchema_of_bound
    (bound : ∀ binding ∈ schema, places.get binding.place kept = places.get binding.place record)
    (encoded : (ofSchema marker schema).encode record = .ok data) :
    (ofSchema marker schema).encode kept = .ok data := by
  obtain ⟨fits, rfl⟩ := encode_ofSchema_eq_ok.mp encoded
  have spelled : ∀ binding ∈ schema, binding.spell kept = binding.spell record :=
    fun binding member => congrArg binding.kind.spell (bound binding member)
  have framed : ∀ binding ∈ schema, binding.frame record = binding.frame kept := by
    intro binding member
    unfold Binding.frame
    rw [spelled binding member]
  refine encode_ofSchema_eq_ok.mpr ⟨⟨fits.few, fun binding member => ?_⟩, ?_⟩
  · rw [spelled binding member]
    exact fits.short binding member
  · unfold written
    rw [List.flatMap_congr framed]

/-- The values that a record holds in the places of a schema. -/
def entriesOf (schema : List (Binding places)) (record : δ) : List places.Entry :=
  schema.map fun binding => ⟨binding.place, places.get binding.place record⟩

theorem value_of_mem_entriesOf {entry : places.Entry} (entered : entry ∈ entriesOf schema record) :
    entry.2 = places.get entry.1 record := by
  obtain ⟨binding, -, rfl⟩ := List.mem_map.mp entered
  rfl

theorem spells_entriesOf
    (short : ∀ binding ∈ schema, (binding.spell record).length < UInt32.size / 2) :
    Spells schema (entriesOf schema record)
      (schema.flatMap fun binding => binding.frame record) := by
  induction schema with
  | nil => exact .nil
  | cons binding schema ih =>
    obtain ⟨first, others⟩ := List.forall_mem_cons.mp short
    exact .cons (places.get binding.place record) first (ih others)

variable [Inhabited δ]

/-- A record that holds what another one does in the places that a schema binds, and what the
default does in the others. -/
structure Keeps (schema : List (Binding places)) (record kept : δ) : Prop where
  bound : ∀ binding ∈ schema, places.get binding.place kept = places.get binding.place record
  unbound : ∀ place, (∀ binding ∈ schema, binding.place ≠ place) →
    places.get place kept = places.get place default

/-- A place that is bound several times gets the same value each time. -/
theorem keeps_of_holds (holds : Places.Holds default (entriesOf schema record) kept) :
    Keeps schema record kept := by
  constructor
  case bound =>
    intro binding member
    have entered : ⟨binding.place, places.get binding.place record⟩ ∈ entriesOf schema record :=
      List.mem_map_of_mem member
    rcases Places.notMem_or_exists_last binding.place (entriesOf schema record) with
      none | ⟨before, value, after, split, last⟩
    · exact absurd rfl (none _ entered)
    · have among : ⟨binding.place, value⟩ ∈ entriesOf schema record := by
        rw [split]
        exact List.mem_append_right _ List.mem_cons_self
      rw [holds.last split last]
      exact value_of_mem_entriesOf among
  case unbound =>
    intro place free
    refine holds.untouched fun entry entered => ?_
    obtain ⟨binding, member, rfl⟩ := List.mem_map.mp entered
    exact free binding member

/-- A record is kept as it is if it holds the default wherever the schema binds nothing. -/
theorem Keeps.eq_iff (keeps : Keeps schema record kept) :
    kept = record ↔ ∀ place, (∀ binding ∈ schema, binding.place ≠ place) →
      places.get place record = places.get place default := by
  refine ⟨fun same => same ▸ keeps.unbound, fun free => places.ext fun place => ?_⟩
  rcases Classical.em (∃ binding ∈ schema, binding.place = place) with
    ⟨binding, member, rfl⟩ | unbound
  · exact keeps.bound binding member
  · have none : ∀ binding ∈ schema, binding.place ≠ place :=
      fun binding member same => unbound ⟨binding, member, same⟩
    rw [keeps.unbound place none, free place none]

theorem exists_decode_written (marker : Marker) (fits : Fits schema record) :
    ∃ kept, (ofSchema marker schema).decode (written marker schema record) = .ok (some kept) ∧
      Keeps schema record kept := by
  have holds := Places.holds_iff.mpr (rfl : Places.put default (entriesOf schema record) = _)
  refine ⟨_, decode_ofSchema_eq_some.mpr ?_, keeps_of_holds holds⟩
  exact ⟨fits.few, entriesOf schema record, _, spells_entriesOf fits.short, rfl, holds⟩

/-- A schema writes the records that fit: the marker, the number of fields and each value with
its length in front.  Read back, they hold what they held in the places that the schema binds,
and the default elsewhere, so the same record comes back exactly if it held the default there;
what comes back is written in the same form. -/
theorem decode_encode_ofSchema (marker : Marker) (schema : List (Binding places)) (record : δ) :
    (∀ data, (ofSchema marker schema).encode record = .ok data ↔
      Fits schema record ∧ data = written marker schema record) ∧
    (Fits schema record → ∃ kept,
      (ofSchema marker schema).decode (written marker schema record) = .ok (some kept) ∧
      Keeps schema record kept ∧
      (kept = record ↔ ∀ place, (∀ binding ∈ schema, binding.place ≠ place) →
        places.get place record = places.get place default) ∧
      (ofSchema marker schema).encode kept = .ok (written marker schema record)) := by
  refine ⟨fun data => encode_ofSchema_eq_ok, fun fits => ?_⟩
  obtain ⟨kept, decoded, keeps⟩ := exists_decode_written marker fits
  have encoded : (ofSchema marker schema).encode record = .ok (written marker schema record) :=
    encode_ofSchema_eq_ok.mpr ⟨fits, rfl⟩
  exact ⟨kept, decoded, keeps, keeps.eq_iff, encode_ofSchema_of_bound keeps.bound encoded⟩

/-- A key in the clear whose bytes are bound twice and whose counter block is not bound: the bytes
are written twice, and the counter block is lost. -/
theorem decode_encode_ofSchema_twice :
    let schema : List (Binding PlainKey.places) :=
      [⟨"first", .keyData, .bytes⟩, ⟨"algorithm", .algorithm, .text⟩, ⟨"last", .keyData, .bytes⟩]
    let marker : Marker := ⟨'K', by decide⟩
    let record : PlainKey := ⟨"é", [7], [1]⟩
    let data : Bytes :=
      [0, 75, 0, 0, 0, 3, 0, 0, 0, 1, 7, 0, 0, 0, 2, 195, 169, 0, 0, 0, 1, 7]
    (ofSchema marker schema).encode record = .ok data ∧
      ∃ kept, (ofSchema marker schema).decode data = .ok (some kept) ∧ kept.algorithm = "é" ∧
        kept.keyData = [7] ∧ kept.iv = [] ∧ kept ≠ record := by
  intro schema marker record data
  obtain ⟨writes, reads⟩ := decode_encode_ofSchema marker schema record
  have form : data = written marker schema record := by decide +kernel
  have fits : Fits schema record := ⟨by decide, by decide +kernel⟩
  have free : ∀ binding ∈ schema, binding.place ≠ .iv := by
    simp only [schema, List.forall_mem_cons]
    exact ⟨nofun, nofun, nofun, nofun⟩
  obtain ⟨kept, decoded, keeps, same, -⟩ := reads fits
  refine ⟨(writes data).mpr ⟨fits, form⟩, kept, form ▸ decoded, ?_, ?_, ?_, ?_⟩
  · exact keeps.bound ⟨"algorithm", .algorithm, .text⟩ (by simp [schema])
  · exact keeps.bound ⟨"first", .keyData, .bytes⟩ (by simp [schema])
  · exact keeps.unbound .iv free
  · intro unchanged
    cases same.mp unchanged .iv free

end RecordCodec

end KeyEnvelope
