import KeyEnvelope.Proofs.Record.Faithful
import KeyEnvelope.Proofs.Record.Schema

/-!
# The grammar of records

The data that the codec of a schema reads is a grammar: the marker, the number of fields, and
for each field a length and that many bytes that spell a value of its kind
(`RecordCodec.Describes`).  The codec accepts exactly that (`RecordCodec.decode_accepts`), also
where several fields are bound to one place and only the last of them is seen.
-/

namespace KeyEnvelope

namespace RecordCodec

variable {δ : Type} {places : Places δ} {binding : Binding places} {schema : List (Binding places)}
  {marker : Marker} {record record' : δ} {input rest data : Bytes}

/-! ## Fields -/

/-- A field is read from its length and the bytes of a value, and the value is put in its
place. -/
theorem decodeField_binding_eq_ok :
    decodeField binding.field record input = .ok (record', rest) ↔
      ∃ value, (binding.kind.spell value).length < UInt32.size / 2 ∧
        input = Bytes.ofNatBE 4 (binding.kind.spell value).length ++
          binding.kind.spell value ++ rest ∧
        record' = places.set binding.place record value := by
  rw [decodeField_eq_ok]
  refine ⟨fun parts => ?_, fun parts => ?_⟩
  · obtain ⟨length, body, found, enough, read, rfl⟩ := parts
    obtain ⟨value, -, spelled, rfl⟩ := (binding.read_field_eq_ok enough).mp read
    obtain ⟨lead, lengthed, rfl⟩ := decodeLength_eq_ok.mp found
    obtain ⟨fits, rfl⟩ := encodeLength_eq_ok.mp lengthed
    have taken : (binding.kind.spell value).length = length := by
      rw [spelled, List.length_take_of_le enough]
    refine ⟨value, taken.symm ▸ fits, ?_, rfl⟩
    rw [taken, spelled, List.append_assoc, List.take_append_drop]
  · obtain ⟨value, fits, rfl, rfl⟩ := parts
    have found : decodeLength (Bytes.ofNatBE 4 (binding.kind.spell value).length ++
        binding.kind.spell value ++ rest) =
          .ok ((binding.kind.spell value).length, binding.kind.spell value ++ rest) :=
      decodeLength_eq_ok.mpr ⟨_, encodeLength_eq_ok.mpr ⟨fits, rfl⟩, List.append_assoc ..⟩
    have enough :
        (binding.kind.spell value).length ≤ (binding.kind.spell value ++ rest).length := by
      rw [List.length_append]
      exact Nat.le_add_right ..
    refine ⟨_, _, found, enough, (binding.read_field_eq_ok enough).mpr ?_, (List.drop_left).symm⟩
    exact ⟨value, rfl, (List.take_left).symm, rfl⟩

/-- The bytes that spell values for the fields of a schema: each value with its length in
front, four bytes of a signed number. -/
inductive Spells : List (Binding places) → List places.Entry → Bytes → Prop
  | nil : Spells [] [] []
  | cons {binding : Binding places} {schema : List (Binding places)} {entries : List places.Entry}
      {rest : Bytes} (value : places.Value binding.place) :
      (binding.kind.spell value).length < UInt32.size / 2 → Spells schema entries rest →
      Spells (binding :: schema) (⟨binding.place, value⟩ :: entries)
        (Bytes.ofNatBE 4 (binding.kind.spell value).length ++ binding.kind.spell value ++ rest)

/-- The fields of a schema are read from the bytes that spell values for them, and the values
are put in their places one after the other. -/
theorem decodeFields_schema_eq_ok :
    decodeFields (schema.map Binding.field) record input = .ok (record', rest) ↔
      ∃ entries body, Spells schema entries body ∧ input = body ++ rest ∧
        record' = Places.put record entries := by
  induction schema generalizing record input with
  | nil =>
    refine ⟨fun decoded => ?_, fun parts => ?_⟩
    · cases decoded
      exact ⟨[], [], .nil, rfl, rfl⟩
    · obtain ⟨_, _, ⟨⟩, rfl, rfl⟩ := parts
      rfl
  | cons binding schema ih =>
    rw [List.map_cons, decodeFields_cons_eq_ok]
    refine ⟨fun steps => ?_, fun parts => ?_⟩
    · obtain ⟨middle, input', first, others⟩ := steps
      obtain ⟨value, fits, rfl, rfl⟩ := decodeField_binding_eq_ok.mp first
      obtain ⟨entries, body, spelled, rfl, rfl⟩ := ih.mp others
      exact ⟨_, _, .cons value fits spelled, (List.append_assoc ..).symm, rfl⟩
    · obtain ⟨_, _, spelled, rfl, rfl⟩ := parts
      cases spelled with
      | cons value fits spelled =>
        refine ⟨_, _, decodeField_binding_eq_ok.mpr ⟨value, fits, List.append_assoc .., rfl⟩, ?_⟩
        exact ih.mpr ⟨_, _, spelled, rfl, rfl⟩

/-! ## Records -/

variable [Inhabited δ]

/-- Data in the grammar of a schema, and the record that it describes: the marker, the number
of fields, the values of the fields and nothing behind them. -/
def Describes (marker : Marker) (schema : List (Binding places)) (data : Bytes) (record : δ) :
    Prop :=
  schema.length < UInt32.size / 2 ∧ ∃ entries body, Spells schema entries body ∧
    data = Bytes.ofNatBE 2 marker.char.toNat ++ Bytes.ofNatBE 4 schema.length ++ body ∧
    Places.Holds default entries record

theorem decode_ofSchema_eq_some :
    (ofSchema marker schema).decode data = .ok (some record) ↔
      Describes marker schema data record := by
  have count : (ofSchema marker schema).fields.length = schema.length := List.length_map _
  rw [decode_eq_some]
  refine ⟨fun parts => ?_, fun described => ?_⟩
  · obtain ⟨_, rfl, read⟩ := parts
    obtain ⟨lead, body, counted, rfl, decoded⟩ := decodeBody_eq_ok.mp read
    obtain ⟨few, rfl⟩ := encodeLength_eq_ok.mp (count ▸ counted)
    obtain ⟨entries, body, spelled, rfl, rfl⟩ := decodeFields_schema_eq_ok.mp decoded
    refine ⟨few, entries, body, spelled, ?_, Places.holds_iff.mpr rfl⟩
    rw [List.append_nil, List.append_assoc]
    rfl
  · obtain ⟨few, entries, body, spelled, rfl, holds⟩ := described
    have decoded := decodeFields_schema_eq_ok.mpr
      ⟨entries, body, spelled, (List.append_nil body).symm, Places.holds_iff.mp holds⟩
    refine ⟨Bytes.ofNatBE 4 schema.length ++ body, List.append_assoc .., ?_⟩
    refine decodeBody_eq_ok.mpr ⟨_, body, ?_, rfl, decoded⟩
    exact encodeLength_eq_ok.mpr ⟨count.symm ▸ few, by rw [count]⟩

/-- The codec of a schema reads exactly the data in its grammar, as the record that the data
describes.  Data whose first two bytes are not the marker is of another kind, and everything
else is malformed; whatever the data, no field breaks a promise or reads beyond the end. -/
theorem decode_accepts (marker : Marker) (schema : List (Binding places)) (data : Bytes) :
    ((ofSchema marker schema).decode data = .ok none ↔
      2 ≤ data.length ∧ data.take 2 ≠ Bytes.ofNatBE 2 marker.char.toNat) ∧
    (∀ record, (ofSchema marker schema).decode data = .ok (some record) ↔
      Describes marker schema data record) ∧
    (¬ (2 ≤ data.length ∧ data.take 2 ≠ Bytes.ofNatBE 2 marker.char.toNat) →
      (∀ record, ¬ Describes marker schema data record) →
      ∃ cause, (ofSchema marker schema).decode data = .error (.malformed (.record cause))) ∧
    ∀ defect, (ofSchema marker schema).decode data ≠ .error (.defect defect) := by
  have foreign : (ofSchema marker schema).decode data = .ok none ↔
      2 ≤ data.length ∧ data.take 2 ≠ Bytes.ofNatBE 2 marker.char.toNat :=
    decode_eq_none.trans Marker.read_eq_none
  have blames : ∀ {failure}, (ofSchema marker schema).decode data = .error failure →
      ∃ cause, failure = .malformed (.record cause) :=
    of_decode_error (honest_ofSchema marker schema)
  refine ⟨foreign, fun record => decode_ofSchema_eq_some, fun borne undescribed => ?_, ?_⟩
  · cases outcome : (ofSchema marker schema).decode data with
    | error failure =>
      obtain ⟨cause, rfl⟩ := blames outcome
      exact ⟨cause, rfl⟩
    | ok found =>
      cases found with
      | none => exact absurd (foreign.mp outcome) borne
      | some record => exact absurd (decode_ofSchema_eq_some.mp outcome) (undescribed record)
  · intro defect failed
    obtain ⟨cause, same⟩ := blames failed
    cases same

/-- The bytes of a key stated twice, of which the last count; the same data cut short. -/
theorem decode_accepts_twice :
    let schema : List (Binding PlainKey.places) :=
      [⟨"first", .keyData, .bytes⟩, ⟨"algorithm", .algorithm, .text⟩, ⟨"last", .keyData, .bytes⟩]
    let marker : Marker := ⟨'K', by decide⟩
    let data : Bytes :=
      [0, 75, 0, 0, 0, 3, 0, 0, 0, 1, 7, 0, 0, 0, 1, 65, 0, 0, 0, 2, 8, 9]
    Describes marker schema data ⟨"A", [8, 9], []⟩ ∧
      (ofSchema marker schema).decode [0, 76] = .ok none ∧
      ∃ cause, (ofSchema marker schema).decode (data.take 21) =
        .error (.malformed (.record cause)) := by
  intro schema marker data
  have read : (ofSchema marker schema).decode data = .ok (some ⟨"A", [8, 9], []⟩) := by
    decide +kernel
  obtain ⟨-, accepts, -, -⟩ := decode_accepts marker schema data
  obtain ⟨foreign, -, -, -⟩ := decode_accepts marker schema [0, 76]
  obtain ⟨-, accepts_short, refuses, -⟩ := decode_accepts marker schema (data.take 21)
  refine ⟨(accepts _).mp read, foreign.mpr (by decide), ?_⟩
  refine refuses (by decide) fun record described => ?_
  have broken : ((ofSchema marker schema).decode (data.take 21)).toOption = none := by
    decide +kernel
  rw [(accepts_short record).mpr described] at broken
  cases broken

end RecordCodec

end KeyEnvelope
