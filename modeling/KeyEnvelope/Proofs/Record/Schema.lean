import KeyEnvelope.Record.StoredKey
import KeyEnvelope.Proofs.Record.Field

/-!
# Schemas

A record is made up of places that hold their values independently of each other, and a
schema binds named fields of texts and byte strings to them.  Several fields may be bound
to one place, so values are put into a record one after the other (`Places.put`); what the
record holds then is known place by place (`Places.holds_iff`).
-/

namespace KeyEnvelope

variable {δ : Type}

/-! ## Kinds of values -/

/-- The types of values that the fields of a schema have. -/
inductive FieldKind : Type → Type
  | text : FieldKind String
  | bytes : FieldKind Bytes

namespace FieldKind

variable {α : Type}

/-- How values of a kind are written and read. -/
@[reducible]
def fieldType : FieldKind α → FieldType α
  | text => inferInstanceAs (FieldType String)
  | bytes => inferInstanceAs (FieldType Bytes)

/-- The bytes of a value: the UTF-8 form of a text, a byte string as it is. -/
def spell : FieldKind α → α → Bytes
  | text, value => Utf8.encode value
  | bytes, value => value

theorem lawful (kind : FieldKind α) : @LawfulFieldType α kind.fieldType := by
  cases kind with
  | text => exact inferInstanceAs (LawfulFieldType String)
  | bytes => exact inferInstanceAs (LawfulFieldType Bytes)

theorem write_eq_spell (kind : FieldKind α) (value : α) :
    kind.fieldType.write value = kind.spell value := by
  cases kind <;> rfl

end FieldKind

/-! ## Places -/

/-- How the records of a type are made up of places.  A place holds what is put into it and
is spared by what is put into the others, and a record is nothing but its places. -/
structure Places (δ : Type) where
  Place : Type
  Value : Place → Type
  get : (place : Place) → δ → Value place
  set : (place : Place) → δ → Value place → δ
  get_set (place : Place) (record : δ) (value : Value place) :
    get place (set place record value) = value
  get_set_of_ne {place other : Place} (differ : other ≠ place) (record : δ) (value : Value place) :
    get other (set place record value) = get other record
  ext {record record' : δ} : (∀ place, get place record = get place record') → record = record'

namespace Places

variable (places : Places δ)

/-- A value together with the place that it is put into. -/
abbrev Entry := (place : places.Place) × places.Value place

variable {places} {place : places.Place} {record record' : δ} {entries : List places.Entry}

/-- A record with values put into it one after the other. -/
def put (record : δ) (entries : List places.Entry) : δ :=
  entries.foldl (fun record entry => places.set entry.1 record entry.2) record

theorem get_put_of_notMem (other : ∀ entry ∈ entries, entry.1 ≠ place) (record : δ) :
    places.get place (put record entries) = places.get place record := by
  induction entries generalizing record with
  | nil => rfl
  | cons first entries ih =>
    have differ : place ≠ first.1 := (other first List.mem_cons_self).symm
    have spared := ih (fun entry member => other entry (List.mem_cons_of_mem _ member))
      (places.set first.1 record first.2)
    exact spared.trans (places.get_set_of_ne differ record first.2)

/-- A place holds the last value that was put into it. -/
theorem get_put_of_last (before : List places.Entry) (value : places.Value place)
    {after : List places.Entry} (last : ∀ entry ∈ after, entry.1 ≠ place) (record : δ) :
    places.get place (put record (before ++ ⟨place, value⟩ :: after)) = value := by
  have split : put record (before ++ ⟨place, value⟩ :: after) =
      put (places.set place (put record before) value) after := List.foldl_append ..
  rw [split, get_put_of_notMem last, places.get_set]

/-- A place either gets no value or a last one. -/
theorem notMem_or_exists_last (place : places.Place) (entries : List places.Entry) :
    (∀ entry ∈ entries, entry.1 ≠ place) ∨
      ∃ before value after, entries = before ++ ⟨place, value⟩ :: after ∧
        ∀ entry ∈ after, entry.1 ≠ place := by
  induction entries with
  | nil => exact .inl nofun
  | cons first entries ih =>
    rcases ih with none | ⟨before, value, after, rfl, last⟩
    · rcases Classical.em (first.1 = place) with rfl | differ
      · exact .inr ⟨[], first.2, entries, rfl, none⟩
      · exact .inl (List.forall_mem_cons.mpr ⟨differ, none⟩)
    · exact .inr ⟨first :: before, value, after, rfl, last⟩

/-- A record holds in each place the last of the values that were put there, and what another
record holds in the places that got none. -/
structure Holds (start : δ) (entries : List places.Entry) (record : δ) : Prop where
  last {before after : List places.Entry} {place : places.Place} {value : places.Value place} :
    entries = before ++ ⟨place, value⟩ :: after → (∀ entry ∈ after, entry.1 ≠ place) →
      places.get place record = value
  untouched {place : places.Place} : (∀ entry ∈ entries, entry.1 ≠ place) →
    places.get place record = places.get place start

/-- What values put into a record make of it is known place by place. -/
theorem holds_iff {start : δ} : Holds start entries record ↔ record = put start entries := by
  refine ⟨fun holds => places.ext fun place => ?_, fun same => ?_⟩
  · rcases notMem_or_exists_last place entries with none | ⟨before, value, after, split, last⟩
    · rw [holds.untouched none, get_put_of_notMem none]
    · rw [holds.last split last, split, get_put_of_last before value last]
  · subst same
    constructor
    case last =>
      intro before after place value split last
      rw [split, get_put_of_last before value last]
    case untouched =>
      intro place none
      exact get_put_of_notMem none start

end Places

/-! ## Schemas -/

/-- A named field of a schema, bound to a place. -/
structure Binding (places : Places δ) where
  name : String
  place : places.Place
  kind : FieldKind (places.Value place)

section Fields

variable {places : Places δ}

/-- The field of records that a binding stands for. -/
def Binding.field (binding : Binding places) : Field δ :=
  @Field.of δ (places.Value binding.place) binding.kind.fieldType binding.name
    (places.get binding.place) (places.set binding.place)

theorem Binding.honest (binding : Binding places) : binding.field.Honest :=
  @Field.of_honest δ (places.Value binding.place) binding.kind.fieldType binding.name
    (places.get binding.place) (places.set binding.place) binding.kind.lawful
    (places.get_set binding.place)

/-- A field of a schema is read from the bytes of a value, which is put in its place. -/
theorem Binding.read_field_eq_ok (binding : Binding places) {record record' : δ} {input : Bytes}
    {length taken : Nat} (enough : length ≤ input.length) :
    binding.field.read record input length = .ok (record', taken) ↔
      ∃ value, taken = length ∧ binding.kind.spell value = input.take length ∧
        record' = places.set binding.place record value := by
  let := binding.kind.fieldType
  have lawful : LawfulFieldType (places.Value binding.place) := binding.kind.lawful
  have place : binding.field = .of binding.name (places.get binding.place)
    (places.set binding.place) := rfl
  rw [place, Field.read_of_eq_ok]
  refine exists_congr fun value => ?_
  rw [lawful.read_eq_ok enough, binding.kind.write_eq_spell, and_assoc,
    eq_comm (a := places.set binding.place record value)]

/-- The codec of the records that a schema describes. -/
def RecordCodec.ofSchema (marker : Marker) (schema : List (Binding places)) : RecordCodec δ where
  marker := marker
  fields := schema.map Binding.field

theorem RecordCodec.honest_ofSchema (marker : Marker) (schema : List (Binding places)) :
    ∀ field ∈ (ofSchema marker schema).fields, field.Honest :=
  List.forall_mem_map.mpr fun binding _ => binding.honest

end Fields

/-! ## Keys in the clear -/

namespace PlainKey

/-- The names of the places of a key in the clear. -/
inductive Place
  | algorithm
  | keyData
  | iv

/-- The places of a key in the clear. -/
def places : Places PlainKey where
  Place := Place
  Value
    | .algorithm => String
    | .keyData => Bytes
    | .iv => Bytes
  get
    | .algorithm, key => key.algorithm
    | .keyData, key => key.keyData
    | .iv, key => key.iv
  set
    | .algorithm, key, value => { key with algorithm := value }
    | .keyData, key, value => { key with keyData := value }
    | .iv, key, value => { key with iv := value }
  get_set := by
    rintro ⟨⟩ key value <;> rfl
  get_set_of_ne := by
    rintro ⟨⟩ ⟨⟩ differ key value <;> trivial
  ext := by
    intro key key' same
    cases key
    cases key'
    rw [mk.injEq]
    exact ⟨same .algorithm, same .keyData, same .iv⟩

end PlainKey

/-- The record of a key in the clear is that of a schema. -/
example :
    let schema : List (Binding PlainKey.places) :=
      [⟨"algorithm", .algorithm, .text⟩, ⟨"key_data", .keyData, .bytes⟩, ⟨"iv", .iv, .bytes⟩]
    PlainKey.codec = RecordCodec.ofSchema ⟨'U', by decide⟩ schema := rfl

end KeyEnvelope
