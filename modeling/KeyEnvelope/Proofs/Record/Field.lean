import KeyEnvelope.Record.Field

/-!
# Honest fields

A field is honest if it keeps what it declares and reads what it writes, and it spares
another one if reading it changes nothing of what the other writes.  A place for byte
strings or texts that holds what is put into it makes an honest field
(`Field.of_honest`), and any place for them makes one that at least takes back as many
bytes as it writes (`Field.Elementary.takesBack`).
-/

namespace KeyEnvelope

variable {δ : Type}

/-- A field that writes as many bytes as it declares and takes them back, whatever it makes
of them. -/
structure Field.TakesBack (field : Field δ) : Prop where
  length_write : ∀ record, (field.write record).length = field.encodedLength record
  read_write : ∀ record other rest, ∃ record',
    field.read record (field.write other ++ rest) (field.write other).length =
      .ok (record', (field.write other).length)

/-- A field that keeps to what it declares, and reads what it writes. -/
structure Field.Honest (field : Field δ) : Prop where
  /-- It writes as many bytes as it declares. -/
  length_write : ∀ record, (field.write record).length = field.encodedLength record
  /-- It takes the bytes that it is given, and they are what it writes then. -/
  of_read_ok : ∀ {record record' input length taken}, length ≤ input.length →
    field.read record input length = .ok (record', taken) →
      taken = length ∧ field.write record' = input.take length
  /-- It refuses nothing without blaming the data. -/
  of_read_error : ∀ {record input length failure}, length ≤ input.length →
    field.read record input length = .error failure → ∃ cause, failure = .malformed (.record cause)
  /-- It reads what it has written of any record. -/
  read_write : ∀ record other rest, ∃ record' taken,
    field.read record (field.write other ++ rest) (field.write other).length = .ok (record', taken)

theorem Field.Honest.takesBack {field : Field δ} (honest : field.Honest) : field.TakesBack where
  length_write := honest.length_write
  read_write := by
    intro record other rest
    have enough : (field.write other).length ≤ (field.write other ++ rest).length := by
      rw [List.length_append]
      exact Nat.le_add_right ..
    obtain ⟨record', taken, read⟩ := honest.read_write record other rest
    obtain ⟨rfl, -⟩ := honest.of_read_ok enough read
    exact ⟨record', read⟩

/-- A field that takes what it is given, or blames the data. -/
structure Field.Obeys (field : Field δ) : Prop where
  of_read_ok : ∀ {record record' input length taken}, length ≤ input.length →
    field.read record input length = .ok (record', taken) → taken = length
  of_read_error : ∀ {record input length failure}, length ≤ input.length →
    field.read record input length = .error failure → ∃ cause, failure = .malformed (.record cause)

/-- A field spares another one if reading it changes nothing of what the other writes. -/
def Field.Spares (field other : Field δ) : Prop :=
  ∀ {record input length record' taken},
    field.read record input length = .ok (record', taken) → other.write record' = other.write record

/-- A type of values whose written form is read back and has the declared length. -/
class LawfulFieldType (α : Type) [FieldType α] : Prop where
  length_write : ∀ value : α, (FieldType.write value).length = FieldType.encodedLength value
  read_eq_ok : ∀ {input length taken} {value : α}, length ≤ input.length →
    (FieldType.read input length = .ok (value, taken) ↔
      taken = length ∧ FieldType.write value = input.take length)
  of_read_error : ∀ {input length failure}, length ≤ input.length →
    FieldType.read (α := α) input length = .error failure →
      ∃ cause, failure = .malformed (.record cause)

instance : LawfulFieldType Bytes where
  length_write _ := rfl
  read_eq_ok := by
    intro input length taken value enough
    change FieldType.readBytes input length = _ ↔ _
    rw [FieldType.readBytes, if_pos enough]
    refine ⟨fun same => (by cases same; exact ⟨rfl, rfl⟩), fun both => ?_⟩
    obtain ⟨rfl, rfl⟩ := both
    rfl
  of_read_error := by
    intro input length failure enough failed
    change FieldType.readBytes input length = _ at failed
    rw [FieldType.readBytes, if_pos enough] at failed
    cases failed

theorem FieldType.readText_of_le {input : Bytes} {length : Nat} (enough : length ≤ input.length) :
    readText input length = match Utf8.decode (input.take length) with
      | .ok text => .ok (text, length)
      | .error cause => .error (.malformed (.record (.fieldNotText cause))) := by
  unfold readText readBytes
  rw [if_pos enough]
  rfl

instance : LawfulFieldType String where
  length_write _ := rfl
  read_eq_ok := by
    intro input length taken value enough
    change FieldType.readText input length = _ ↔ taken = length ∧ Utf8.encode value = _
    rw [FieldType.readText_of_le enough, eq_comm (a := Utf8.encode value),
      ← Utf8.decode_eq_ok_iff]
    cases Utf8.decode (input.take length) with
    | ok text =>
      refine ⟨fun same => (by cases same; exact ⟨rfl, rfl⟩), fun both => ?_⟩
      obtain ⟨rfl, same⟩ := both
      cases same
      rfl
    | error cause => exact ⟨fun failed => (by cases failed), fun both => (by cases both.2)⟩
  of_read_error := by
    intro input length failure enough failed
    change FieldType.readText input length = _ at failed
    rw [FieldType.readText_of_le enough] at failed
    cases decoded : Utf8.decode (input.take length) with
    | ok text =>
      rw [decoded] at failed
      cases failed
    | error cause =>
      rw [decoded] at failed
      cases failed
      exact ⟨_, rfl⟩

/-- Values with one written form are the same. -/
theorem FieldType.eq_of_write_eq {α : Type} [FieldType α] [LawfulFieldType α] {a b : α}
    (same : write a = write b) : a = b := by
  have enough : (write a).length ≤ (write a).length := Nat.le_refl _
  have first : read (write a) (write a).length = .ok (a, (write a).length) :=
    (LawfulFieldType.read_eq_ok enough).mpr ⟨rfl, (List.take_length).symm⟩
  have second : read (write a) (write a).length = .ok (b, (write a).length) :=
    (LawfulFieldType.read_eq_ok enough).mpr ⟨rfl, same ▸ (List.take_length).symm⟩
  rw [first] at second
  cases second
  rfl

section Place

variable {α β : Type} [FieldType α] [FieldType β] {name name' : String}
  {get : δ → α} {set : δ → α → δ} {get' : δ → β} {set' : δ → β → δ}

theorem Field.read_of_eq_ok {record record' : δ} {input : Bytes} {length taken : Nat} :
    (Field.of name get set).read record input length = .ok (record', taken) ↔
      ∃ value, FieldType.read input length = .ok (value, taken) ∧ set record value = record' := by
  change (FieldType.read input length).map _ = _ ↔ _
  cases FieldType.read (α := α) input length with
  | ok both =>
    obtain ⟨value, taken'⟩ := both
    refine ⟨fun same => (by cases same; exact ⟨value, rfl, rfl⟩), fun found => ?_⟩
    obtain ⟨value', same, rfl⟩ := found
    cases same
    rfl
  | error failure =>
    refine ⟨fun failed => (by cases failed), fun found => ?_⟩
    obtain ⟨value, same, -⟩ := found
    cases same

/-- Any place makes a field that takes back what it writes. -/
theorem Field.of_takesBack [LawfulFieldType α] : (Field.of name get set).TakesBack where
  length_write record := LawfulFieldType.length_write (get record)
  read_write := by
    intro record other rest
    have enough : (FieldType.write (get other)).length ≤
        (FieldType.write (get other) ++ rest).length := by
      rw [List.length_append]
      exact Nat.le_add_right ..
    have read := (LawfulFieldType.read_eq_ok enough).mpr ⟨rfl, (List.take_left).symm⟩
    exact ⟨_, read_of_eq_ok.mpr ⟨_, read, rfl⟩⟩

/-- Any place makes a field that takes what it is given or blames the data. -/
theorem Field.of_obeys [LawfulFieldType α] : (Field.of name get set).Obeys where
  of_read_ok := by
    intro record record' input length taken enough read
    obtain ⟨value, found, -⟩ := read_of_eq_ok.mp read
    exact ((LawfulFieldType.read_eq_ok enough).mp found).1
  of_read_error := by
    intro record input length failure enough failed
    change (FieldType.read input length).map _ = _ at failed
    cases read : FieldType.read (α := α) input length with
    | ok both =>
      rw [read] at failed
      cases failed
    | error failure' =>
      rw [read] at failed
      cases failed
      exact LawfulFieldType.of_read_error enough read

/-- A place that holds what is put into it makes an honest field. -/
theorem Field.of_honest [LawfulFieldType α]
    (holds : ∀ record value, get (set record value) = value) :
    (Field.of name get set).Honest where
  length_write record := LawfulFieldType.length_write (get record)
  of_read_ok := by
    intro record record' input length taken enough read
    obtain ⟨value, found, rfl⟩ := read_of_eq_ok.mp read
    obtain ⟨all, written⟩ := (LawfulFieldType.read_eq_ok enough).mp found
    refine ⟨all, ?_⟩
    change FieldType.write (get (set record value)) = _
    rw [holds, written]
  of_read_error := of_obeys.of_read_error
  read_write := by
    intro record other rest
    have back : (Field.of name get set).TakesBack := of_takesBack
    obtain ⟨record', read⟩ := back.read_write record other rest
    exact ⟨record', _, read⟩

/-- A place spares another one if putting something into it leaves the other as it is. -/
theorem Field.of_spares (keeps : ∀ record value, get' (set record value) = get' record) :
    (Field.of name get set).Spares (Field.of name' get' set') := by
  intro record input length record' taken read
  obtain ⟨value, -, rfl⟩ := read_of_eq_ok.mp read
  exact congrArg FieldType.write (keeps record value)

end Place

/-- A field of texts or of byte strings, however they are found in a record and put into it. -/
inductive Field.Elementary : Field δ → Prop
  | text (name : String) (get : δ → String) (set : δ → String → δ) :
    Elementary (Field.of name get set)
  | bytes (name : String) (get : δ → Bytes) (set : δ → Bytes → δ) :
    Elementary (Field.of name get set)

theorem Field.Elementary.takesBack {field : Field δ} (elementary : field.Elementary) :
    field.TakesBack := by
  cases elementary with
  | text name get set => exact of_takesBack
  | bytes name get set => exact of_takesBack

end KeyEnvelope
