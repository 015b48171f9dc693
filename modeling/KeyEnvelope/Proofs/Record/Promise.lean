import KeyEnvelope.Proofs.Record.Truncation

/-!
# Fields that break their word

A field declares how much it writes and is told how much to read, and a codec checks both.
The first field that writes another number of bytes ends the writing, and nothing else does
(`RecordCodec.encode_eq_error_iff`).  The first field that takes another number of bytes
ends the reading, if the data is well formed up to it (`RecordCodec.Misreads`): what is
malformed before it is reported as such, and what comes after it is never looked at
(`RecordCodec.decode_eq_defect_iff`).  A field may refuse its bytes with a cause of its own,
which reading hands on as it is (`RecordCodec.Refuses.decode`).
-/

namespace KeyEnvelope.RecordCodec

variable {δ : Type} {field : Field δ} {fields : List (Field δ)} {codec : RecordCodec δ}
  {record record' : δ} {input rest body data : Bytes} {length : Nat} {failure : DecodeFailure}
  {defect : Defect}

/-! ## Writing -/

/-- Data allots to a field so many of the bytes behind the four that state their number. -/
structure Allots (input : Bytes) (length : Nat) (body : Bytes) : Prop where
  lead : input = Bytes.ofNatBE 4 length ++ body
  fits : length < UInt32.size / 2
  enough : length ≤ body.length

theorem Allots.decodeLength (allots : Allots input length body) :
    decodeLength input = .ok (length, body) :=
  decodeLength_eq_ok.mpr ⟨_, encodeLength_eq_ok.mpr ⟨allots.fits, rfl⟩, allots.lead⟩

theorem allots_of_decodeLength (found : decodeLength input = .ok (length, body))
    (enough : length ≤ body.length) : Allots input length body := by
  obtain ⟨lead, lengthed, same⟩ := decodeLength_eq_ok.mp found
  obtain ⟨fits, rfl⟩ := encodeLength_eq_ok.mp lengthed
  exact ⟨same, fits, enough⟩

theorem decodeField_of_allots (allots : Allots input length body) (field : Field δ) (record : δ) :
    decodeField field record input = field.read record body length >>= fun read =>
      if read.2 = length then .ok (read.1, body.drop read.2)
      else .error (.defect (.fieldRead field.name read.2 length)) := by
  unfold decodeField
  rw [allots.decodeLength]
  exact if_neg (Nat.not_lt.mpr allots.enough)

/-- Nothing is read from data that allots nothing. -/
theorem decodeField_of_not_allots (none : ∀ length body, ¬ Allots input length body)
    (field : Field δ) (record : δ) :
    ∃ cause, decodeField field record input = .error (.malformed (.record cause)) := by
  unfold decodeField
  cases found : decodeLength input with
  | error cause => exact ⟨cause, rfl⟩
  | ok both =>
    obtain ⟨length, body⟩ := both
    have short : body.length < length := Nat.lt_of_not_le fun enough =>
      none length body (allots_of_decodeLength found enough)
    exact ⟨_, if_pos short⟩

theorem decodeField_eq_ok_iff_allots :
    decodeField field record input = .ok (record', rest) ↔ ∃ length body,
      Allots input length body ∧ field.read record body length = .ok (record', length) ∧
        rest = body.drop length := by
  rw [decodeField_eq_ok]
  refine exists_congr fun length => exists_congr fun body => ?_
  refine ⟨fun parts => ?_, fun parts => ?_⟩
  · obtain ⟨found, enough, read⟩ := parts
    exact ⟨allots_of_decodeLength found enough, read⟩
  · obtain ⟨allots, read⟩ := parts
    exact ⟨allots.decodeLength, allots.enough, read⟩

/-! ## Reading one field after the other -/

/-- Each field takes what the data allots to it and leaves the rest to the next one. -/
inductive Takes : List (Field δ) → δ → Bytes → δ → Bytes → Prop
  | nil {record : δ} {rest : Bytes} : Takes [] record rest record rest
  | cons {field : Field δ} {fields : List (Field δ)} {record middle record' : δ}
      {input body rest : Bytes} {length : Nat} (allots : Allots input length body)
      (read : field.read record body length = .ok (middle, length))
      (others : Takes fields middle (body.drop length) record' rest) :
      Takes (field :: fields) record input record' rest

theorem decodeFields_eq_ok_iff_takes :
    decodeFields fields record input = .ok (record', rest) ↔
      Takes fields record input record' rest := by
  induction fields generalizing record input with
  | nil =>
    refine ⟨fun decoded => ?_, fun takes => ?_⟩
    · cases decoded
      exact .nil
    · cases takes
      rfl
  | cons field fields ih =>
    rw [decodeFields_cons_eq_ok]
    refine ⟨fun steps => ?_, fun takes => ?_⟩
    · obtain ⟨middle, input', first, others⟩ := steps
      obtain ⟨length, body, allots, read, rfl⟩ := decodeField_eq_ok_iff_allots.mp first
      exact .cons allots read (ih.mp others)
    · cases takes with
      | cons allots read others =>
        exact ⟨_, _, decodeField_eq_ok_iff_allots.mpr ⟨_, _, allots, read, rfl⟩, ih.mpr others⟩

/-- Reading fields fails as the first field does that fails behind the ones before it. -/
theorem decodeFields_eq_error_iff :
    decodeFields fields record input = .error failure ↔ ∃ before field after middle rest,
      fields = before ++ field :: after ∧ Takes before record input middle rest ∧
        decodeField field middle rest = .error failure := by
  induction fields generalizing record input with
  | nil =>
    refine ⟨fun failed => (by cases failed), fun parts => ?_⟩
    obtain ⟨before, field, after, _, _, split, -⟩ := parts
    cases (List.append_eq_nil_iff.mp split.symm).2
  | cons first fields ih =>
    rw [decodeFields, Outcome.bind_eq_error]
    refine ⟨fun either => ?_, fun parts => ?_⟩
    · obtain failed | ⟨⟨middle, input'⟩, read, later⟩ := either
      · exact ⟨[], first, fields, record, input, rfl, .nil, failed⟩
      · obtain ⟨before, field, after, middle, rest, rfl, takes, failed⟩ := ih.mp later
        obtain ⟨length, body, allots, taken, rfl⟩ := decodeField_eq_ok_iff_allots.mp read
        exact ⟨first :: before, field, after, middle, rest, rfl, .cons allots taken takes, failed⟩
    · obtain ⟨before, field, after, middle, rest, split, takes, failed⟩ := parts
      cases takes with
      | nil =>
        cases split
        exact .inl failed
      | cons allots read others =>
        cases split
        refine .inr ⟨_, decodeField_eq_ok_iff_allots.mpr ⟨_, _, allots, read, rfl⟩, ?_⟩
        exact ih.mpr ⟨_, field, after, middle, rest, rfl, others, failed⟩

/-! ## Reading a record -/

/-- Data bears the marker and the number of fields of a codec. -/
def Bears (codec : RecordCodec δ) (data input : Bytes) : Prop :=
  codec.fields.length < UInt32.size / 2 ∧
    data = codec.marker.bytes ++ Bytes.ofNatBE 4 codec.fields.length ++ input

variable [Inhabited δ]

/-- Data is well formed up to a field, which is given the rest of it. -/
def Reaches (codec : RecordCodec δ) (data : Bytes) (field : Field δ) (record : δ)
    (rest : Bytes) : Prop :=
  ∃ before after input, codec.fields = before ++ field :: after ∧ codec.Bears data input ∧
    Takes before default input record rest

/-- Data is well formed up to a field that succeeds, but takes another number of bytes than
the data allots to it. -/
def Misreads (codec : RecordCodec δ) (data : Bytes) (defect : Defect) : Prop :=
  ∃ field record rest length body record' taken, codec.Reaches data field record rest ∧
    Allots rest length body ∧ field.read record body length = .ok (record', taken) ∧
    taken ≠ length ∧ defect = .fieldRead field.name taken length

/-- Data is well formed up to a field that fails for the bytes that the data allots to it. -/
def Refuses (codec : RecordCodec δ) (data : Bytes) (failure : DecodeFailure) : Prop :=
  ∃ field record rest length body, codec.Reaches data field record rest ∧
    Allots rest length body ∧ field.read record body length = .error failure

/-- Data is malformed before any field has broken its word. -/
inductive Malformed (codec : RecordCodec δ) (data : Bytes) : Prop
  /-- It has no room for a marker. -/
  | marker (short : data.length < 2)
  /-- It bears the marker, but not the number of fields. -/
  | count {input : Bytes} (borne : data = codec.marker.bytes ++ input)
      (uncounted : ∀ rest, ¬ codec.Bears data rest)
  /-- It allots nothing to a field. -/
  | length {field : Field δ} {record : δ} {rest : Bytes}
      (reaches : codec.Reaches data field record rest)
      (none : ∀ length body, ¬ Allots rest length body)
  /-- It allots bytes to a field that the field calls malformed. -/
  | value {cause : RecordError} (refuses : codec.Refuses data (.malformed (.record cause)))
  /-- It goes on behind the last field. -/
  | trailing {input rest : Bytes} {record : δ} (bears : codec.Bears data input)
      (takes : Takes codec.fields default input record rest) (more : rest ≠ [])

theorem decode_of_bears (bears : codec.Bears data input) :
    codec.decode data = decodeFields codec.fields default input >>= fun read =>
      if read.2.isEmpty then .ok (some read.1)
      else .error (.malformed (.record (.trailing read.2.length codec.marker.char))) := by
  obtain ⟨few, rfl⟩ := bears
  have counted := encodeLength_eq_ok.mpr ⟨few, rfl⟩
  rw [List.append_assoc, decode_marker_append, decodeBody_count_append counted]
  cases decodeFields codec.fields default input with
  | error failure => rfl
  | ok read =>
    change (if _ then _ else _) >>= _ = if _ then _ else _
    split <;> rfl

theorem decode_of_uncounted (borne : data = codec.marker.bytes ++ input)
    (uncounted : ∀ rest, ¬ codec.Bears data rest) :
    ∃ cause, codec.decode data = .error (.malformed (.record cause)) := by
  subst borne
  rw [decode_marker_append]
  unfold decodeBody
  cases found : decodeLength input with
  | error cause => exact ⟨cause, rfl⟩
  | ok both =>
    obtain ⟨count, rest⟩ := both
    have other : count ≠ codec.fields.length := by
      rintro rfl
      obtain ⟨lead, lengthed, rfl⟩ := decodeLength_eq_ok.mp found
      obtain ⟨few, rfl⟩ := encodeLength_eq_ok.mp lengthed
      exact uncounted rest ⟨few, (List.append_assoc ..).symm⟩
    refine ⟨.fieldCount codec.marker.char codec.fields.length count, ?_⟩
    change (if count ≠ codec.fields.length then _ else _) >>= _ = _
    rw [if_pos other]
    rfl

/-- Reading fails as the field does that the data is well formed up to. -/
theorem Reaches.decode (reaches : codec.Reaches data field record rest)
    (failed : decodeField field record rest = .error failure) :
    codec.decode data = .error failure := by
  obtain ⟨before, after, input, split, bears, takes⟩ := reaches
  rw [decode_of_bears bears, decodeFields_eq_error_iff.mpr
    ⟨before, field, after, record, rest, split, takes, failed⟩]
  rfl

theorem Misreads.decode (misreads : codec.Misreads data defect) :
    codec.decode data = .error (.defect defect) := by
  obtain ⟨field, record, rest, length, body, record', taken, reaches, allots, read, broken,
    rfl⟩ := misreads
  refine reaches.decode ?_
  rw [decodeField_of_allots allots, read]
  exact if_neg broken

/-- The failure of a field is handed on as it is, whatever its group. -/
theorem Refuses.decode (refuses : codec.Refuses data failure) :
    codec.decode data = .error failure := by
  obtain ⟨field, record, rest, length, body, reaches, allots, failed⟩ := refuses
  refine reaches.decode ?_
  rw [decodeField_of_allots allots, failed]
  rfl

theorem Malformed.decode (malformed : codec.Malformed data) :
    ∃ cause, codec.decode data = .error (.malformed (.record cause)) := by
  cases malformed with
  | marker short => exact ⟨_, decode_of_short short⟩
  | count borne uncounted => exact decode_of_uncounted borne uncounted
  | length reaches none =>
    obtain ⟨cause, failed⟩ := decodeField_of_not_allots none _ _
    exact ⟨cause, reaches.decode failed⟩
  | value refuses => exact ⟨_, refuses.decode⟩
  | trailing bears takes more =>
    rw [decode_of_bears bears, decodeFields_eq_ok_iff_takes.mpr takes]
    exact ⟨_, if_neg (mt List.isEmpty_iff.mp more)⟩

/-- Where a field fails, nothing is allotted to it, it fails itself, or it breaks its word. -/
theorem Reaches.cases (reaches : codec.Reaches data field record rest)
    (failed : decodeField field record rest = .error failure) :
    codec.Malformed data ∨ codec.Refuses data failure ∨ ∃ defect, codec.Misreads data defect := by
  by_cases allotted : ∃ length body, Allots rest length body
  · obtain ⟨length, body, allots⟩ := allotted
    rw [decodeField_of_allots allots] at failed
    obtain unread | ⟨⟨record', taken⟩, read, broken⟩ := Outcome.bind_eq_error.mp failed
    · exact .inr (.inl ⟨field, record, rest, length, body, reaches, allots, unread⟩)
    · dsimp only at broken
      split at broken
      next => cases broken
      next other =>
        exact .inr (.inr ⟨_, field, record, rest, length, body, record', taken, reaches, allots,
          read, other, rfl⟩)
  · exact .inl (.length reaches fun length body allots => allotted ⟨length, body, allots⟩)

theorem Reaches.mem (reaches : codec.Reaches data field record rest) : field ∈ codec.fields := by
  obtain ⟨before, after, _, split, -⟩ := reaches
  rw [split]
  exact List.mem_append_right before List.mem_cons_self

end KeyEnvelope.RecordCodec
