import Mathlib.Algebra.Order.Ring.Nat
import KeyEnvelope.Proofs.Record.Field
import KeyEnvelope.Proofs.Record.Framing

/-!
# Records that read back

A codec whose fields are honest refuses bad data without a defect.  If, moreover, its
fields stand at different places of the record and cover it, then data reads as a record
exactly if it is the written form of that record
(`RecordCodec.decode_eq_some_of_faithful`).
-/

namespace KeyEnvelope.RecordCodec

variable {δ : Type} {field : Field δ} {fields : List (Field δ)} {record record' other : δ}
  {input rest data : Bytes} {framed : List Bytes}

/-! ## Fields one after the other -/

/-- What a field writes of a record that keeps to what it declares, with its length in
front. -/
theorem encodeField_of_takesBack (back : field.TakesBack) (record : δ) :
    encodeField record field = ListCodec.encodeElement (field.write record) := by
  unfold encodeField ListCodec.encodeElement
  dsimp only
  rw [back.length_write]
  simp only [↓reduceIte]

theorem encodeField_of_honest (honest : field.Honest) (record : δ) :
    encodeField record field = ListCodec.encodeElement (field.write record) :=
  encodeField_of_takesBack honest.takesBack record

theorem length_of_encodeField {bytes : Bytes} (encoded : encodeField record field = .ok bytes) :
    bytes.length = 4 + field.encodedLength record := by
  unfold encodeField at encoded
  obtain ⟨lead, lengthed, written⟩ := Outcome.bind_eq_ok.mp encoded
  dsimp only at written
  split at written
  next declared =>
    cases written
    rw [List.length_append, length_of_encodeLength lengthed, declared]
  next => cases written

theorem decodeField_eq_ok :
    decodeField field record input = .ok (record', rest) ↔
      ∃ length body, decodeLength input = .ok (length, body) ∧ length ≤ body.length ∧
        field.read record body length = .ok (record', length) ∧ rest = body.drop length := by
  unfold decodeField
  simp only [Outcome.bind_eq_ok, Outcome.mapError_eq_ok, Prod.exists]
  refine exists_congr fun length => exists_congr fun body => and_congr_right fun _ => ?_
  split
  next short =>
    refine ⟨fun failed => (by cases failed), fun parts => ?_⟩
    exact absurd parts.1 (Nat.not_le.mpr short)
  next enough =>
    refine ⟨fun steps => ?_, fun parts => ?_⟩
    · obtain ⟨⟨_, taken⟩, read, kept⟩ := Outcome.bind_eq_ok.mp steps
      split at kept
      next all =>
        cases kept
        subst all
        exact ⟨Nat.le_of_not_lt enough, read, rfl⟩
      next => cases kept
    · obtain ⟨-, read, rfl⟩ := parts
      exact Outcome.bind_eq_ok.mpr ⟨(record', length), read, if_pos rfl⟩

/-- An honest field is read from what it writes of the record that comes out. -/
theorem of_decodeField (honest : field.Honest)
    (decoded : decodeField field record input = .ok (record', rest)) :
    ∃ framed, encodeField record' field = .ok framed ∧ input = framed ++ rest := by
  obtain ⟨length, body, found, enough, read, rfl⟩ := decodeField_eq_ok.mp decoded
  obtain ⟨lead, lengthed, rfl⟩ := decodeLength_eq_ok.mp found
  obtain ⟨-, written⟩ := honest.of_read_ok enough read
  have taken : (field.write record').length = length := by
    rw [written, List.length_take_of_le enough]
  rw [encodeField_of_honest honest]
  refine ⟨_, ListCodec.encodeElement_eq_ok.mpr ⟨lead, taken.symm ▸ lengthed, rfl⟩, ?_⟩
  rw [written, List.append_assoc, List.take_append_drop]

/-- Data that begins with what a field has written is handed to it. -/
theorem decodeField_framed (back : field.TakesBack) {framed : Bytes}
    (encoded : encodeField other field = .ok framed) (rest : Bytes) :
    decodeField field record (framed ++ rest) = .ok (record', rest) ↔
      field.read record (field.write other ++ rest) (field.write other).length =
        .ok (record', (field.write other).length) := by
  rw [encodeField_of_takesBack back] at encoded
  obtain ⟨lead, lengthed, rfl⟩ := ListCodec.encodeElement_eq_ok.mp encoded
  have found : decodeLength (lead ++ field.write other ++ rest) =
      .ok ((field.write other).length, field.write other ++ rest) :=
    decodeLength_eq_ok.mpr ⟨lead, lengthed, List.append_assoc ..⟩
  have enough : (field.write other).length ≤ (field.write other ++ rest).length := by
    rw [List.length_append]
    exact Nat.le_add_right ..
  rw [decodeField_eq_ok, found]
  refine ⟨fun parts => ?_, fun read => ⟨_, _, rfl, enough, read, (List.drop_left).symm⟩⟩
  obtain ⟨_, _, ⟨⟩, -, read, -⟩ := parts
  exact read

/-- An honest field reads what it has written of any record. -/
theorem exists_decodeField (honest : field.Honest) {framed : Bytes}
    (encoded : encodeField other field = .ok framed) (record : δ) (rest : Bytes) :
    ∃ record', decodeField field record (framed ++ rest) = .ok (record', rest) ∧
      field.write record' = field.write other := by
  have enough : (field.write other).length ≤ (field.write other ++ rest).length := by
    rw [List.length_append]
    exact Nat.le_add_right ..
  obtain ⟨record', taken, read⟩ := honest.read_write record other rest
  obtain ⟨rfl, written⟩ := honest.of_read_ok enough read
  refine ⟨record', (decodeField_framed honest.takesBack encoded rest).mpr read, ?_⟩
  rw [written, List.take_left]

theorem of_decodeField_error (honest : field.Honest) {failure : DecodeFailure}
    (failed : decodeField field record input = .error failure) :
    ∃ cause, failure = .malformed (.record cause) := by
  unfold decodeField at failed
  obtain unread | ⟨⟨length, body⟩, -, failed⟩ := Outcome.bind_eq_error.mp failed
  · obtain ⟨cause, -, rfl⟩ := Outcome.mapError_eq_error.mp unread
    exact ⟨cause, rfl⟩
  · dsimp only at failed
    split at failed
    next => cases failed; exact ⟨_, rfl⟩
    next enough =>
      have enough := Nat.le_of_not_lt enough
      obtain unread | ⟨⟨record', taken⟩, read, failed⟩ := Outcome.bind_eq_error.mp failed
      · exact honest.of_read_error enough unread
      · dsimp only at failed
        rw [if_pos (honest.of_read_ok enough read).1] at failed
        cases failed

theorem decodeFields_cons_eq_ok :
    decodeFields (field :: fields) record input = .ok (record', rest) ↔
      ∃ middle input', decodeField field record input = .ok (middle, input') ∧
        decodeFields fields middle input' = .ok (record', rest) := by
  rw [decodeFields, Outcome.bind_eq_ok, Prod.exists]

/-- Reading fields changes nothing of what a field writes that they all spare. -/
theorem write_of_decodeFields (spared : ∀ later ∈ fields, later.Spares field)
    (decoded : decodeFields fields record input = .ok (record', rest)) :
    field.write record' = field.write record := by
  induction fields generalizing record input with
  | nil =>
    cases decoded
    rfl
  | cons first fields ih =>
    obtain ⟨middle, input', read, decoded⟩ := decodeFields_cons_eq_ok.mp decoded
    obtain ⟨_, _, -, -, read, -⟩ := decodeField_eq_ok.mp read
    rw [ih (fun later member => spared later (List.mem_cons_of_mem _ member)) decoded]
    exact spared first List.mem_cons_self read

/-- Fields at different places are read from what they write of the record that comes
out. -/
theorem of_decodeFields (honest : ∀ field ∈ fields, field.Honest)
    (apart : fields.Pairwise fun earlier later => later.Spares earlier)
    (decoded : decodeFields fields record input = .ok (record', rest)) :
    ∃ framed, fields.mapM (encodeField record') = .ok framed ∧ input = framed.flatten ++ rest := by
  induction fields generalizing record input with
  | nil =>
    cases decoded
    exact ⟨[], rfl, rfl⟩
  | cons field fields ih =>
    obtain ⟨spared, apart⟩ := List.pairwise_cons.mp apart
    obtain ⟨middle, input', read, behind⟩ := decodeFields_cons_eq_ok.mp decoded
    have head := honest field List.mem_cons_self
    obtain ⟨first, encoded, rfl⟩ := of_decodeField head read
    obtain ⟨framed, others, rfl⟩ :=
      ih (fun later member => honest later (List.mem_cons_of_mem _ member)) apart behind
    -- The fields behind it spare this one, so it still writes what it was read from.
    have kept : encodeField record' field = .ok first := by
      rw [encodeField_of_honest head, write_of_decodeFields spared behind,
        ← encodeField_of_honest head, encoded]
    refine ⟨first :: framed, ?_, ?_⟩
    · exact Outcome.mapM_eq_ok.mpr (.cons kept (Outcome.mapM_eq_ok.mp others))
    · rw [List.flatten_cons, List.append_assoc]

/-- Fields at different places read what they have written of any record. -/
theorem exists_decodeFields (honest : ∀ field ∈ fields, field.Honest)
    (apart : fields.Pairwise fun earlier later => later.Spares earlier)
    (encoded : fields.mapM (encodeField other) = .ok framed) (record : δ) (rest : Bytes) :
    ∃ record', decodeFields fields record (framed.flatten ++ rest) = .ok (record', rest) ∧
      ∀ field ∈ fields, field.write record' = field.write other := by
  have each := Outcome.mapM_eq_ok.mp encoded
  clear encoded
  -- Nothing is known of the record so far: every field brings its own place with it.
  induction each generalizing record with
  | nil => exact ⟨record, rfl, nofun⟩
  | @cons field first fields framed written _ ih =>
    obtain ⟨spared, apart⟩ := List.pairwise_cons.mp apart
    have head := honest field List.mem_cons_self
    obtain ⟨middle, read, same⟩ := exists_decodeField head written record (framed.flatten ++ rest)
    obtain ⟨record', decoded, others⟩ :=
      ih (fun later member => honest later (List.mem_cons_of_mem _ member)) apart middle
    refine ⟨record', ?_, ?_⟩
    · rw [List.flatten_cons, List.append_assoc]
      exact decodeFields_cons_eq_ok.mpr ⟨middle, _, read, decoded⟩
    · intro later member
      rcases List.mem_cons.mp member with rfl | member
      · rw [write_of_decodeFields spared decoded, same]
      · exact others later member

theorem length_of_encodeFields (encoded : fields.mapM (encodeField record) = .ok framed) :
    framed.flatten.length = (fields.map fun field => 4 + field.encodedLength record).sum := by
  have each := Outcome.mapM_eq_ok.mp encoded
  clear encoded
  induction each with
  | nil => rfl
  | cons first _ ih =>
    rw [List.flatten_cons, List.length_append, ih, length_of_encodeField first, List.map_cons,
      List.sum_cons]

theorem of_decodeFields_error (honest : ∀ field ∈ fields, field.Honest) {failure : DecodeFailure}
    (failed : decodeFields fields record input = .error failure) :
    ∃ cause, failure = .malformed (.record cause) := by
  induction fields generalizing record input with
  | nil => cases failed
  | cons field fields ih =>
    rw [decodeFields] at failed
    obtain unread | ⟨_, -, failed⟩ := Outcome.bind_eq_error.mp failed
    · exact of_decodeField_error (honest field List.mem_cons_self) unread
    · exact ih (fun later member => honest later (List.mem_cons_of_mem _ member)) failed

/-! ## Whole records -/

variable {codec : RecordCodec δ}

theorem encode_eq_ok :
    codec.encode record = .ok data ↔ ∃ count framed,
      encodeLength codec.fields.length = .ok count ∧
        codec.fields.mapM (encodeField record) = .ok framed ∧
        data = codec.marker.bytes ++ count ++ framed.flatten := by
  unfold encode
  simp only [Outcome.bind_eq_ok]
  refine exists_congr fun count => ⟨fun steps => ?_, fun parts => ?_⟩
  · obtain ⟨counted, framed, encoded, same⟩ := steps
    exact ⟨framed, counted, encoded, (Except.ok.inj same).symm⟩
  · obtain ⟨framed, counted, encoded, rfl⟩ := parts
    exact ⟨counted, framed, encoded, rfl⟩

/-- The written form of a record bears no marker but that of its codec. -/
theorem read_of_encode (written : codec.encode record = .ok data) {other : Marker}
    (differ : codec.marker.bytes ≠ other.bytes) : other.read data = .ok none := by
  obtain ⟨_, _, -, -, rfl⟩ := encode_eq_ok.mp written
  rw [List.append_assoc]
  exact Marker.read_of_ne differ _

/-- The written form of a record is as long as its fields declare, with six bytes in front
and four for the length of each field. -/
theorem length_of_encode (written : codec.encode record = .ok data) :
    data.length = 6 + (codec.fields.map fun field => 4 + field.encodedLength record).sum := by
  obtain ⟨count, framed, counted, encoded, rfl⟩ := encode_eq_ok.mp written
  rw [List.length_append, List.length_append, codec.marker.length_bytes,
    length_of_encodeLength counted, length_of_encodeFields encoded]

/-- A record of honest fields has a written form exactly if no field is too long. -/
theorem exists_encode_iff (honest : ∀ field ∈ codec.fields, field.Honest)
    (few : codec.fields.length < UInt32.size / 2) :
    (∃ data, codec.encode record = .ok data) ↔
      ∀ field ∈ codec.fields, (field.write record).length < UInt32.size / 2 := by
  refine ⟨fun written field member => ?_, fun short => ?_⟩
  · obtain ⟨data, written⟩ := written
    obtain ⟨_, framed, -, encoded, -⟩ := encode_eq_ok.mp written
    obtain ⟨first, -, encoded⟩ := Outcome.exists_of_mapM_eq_ok encoded member
    rw [encodeField_of_honest (honest field member)] at encoded
    exact ListCodec.exists_encodeElement_iff.mp ⟨first, encoded⟩
  · obtain ⟨framed, encoded⟩ : ∃ framed, codec.fields.mapM (encodeField record) = .ok framed := by
      refine Outcome.exists_mapM_eq_ok fun field member => ?_
      rw [encodeField_of_honest (honest field member)]
      exact ListCodec.exists_encodeElement_iff.mpr (short field member)
    exact ⟨_, encode_eq_ok.mpr ⟨_, framed, encodeLength_eq_ok.mpr ⟨few, rfl⟩, encoded, rfl⟩⟩

variable [Inhabited δ]

theorem decodeBody_eq_ok :
    codec.decodeBody input = .ok record ↔ ∃ count body,
      encodeLength codec.fields.length = .ok count ∧ input = count ++ body ∧
        decodeFields codec.fields default body = .ok (record, []) := by
  unfold decodeBody
  rw [Outcome.bind_eq_ok]
  refine ⟨fun steps => ?_, fun parts => ?_⟩
  · obtain ⟨⟨declared, body⟩, counted, agreeing⟩ := steps
    obtain ⟨count, written, same⟩ := decodeLength_eq_ok.mp (Outcome.mapError_eq_ok.mp counted)
    dsimp only at agreeing
    split at agreeing
    next => cases agreeing
    next agrees =>
      obtain ⟨⟨record', rest⟩, decoded, ending⟩ := Outcome.bind_eq_ok.mp agreeing
      dsimp only at ending
      split at ending
      next all =>
        cases ending
        cases List.isEmpty_iff.mp all
        exact ⟨count, body, Decidable.not_not.mp agrees ▸ written, same, decoded⟩
      next => cases ending
  · obtain ⟨count, body, written, same, decoded⟩ := parts
    have counted := decodeLength_eq_ok.mpr ⟨count, written, same⟩
    refine ⟨_, Outcome.mapError_eq_ok.mpr counted, ?_⟩
    dsimp only
    rw [if_neg (not_not_intro rfl)]
    exact Outcome.bind_eq_ok.mpr ⟨(record, []), decoded, rfl⟩

theorem decode_eq_some :
    codec.decode data = .ok (some record) ↔
      ∃ body, data = codec.marker.bytes ++ body ∧ codec.decodeBody body = .ok record := by
  unfold decode
  rw [Outcome.bind_eq_ok]
  simp only [Outcome.mapError_eq_ok]
  refine ⟨fun steps => ?_, fun parts => ?_⟩
  · obtain ⟨_ | body, borne, rest⟩ := steps
    · cases rest
    · obtain ⟨record', read, same⟩ := Outcome.bind_eq_ok.mp rest
      cases same
      exact ⟨body, Marker.read_eq_some.mp borne, read⟩
  · obtain ⟨body, borne, read⟩ := parts
    refine ⟨some body, Marker.read_eq_some.mpr borne, ?_⟩
    exact Outcome.bind_eq_ok.mpr ⟨record, read, rfl⟩

/-- Data that bears another marker is no record and no broken one either. -/
theorem decode_eq_none :
    codec.decode data = .ok none ↔ codec.marker.read data = .ok none := by
  unfold decode
  rw [Outcome.bind_eq_ok]
  simp only [Outcome.mapError_eq_ok]
  refine ⟨fun steps => ?_, fun foreign => ⟨none, foreign, rfl⟩⟩
  obtain ⟨_ | body, borne, rest⟩ := steps
  · exact borne
  · obtain ⟨record, -, same⟩ := Outcome.bind_eq_ok.mp rest
    cases same

/-- Data without room for a marker is broken. -/
theorem decode_of_short (short : data.length < 2) :
    codec.decode data = .error (.malformed (.record .shortMarker)) := by
  unfold decode Marker.read
  rw [if_pos short]
  rfl

theorem of_decodeBody_error (honest : ∀ field ∈ codec.fields, field.Honest)
    {failure : DecodeFailure} (failed : codec.decodeBody input = .error failure) :
    ∃ cause, failure = .malformed (.record cause) := by
  unfold decodeBody at failed
  obtain uncounted | ⟨⟨declared, body⟩, -, agreeing⟩ := Outcome.bind_eq_error.mp failed
  · obtain ⟨cause, -, rfl⟩ := Outcome.mapError_eq_error.mp uncounted
    exact ⟨cause, rfl⟩
  · dsimp only at agreeing
    split at agreeing
    next => cases agreeing; exact ⟨_, rfl⟩
    next =>
      obtain unread | ⟨⟨record, rest⟩, -, ending⟩ := Outcome.bind_eq_error.mp agreeing
      · exact of_decodeFields_error honest unread
      · dsimp only at ending
        split at ending <;> cases ending
        exact ⟨_, rfl⟩

/-- Honest fields blame the data for every failure. -/
theorem of_decode_error (honest : ∀ field ∈ codec.fields, field.Honest) {failure : DecodeFailure}
    (failed : codec.decode data = .error failure) :
    ∃ cause, failure = .malformed (.record cause) := by
  unfold decode at failed
  obtain short | ⟨_ | body, -, rest⟩ := Outcome.bind_eq_error.mp failed
  · obtain ⟨cause, -, rfl⟩ := Outcome.mapError_eq_error.mp short
    exact ⟨cause, rfl⟩
  · cases rest
  · obtain broken | ⟨_, -, none⟩ := Outcome.bind_eq_error.mp rest
    · exact of_decodeBody_error honest broken
    · cases none

/-! ## Faithful codecs -/

/-- A codec whose fields are honest, stand at different places, and cover the record. -/
structure Faithful (codec : RecordCodec δ) : Prop where
  honest : ∀ field ∈ codec.fields, field.Honest
  apart : codec.fields.Pairwise fun earlier later => later.Spares earlier
  covers : ∀ {record record' : δ},
    (∀ field ∈ codec.fields, field.write record = field.write record') → record = record'

/-- Data reads as a record exactly if it is the written form of that record. -/
theorem decode_eq_some_of_faithful (faithful : codec.Faithful) :
    codec.decode data = .ok (some record) ↔ codec.encode record = .ok data := by
  rw [decode_eq_some, encode_eq_ok]
  refine ⟨fun parts => ?_, fun parts => ?_⟩
  · obtain ⟨_, rfl, read⟩ := parts
    obtain ⟨count, body, counted, rfl, decoded⟩ := decodeBody_eq_ok.mp read
    obtain ⟨framed, encoded, rfl⟩ := of_decodeFields faithful.honest faithful.apart decoded
    refine ⟨count, framed, counted, encoded, ?_⟩
    rw [List.append_nil, List.append_assoc]
  · obtain ⟨count, framed, counted, encoded, rfl⟩ := parts
    obtain ⟨record', decoded, same⟩ :=
      exists_decodeFields faithful.honest faithful.apart encoded default []
    cases faithful.covers same
    rw [List.append_nil] at decoded
    refine ⟨count ++ framed.flatten, List.append_assoc .., ?_⟩
    exact decodeBody_eq_ok.mpr ⟨count, framed.flatten, counted, rfl, decoded⟩

end KeyEnvelope.RecordCodec
