import KeyEnvelope.Proofs.Record.StoredKey

/-!
# Records cut short or followed by more

What an encoder has written ends itself: cut anywhere, the data is found to end before what it
declares, and with something behind it, that is counted as trailing (`Delimits`).  This holds of
the written form of every record of texts and byte strings (`RecordCodec.delimits_of_encode`),
whatever its fields make of the values, and so of stored keys (`StoredKey.delimits_of_encode`).
Data that is read is then no beginning of such a form (`Delimits.eq_of_read`).
-/

namespace KeyEnvelope

/-! ## Cuts -/

/-- The data ends before what it declares. -/
inductive RecordError.EndsEarly : RecordError → Prop
  | marker : EndsEarly .shortMarker
  | length : EndsEarly .shortLength
  | field (name : String) {declared remaining : Nat} :
    remaining < declared → EndsEarly (.fieldOverrun name declared remaining)
  | element {declared remaining : Nat} :
    remaining < declared → EndsEarly (.elementOverrun declared remaining)

/-- A beginning of two byte strings one after the other ends in the first one or holds it. -/
theorem Bytes.prefix_append_cases {part front back : Bytes} (cut : part <+: front ++ back) :
    part <+: front ∧ part.length < front.length ∨ ∃ more, part = front ++ more ∧ more <+: back := by
  rcases Nat.lt_or_ge part.length front.length with short | long
  · exact .inl ⟨List.prefix_of_prefix_length_le cut (List.prefix_append ..) short.le, short⟩
  · obtain ⟨more, rfl⟩ := List.prefix_of_prefix_length_le (List.prefix_append ..) cut long
    exact .inr ⟨more, rfl, (List.prefix_append_right_inj front).mp cut⟩

theorem decodeLength_of_short {input : Bytes} (short : input.length < 4) :
    decodeLength input = .error .shortLength := by
  unfold decodeLength
  exact if_pos short

/-- A beginning of a byte string with its length in front either ends in the length, or the
length is read and is more than what is left. -/
theorem decodeLength_of_cut_element {element framed part : Bytes}
    (encoded : ListCodec.encodeElement element = .ok framed) (cut : part <+: framed)
    (short : part.length < framed.length) :
    decodeLength part = .error .shortLength ∨
      ∃ more, decodeLength part = .ok (element.length, more) ∧ more.length < element.length := by
  obtain ⟨lead, lengthed, rfl⟩ := ListCodec.encodeElement_eq_ok.mp encoded
  rcases Bytes.prefix_append_cases cut with ⟨-, inside⟩ | ⟨more, rfl, -⟩
  · rw [length_of_encodeLength lengthed] at inside
    exact .inl (decodeLength_of_short inside)
  · rw [List.length_append, List.length_append, Nat.add_lt_add_iff_left] at short
    exact .inr ⟨more, decodeLength_eq_ok.mpr ⟨lead, lengthed, rfl⟩, short⟩

/-- The data was refused because it ends early. -/
def CutShort {α : Type} (outcome : Except DecodeFailure α) : Prop :=
  ∃ cause, outcome = .error (.malformed (.record cause)) ∧ cause.EndsEarly

theorem CutShort.bind {α β : Type} {first : Except DecodeFailure α}
    (refused : CutShort first) (rest : α → Except DecodeFailure β) : CutShort (first >>= rest) := by
  obtain ⟨cause, same, early⟩ := refused
  exact ⟨cause, Outcome.bind_eq_error.mpr (.inl same), early⟩

theorem CutShort.of_bind {α β : Type} {first : Except DecodeFailure α} {a : α}
    {rest : α → Except DecodeFailure β} (passed : first = .ok a) (refused : CutShort (rest a)) :
    CutShort (first >>= rest) := by
  obtain ⟨cause, same, early⟩ := refused
  exact ⟨cause, Outcome.bind_eq_error.mpr (.inr ⟨a, passed, same⟩), early⟩

namespace RecordCodec

variable {δ : Type} {field : Field δ} {fields : List (Field δ)} {codec : RecordCodec δ}
  {record other : δ} {part data framed more : Bytes} {parts : List Bytes}

/-! ## Fields -/

theorem cutShort_decodeField (back : field.TakesBack)
    (encoded : encodeField other field = .ok framed) (cut : part <+: framed)
    (short : part.length < framed.length) : CutShort (decodeField field record part) := by
  rw [encodeField_of_takesBack back] at encoded
  unfold decodeField
  rcases decodeLength_of_cut_element encoded cut short with ended | ⟨more, read, less⟩
  · rw [ended]
    exact ⟨.shortLength, rfl, .length⟩
  · rw [read]
    refine ⟨.fieldOverrun field.name _ more.length, ?_, .field field.name less⟩
    exact if_pos less

/-- A field takes what it has written off the front of the data. -/
theorem exists_decodeField_framed (back : field.TakesBack)
    (encoded : encodeField other field = .ok framed) (record : δ) (rest : Bytes) :
    ∃ record', decodeField field record (framed ++ rest) = .ok (record', rest) := by
  obtain ⟨record', read⟩ := back.read_write record other rest
  exact ⟨record', (decodeField_framed back encoded rest).mpr read⟩

theorem exists_decodeFields_framed (back : ∀ field ∈ fields, field.TakesBack)
    (encoded : fields.mapM (encodeField other) = .ok parts) (record : δ) (rest : Bytes) :
    ∃ record', decodeFields fields record (parts.flatten ++ rest) = .ok (record', rest) := by
  have each := Outcome.mapM_eq_ok.mp encoded
  clear encoded
  induction each generalizing record with
  | nil => exact ⟨record, rfl⟩
  | cons first _ ih =>
    obtain ⟨head, back⟩ := List.forall_mem_cons.mp back
    obtain ⟨middle, read⟩ := exists_decodeField_framed head first record (_ ++ rest)
    obtain ⟨record', decoded⟩ := ih back middle
    refine ⟨record', ?_⟩
    rw [List.flatten_cons, List.append_assoc]
    exact decodeFields_cons_eq_ok.mpr ⟨middle, _, read, decoded⟩

/-- Wherever the fields are cut, the one that the cut is in runs out of data. -/
theorem cutShort_decodeFields (back : ∀ field ∈ fields, field.TakesBack)
    (encoded : fields.mapM (encodeField other) = .ok parts) (cut : part <+: parts.flatten)
    (short : part.length < parts.flatten.length) : CutShort (decodeFields fields record part) := by
  have each := Outcome.mapM_eq_ok.mp encoded
  clear encoded
  induction each generalizing record part with
  | nil => cases short
  | cons first _ ih =>
    obtain ⟨head, back⟩ := List.forall_mem_cons.mp back
    rw [List.flatten_cons] at cut short
    rcases Bytes.prefix_append_cases cut with ⟨inside, less⟩ | ⟨more, rfl, behind⟩
    · exact (cutShort_decodeField head first inside less).bind _
    · rw [List.length_append, List.length_append, Nat.add_lt_add_iff_left] at short
      obtain ⟨middle, read⟩ := exists_decodeField_framed head first record more
      exact .of_bind read (ih back behind short)

/-! ## Records -/

variable [Inhabited δ] {count : Bytes}

theorem decode_marker_append (codec : RecordCodec δ) (body : Bytes) :
    codec.decode (codec.marker.bytes ++ body) =
      codec.decodeBody body >>= fun kept => .ok (some kept) := by
  unfold decode
  rw [Marker.read_eq_some.mpr rfl]
  rfl

theorem decodeBody_count_append (counted : encodeLength codec.fields.length = .ok count)
    (body : Bytes) :
    codec.decodeBody (count ++ body) = decodeFields codec.fields default body >>= fun read =>
      if read.2.isEmpty then .ok read.1
      else .error (.malformed (.record (.trailing read.2.length codec.marker.char))) := by
  unfold decodeBody
  rw [decodeLength_eq_ok.mpr ⟨count, counted, rfl⟩]
  exact if_neg (not_not_intro rfl)

/-- What has been written is read as a record. -/
theorem exists_decode_of_encode (back : ∀ field ∈ codec.fields, field.TakesBack)
    (encoded : codec.encode record = .ok data) : ∃ kept, codec.decode data = .ok (some kept) := by
  obtain ⟨count, parts, counted, fields, rfl⟩ := encode_eq_ok.mp encoded
  obtain ⟨kept, decoded⟩ := exists_decodeFields_framed back fields default []
  rw [List.append_nil] at decoded
  refine ⟨kept, ?_⟩
  rw [List.append_assoc, decode_marker_append, decodeBody_count_append counted, decoded]
  rfl

/-- What stands behind a written record is counted. -/
theorem decode_append_of_encode (back : ∀ field ∈ codec.fields, field.TakesBack)
    (encoded : codec.encode record = .ok data) (nonempty : more ≠ []) :
    codec.decode (data ++ more) =
      .error (.malformed (.record (.trailing more.length codec.marker.char))) := by
  obtain ⟨count, parts, counted, fields, rfl⟩ := encode_eq_ok.mp encoded
  obtain ⟨kept, decoded⟩ := exists_decodeFields_framed back fields default more
  have behind : codec.decodeBody (count ++ (parts.flatten ++ more)) =
      .error (.malformed (.record (.trailing more.length codec.marker.char))) := by
    rw [decodeBody_count_append counted, decoded]
    exact if_neg (mt List.isEmpty_iff.mp nonempty)
  rw [List.append_assoc, List.append_assoc, decode_marker_append, behind]
  rfl

/-- Wherever a written record is cut, the data is found to end early. -/
theorem cutShort_decode (back : ∀ field ∈ codec.fields, field.TakesBack)
    (encoded : codec.encode record = .ok data) (cut : part <+: data) (proper : part ≠ data) :
    CutShort (codec.decode part) := by
  have short : part.length < data.length := by
    refine Nat.lt_of_le_of_ne cut.length_le fun same => proper ?_
    exact cut.eq_of_length same
  obtain ⟨count, parts, counted, fields, rfl⟩ := encode_eq_ok.mp encoded
  rw [List.append_assoc] at cut short
  rcases Bytes.prefix_append_cases cut with ⟨-, inside⟩ | ⟨body, rfl, behind⟩
  · rw [codec.marker.length_bytes] at inside
    exact ⟨.shortMarker, decode_of_short inside, .marker⟩
  · rw [decode_marker_append]
    rw [List.length_append, List.length_append, Nat.add_lt_add_iff_left] at short
    refine CutShort.bind ?_ _
    rcases Bytes.prefix_append_cases behind with ⟨-, inside⟩ | ⟨rest, rfl, fieldsCut⟩
    · rw [length_of_encodeLength counted] at inside
      unfold decodeBody
      rw [decodeLength_of_short inside]
      exact ⟨.shortLength, rfl, .length⟩
    · rw [List.length_append, List.length_append, Nat.add_lt_add_iff_left] at short
      rw [decodeBody_count_append counted]
      exact (cutShort_decodeFields back fields fieldsCut short).bind _

end RecordCodec

/-! ## Data that ends itself -/

/-- Data that a reader takes as a whole: cut anywhere it ends early, and what stands behind it
is too much. -/
structure Delimits {α : Type} (decode : Bytes → Except DecodeFailure α) (marker : Char)
    (data : Bytes) : Prop where
  cut : ∀ part, part <+: data → part ≠ data → CutShort (decode part)
  extended : ∀ more, more ≠ [] →
    decode (data ++ more) = .error (.malformed (.record (.trailing more.length marker)))

/-- Data that is read is not a beginning of other data that ends itself. -/
theorem Delimits.eq_of_read {α : Type} {decode : Bytes → Except DecodeFailure α} {marker : Char}
    {data data' : Bytes} {value : α} (delimits : Delimits decode marker data')
    (read : decode data = .ok value) (part : data <+: data') : data = data' := by
  refine Classical.byContradiction fun proper => ?_
  obtain ⟨cause, refused, -⟩ := delimits.cut data part proper
  rw [read] at refused
  cases refused

theorem RecordCodec.delimits_of_encode {δ : Type} [Inhabited δ] {codec : RecordCodec δ}
    (back : ∀ field ∈ codec.fields, field.TakesBack) {record : δ} {data : Bytes}
    (encoded : codec.encode record = .ok data) : Delimits codec.decode codec.marker.char data where
  cut _ part proper := cutShort_decode back encoded part proper
  extended _ nonempty := decode_append_of_encode back encoded nonempty

namespace StoredKey

/-- What one kind of stored key refuses is refused. -/
theorem delimits_of_kind {κ : Type} {codec : RecordCodec κ} {data : Bytes} [Inhabited κ]
    (delimits : Delimits codec.decode codec.marker.char data)
    (broken : ∀ {data failure}, codec.decode data = .error failure → decode data = .error failure) :
    Delimits decode codec.marker.char data where
  cut part inside proper := by
    obtain ⟨cause, refused, early⟩ := delimits.cut part inside proper
    exact ⟨cause, broken refused, early⟩
  extended more nonempty := broken (delimits.extended more nonempty)

theorem delimits_of_encode {key : StoredKey} {data : Bytes} (encoded : encode key = .ok data) :
    Delimits decode key.marker.char data := by
  cases key with
  | plain key =>
    have back : ∀ field ∈ PlainKey.codec.fields, field.TakesBack :=
      fun field member => (PlainKey.codec_faithful.honest field member).takesBack
    exact delimits_of_kind (RecordCodec.delimits_of_encode back encoded)
      fun broken => decode_of_error (.inl broken)
  | wrapped key =>
    have back : ∀ field ∈ WrappedKey.codec.fields, field.TakesBack :=
      fun field member => (WrappedKey.codec_faithful.honest field member).takesBack
    exact delimits_of_kind (RecordCodec.delimits_of_encode back encoded)
      fun broken => decode_of_error (.inr broken)

/-- Whatever a codec of texts and byte strings writes ends itself, and so does the written form
of a stored key: cut anywhere, be it to nothing, it is refused because it ends early, and with
anything behind it, because of that.  So no written form is the beginning of another. -/
theorem encode_delimits :
    (∀ {δ : Type} [Inhabited δ] (codec : RecordCodec δ),
      (∀ field ∈ codec.fields, field.Elementary) →
        (∀ record data, codec.encode record = .ok data →
          Delimits codec.decode codec.marker.char data) ∧
        ∀ record record' data data', codec.encode record = .ok data →
          codec.encode record' = .ok data' → data <+: data' → data = data') ∧
    (∀ key data, encode key = .ok data → Delimits decode key.marker.char data) ∧
    ∀ key key' data data', encode key = .ok data → encode key' = .ok data' →
      data <+: data' → key = key' := by
  refine ⟨?_, fun key data encoded => delimits_of_encode encoded, ?_⟩
  · intro δ _ codec elementary
    have back : ∀ field ∈ codec.fields, field.TakesBack :=
      fun field member => (elementary field member).takesBack
    refine ⟨fun record data encoded => RecordCodec.delimits_of_encode back encoded, ?_⟩
    intro record record' data data' encoded encoded' part
    obtain ⟨kept, read⟩ := RecordCodec.exists_decode_of_encode back encoded
    exact (RecordCodec.delimits_of_encode back encoded').eq_of_read read part
  · intro key key' data data' encoded encoded' part
    have read := decode_eq_ok.mpr encoded
    cases (delimits_of_encode encoded').eq_of_read read part
    rw [decode_eq_ok.mpr encoded'] at read
    exact (Except.ok.inj read).symm

/-- A key in the clear without a counter block, cut behind the bytes of the key, cut to nothing
and with a byte behind it; the same for its codec. -/
theorem encode_delimits_empty_last :
    let key : PlainKey := ⟨"AES", [1, 2], []⟩
    let data : Bytes := [0, 85, 0, 0, 0, 3, 0, 0, 0, 3, 65, 69, 83, 0, 0, 0, 2, 1, 2, 0, 0, 0, 0]
    encode (plain key) = .ok data ∧
    (CutShort (decode (data.take 19)) ∧ CutShort (decode []) ∧
      decode (data ++ [0]) = .error (.malformed (.record (.trailing 1 'U')))) ∧
    CutShort (PlainKey.codec.decode (data.take 19)) := by
  intro key data
  obtain ⟨codecs, keys, -⟩ := encode_delimits
  have encoded : encode (plain key) = .ok data := by decide +kernel
  have elementary : ∀ field ∈ PlainKey.codec.fields, field.Elementary := by
    simp only [PlainKey.codec, List.forall_mem_cons]
    exact ⟨.text .., .bytes .., .bytes .., List.forall_mem_nil _⟩
  have whole := keys (plain key) data encoded
  have kind := (codecs PlainKey.codec elementary).1 key data encoded
  have part : data.take 19 <+: data := List.take_prefix ..
  refine ⟨encoded, ⟨?_, ?_, ?_⟩, ?_⟩
  · exact whole.cut _ part (by decide)
  · exact whole.cut _ List.nil_prefix (by decide)
  · exact whole.extended [0] (by decide)
  · exact kind.cut _ part (by decide)

end StoredKey

end KeyEnvelope
