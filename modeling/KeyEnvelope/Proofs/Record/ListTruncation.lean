import KeyEnvelope.Proofs.Record.KeyList
import KeyEnvelope.Proofs.Record.Truncation

/-!
# Lists cut short

A list has no other end than that of the data, so a list that is cut between two elements reads
as a shorter list.  That is all that a cut can do: the elements before it are read as they are,
and a cut inside of the marker or of an element is found (`ListCodec.decode_of_cut`).  Lists of
stored keys behave the same (`StoredKey.decodeList_of_cut`).  On any data, the reading takes
turns of four bytes at least until nothing is left or an element is broken
(`ListCodec.exists_turns`).
-/

namespace KeyEnvelope

/-- What is read if the data ends at one of some places, and refused if it ends elsewhere. -/
theorem Outcome.read_iff_ends {ε β : Type} {outcome : Except ε β} {k count : Nat}
    {ends : Nat → Nat} {value : Nat → β} {refused : Prop}
    (cases : (∃ n ≤ count, k = ends n ∧ outcome = .ok (value n)) ∨ refused)
    (apart : refused → ∃ e, outcome = .error e)
    (reads : ∀ n, k = ends n → outcome = .ok (value n)) :
    (∀ found, outcome = .ok found ↔ ∃ n ≤ count, k = ends n ∧ found = value n) ∧
      ((∀ n ≤ count, k ≠ ends n) → refused) := by
  refine ⟨fun found => ⟨fun read => ?_, fun parts => ?_⟩, fun elsewhere => ?_⟩
  · rcases cases with ⟨n, within, ending, same⟩ | failed
    · rw [same] at read
      exact ⟨n, within, ending, (Except.ok.inj read).symm⟩
    · obtain ⟨e, same⟩ := apart failed
      rw [same] at read
      cases read
  · obtain ⟨n, -, ending, rfl⟩ := parts
    exact reads n ending
  · exact cases.resolve_left fun ⟨n, within, ending, _⟩ => elsewhere n within ending

namespace ListCodec

variable {input middle rest part data framed element : Bytes} {elements parts : List Bytes}

/-! ## Turns -/

/-- One turn of the reading: the element at the beginning of the input, and what follows it. -/
def decodeElement (input : Bytes) : Except RecordError (Bytes × Bytes) := do
  let (length, rest) ← decodeLength input
  if rest.length < length then throw (.elementOverrun length rest.length)
  else return (rest.take length, rest.drop length)

/-- What the reading has taken off the input after some turns, and what is left then. -/
inductive Turns : Bytes → List Bytes → Bytes → Prop
  | none {input : Bytes} : Turns input [] input
  | turn {input element middle : Bytes} {elements : List Bytes} {rest : Bytes} :
    decodeElement input = .ok (element, middle) → Turns middle elements rest →
    Turns input (element :: elements) rest

theorem decodeElement_eq_ok :
    decodeElement input = .ok (element, rest) ↔
      ∃ framed, encodeElement element = .ok framed ∧ input = framed ++ rest := by
  unfold decodeElement
  rw [Outcome.bind_eq_ok]
  refine ⟨fun steps => ?_, fun parts => ?_⟩
  · obtain ⟨⟨length, body⟩, read, kept⟩ := steps
    obtain ⟨lead, lengthed, rfl⟩ := decodeLength_eq_ok.mp read
    dsimp only at kept
    split at kept
    next => cases kept
    next enough =>
      cases kept
      have taken : (body.take length).length = length :=
        List.length_take_of_le (Nat.le_of_not_lt enough)
      refine ⟨_, encodeElement_eq_ok.mpr ⟨lead, taken.symm ▸ lengthed, rfl⟩, ?_⟩
      rw [List.append_assoc, List.take_append_drop]
  · obtain ⟨_, encoded, rfl⟩ := parts
    obtain ⟨lead, lengthed, rfl⟩ := encodeElement_eq_ok.mp encoded
    have enough : ¬ (element ++ rest).length < element.length := by
      rw [List.length_append]
      omega
    refine ⟨_, decodeLength_eq_ok.mpr ⟨lead, lengthed, List.append_assoc ..⟩, ?_⟩
    dsimp only
    rw [if_neg enough, List.take_left, List.drop_left]
    rfl

theorem length_of_encodeElement (encoded : encodeElement element = .ok framed) :
    framed.length = 4 + element.length := by
  obtain ⟨lead, lengthed, rfl⟩ := encodeElement_eq_ok.mp encoded
  rw [List.length_append, length_of_encodeLength lengthed]

/-- Every turn takes the four bytes of a length at least. -/
theorem Turns.four_mul_le (turns : Turns input elements rest) :
    4 * elements.length + rest.length ≤ input.length := by
  induction turns with
  | none => rw [List.length_nil, Nat.mul_zero, Nat.zero_add]
  | turn first _ ih =>
    obtain ⟨framed, encoded, rfl⟩ := decodeElement_eq_ok.mp first
    rw [List.length_append, length_of_encodeElement encoded, List.length_cons]
    omega

/-- The reading ends: after some turns nothing is left, or what is left begins with no element. -/
theorem exists_turns (input : Bytes) :
    ∃ elements rest, Turns input elements rest ∧
      (rest = [] ∧ decodeElements input = .ok elements ∨
        rest ≠ [] ∧ ∃ cause, decodeElement rest = .error cause ∧
          decodeElements input = .error cause) := by
  fun_induction decodeElements input with
  | case1 input empty => exact ⟨[], input, .none, .inl ⟨List.isEmpty_iff.mp empty, rfl⟩⟩
  | case2 input nonempty cause failed =>
    have broken : decodeElement input = .error cause := by
      unfold decodeElement
      rw [failed]
      rfl
    exact ⟨[], input, .none, .inr ⟨mt List.isEmpty_iff.mpr nonempty, cause, broken, rfl⟩⟩
  | case3 input nonempty length rest read short =>
    have broken : decodeElement input = .error (.elementOverrun length rest.length) := by
      unfold decodeElement
      rw [read]
      exact if_pos short
    exact ⟨[], input, .none, .inr ⟨mt List.isEmpty_iff.mpr nonempty, _, broken, rfl⟩⟩
  | case4 input nonempty length rest read enough ih =>
    have first : decodeElement input = .ok (rest.take length, rest.drop length) := by
      unfold decodeElement
      rw [read]
      exact if_neg enough
    obtain ⟨elements, left, turns, done | ⟨more, cause, broken, failed⟩⟩ := ih
    · refine ⟨_, left, .turn first turns, .inl ⟨done.1, ?_⟩⟩
      rw [done.2]
      rfl
    · refine ⟨_, left, .turn first turns, .inr ⟨more, cause, broken, ?_⟩⟩
      rw [failed]
      rfl

/-- The reading fails as the first element does. -/
theorem decodeElements_of_broken {cause : RecordError} (nonempty : input ≠ [])
    (broken : decodeElement input = .error cause) : decodeElements input = .error cause := by
  obtain ⟨elements, rest, turns, outcome⟩ := exists_turns input
  cases turns with
  | none =>
    rcases outcome with ⟨empty, -⟩ | ⟨-, cause', broken', failed⟩
    · exact absurd empty nonempty
    · rw [broken] at broken'
      cases broken'
      exact failed
  | turn first =>
    rw [broken] at first
    cases first

/-! ## Cuts -/

theorem length_of_encodeElements (encoded : elements.mapM encodeElement = .ok parts) :
    parts.flatten.length = (elements.map fun element => 4 + element.length).sum := by
  have each := Outcome.mapM_eq_ok.mp encoded
  clear encoded
  induction each with
  | nil => rfl
  | cons first _ ih =>
    rw [List.flatten_cons, List.length_append, length_of_encodeElement first, ih, List.map_cons,
      List.sum_cons]

theorem encodeElements_take (encoded : elements.mapM encodeElement = .ok parts) (n : Nat) :
    (elements.take n).mapM encodeElement = .ok (parts.take n) :=
  Outcome.mapM_eq_ok.mpr (List.forall₂_take n (Outcome.mapM_eq_ok.mp encoded))

theorem decodeElement_of_cut (encoded : encodeElement element = .ok framed) (cut : part <+: framed)
    (short : part.length < framed.length) :
    ∃ cause, decodeElement part = .error cause ∧ cause.EndsEarly := by
  unfold decodeElement
  rcases decodeLength_of_cut_element encoded cut short with ended | ⟨more, read, less⟩
  · rw [ended]
    exact ⟨.shortLength, rfl, .length⟩
  · rw [read]
    exact ⟨.elementOverrun _ more.length, if_pos less, .element less⟩

/-- A beginning of elements one after the other reads as the elements in it, or ends in one. -/
theorem decodeElements_of_cut (encoded : elements.mapM encodeElement = .ok parts)
    (cut : part <+: parts.flatten) :
    (∃ n ≤ elements.length, part = (parts.take n).flatten ∧
        decodeElements part = .ok (elements.take n)) ∨
      ∃ cause, decodeElements part = .error cause ∧ cause.EndsEarly := by
  have each := Outcome.mapM_eq_ok.mp encoded
  clear encoded
  induction each generalizing part with
  | nil =>
    cases List.prefix_nil.mp cut
    exact .inl ⟨0, Nat.le_refl _, rfl, decodeElements_nil⟩
  | cons first _ ih =>
    rw [List.flatten_cons] at cut
    rcases Bytes.prefix_append_cases cut with ⟨inside, less⟩ | ⟨more, rfl, behind⟩
    -- A cut in front of an element is the end of the list, and one inside of it is none.
    · rcases Decidable.em (part = []) with rfl | nonempty
      · exact .inl ⟨0, Nat.zero_le _, rfl, decodeElements_nil⟩
      · obtain ⟨cause, broken, early⟩ := decodeElement_of_cut first inside less
        exact .inr ⟨cause, decodeElements_of_broken nonempty broken, early⟩
    · rw [decodeElements_append first]
      rcases ih behind with ⟨n, within, rfl, read⟩ | ⟨cause, failed, early⟩
      · refine .inl ⟨n + 1, Nat.succ_le_succ within, rfl, ?_⟩
        rw [read]
        rfl
      · refine .inr ⟨cause, ?_, early⟩
        rw [failed]
        rfl

/-- Where the first `n` of some byte strings end in the written form of a list, if these are
their lengths. -/
def boundary (lengths : List Nat) (n : Nat) : Nat :=
  2 + ((lengths.take n).map (4 + ·)).sum

theorem boundary_eq (encoded : elements.mapM encodeElement = .ok parts) (n : Nat) :
    boundary (elements.map List.length) n = 2 + (parts.take n).flatten.length := by
  unfold boundary
  rw [length_of_encodeElements (encodeElements_take encoded n), ← List.map_take, List.map_map]
  rfl

/-- The written form of the first elements is a beginning of that of all. -/
theorem encode_take (encoded : encode elements = .ok data) (n : Nat) :
    encode (elements.take n) = .ok (data.take (boundary (elements.map List.length) n)) := by
  obtain ⟨parts, framed, rfl⟩ := encode_eq_ok.mp encoded
  refine encode_eq_ok.mpr ⟨parts.take n, encodeElements_take framed n, ?_⟩
  have split : parts.flatten = (parts.take n).flatten ++ (parts.drop n).flatten := by
    rw [← List.flatten_append, List.take_append_drop]
  rw [boundary_eq framed, ← marker.length_bytes, List.take_length_add_append, split, List.take_left]

theorem decode_marker_append (body : Bytes) :
    decode (marker.bytes ++ body) =
      decodeElements body >>= fun elements => .ok (some elements) := by
  unfold decode
  rw [Marker.read_eq_some.mpr rfl]
  rfl

theorem decode_of_short (short : part.length < 2) : decode part = .error .shortMarker := by
  unfold decode Marker.read
  rw [if_pos short]
  rfl

/-- A list that is cut reads as the elements in front of the cut, or ends early. -/
theorem decode_of_cut (encoded : encode elements = .ok data) (cut : part <+: data) :
    (∃ n ≤ elements.length, part.length = boundary (elements.map List.length) n ∧
        decode part = .ok (some (elements.take n))) ∨
      ∃ cause, decode part = .error cause ∧ cause.EndsEarly := by
  obtain ⟨parts, framed, rfl⟩ := encode_eq_ok.mp encoded
  rcases Bytes.prefix_append_cases cut with ⟨-, inside⟩ | ⟨body, rfl, behind⟩
  · rw [marker.length_bytes] at inside
    exact .inr ⟨.shortMarker, decode_of_short inside, .marker⟩
  · rw [decode_marker_append]
    rcases decodeElements_of_cut framed behind with ⟨n, within, rfl, read⟩ | ⟨cause, failed, early⟩
    · refine .inl ⟨n, within, ?_, Outcome.bind_eq_ok.mpr ⟨_, read, rfl⟩⟩
      rw [boundary_eq framed, List.length_append, marker.length_bytes]
    · exact .inr ⟨cause, Outcome.bind_eq_error.mpr (.inl failed), early⟩

end ListCodec

namespace StoredKey

open ListCodec (boundary)

variable {part data : Bytes} {keys : List StoredKey}

/-- The lengths of records that stored keys are written as. -/
theorem length_of_encodeKeys {elements : List Bytes} (written : keys.mapM encode = .ok elements) :
    elements.map List.length = keys.map recordLength := by
  have each := Outcome.mapM_eq_ok.mp written
  clear written
  induction each with
  | nil => rfl
  | cons first _ ih => rw [List.map_cons, List.map_cons, length_of_encode first, ih]

theorem decodeList_take (written : encodeList keys = .ok data) (n : Nat) :
    decodeList (data.take (boundary (keys.map recordLength) n)) = .ok (keys.take n) := by
  obtain ⟨elements, each, framed⟩ := encodeList_eq_ok.mp written
  have first : (keys.take n).mapM encode = .ok (elements.take n) :=
    Outcome.mapM_eq_ok.mpr (List.forall₂_take n (Outcome.mapM_eq_ok.mp each))
  rw [← length_of_encodeKeys each]
  exact decodeList_eq_ok.mpr (encodeList_eq_ok.mpr ⟨_, first, ListCodec.encode_take framed n⟩)

/-- A list of stored keys that is cut reads as the keys in front of the cut, or ends early. -/
theorem decodeList_of_cut (written : encodeList keys = .ok data) (cut : part <+: data) :
    (∃ n ≤ keys.length, part.length = boundary (keys.map recordLength) n ∧
        decodeList part = .ok (keys.take n)) ∨ CutShort (decodeList part) := by
  obtain ⟨elements, each, framed⟩ := encodeList_eq_ok.mp written
  have lengths := length_of_encodeKeys each
  have count : elements.length = keys.length := (Outcome.mapM_eq_ok.mp each).length_eq.symm
  rcases ListCodec.decode_of_cut framed cut with ⟨n, within, ends, -⟩ | ⟨cause, failed, early⟩
  · have start : part = data.take (boundary (keys.map recordLength) n) := by
      rw [← lengths, ← ends]
      exact List.prefix_iff_eq_take.mp cut
    refine .inl ⟨n, count ▸ within, lengths ▸ ends, ?_⟩
    rw [start, decodeList_take written n]
  · refine .inr ⟨cause, ?_, early⟩
    rw [decodeList_eq, failed]

/-- A list that is cut at the end of its marker or of an element reads as the elements in front
of the cut, and cut anywhere else it ends early; so does a list of stored keys.  On any data the
reading takes turns, each of four bytes at least, until nothing is left or what is left begins
with no element. -/
theorem decodeList_take_iff :
    (∀ elements data k, ListCodec.encode elements = .ok data → k ≤ data.length →
      (∀ found, ListCodec.decode (data.take k) = .ok found ↔
        ∃ n ≤ elements.length, k = boundary (elements.map List.length) n ∧
          found = some (elements.take n)) ∧
      ((∀ n ≤ elements.length, k ≠ boundary (elements.map List.length) n) →
        ∃ cause, ListCodec.decode (data.take k) = .error cause ∧ cause.EndsEarly)) ∧
    (∀ keys data k, encodeList keys = .ok data → k ≤ data.length →
      (∀ found, decodeList (data.take k) = .ok found ↔
        ∃ n ≤ keys.length, k = boundary (keys.map recordLength) n ∧ found = keys.take n) ∧
      ((∀ n ≤ keys.length, k ≠ boundary (keys.map recordLength) n) →
        CutShort (decodeList (data.take k)))) ∧
    ∀ input,
      (∀ elements rest, ListCodec.Turns input elements rest →
        4 * elements.length + rest.length ≤ input.length) ∧
      ∃ elements rest, ListCodec.Turns input elements rest ∧
        (rest = [] ∧ ListCodec.decodeElements input = .ok elements ∨
          rest ≠ [] ∧ ∃ cause, ListCodec.decodeElement rest = .error cause ∧
            ListCodec.decodeElements input = .error cause) := by
  refine ⟨?_, ?_, fun input => ⟨fun _ _ turns => turns.four_mul_le, ListCodec.exists_turns input⟩⟩
  · intro elements data k encoded inside
    have cases := ListCodec.decode_of_cut encoded (List.take_prefix k data)
    rw [List.length_take_of_le inside] at cases
    refine Outcome.read_iff_ends cases (fun ⟨cause, failed, _⟩ => ⟨cause, failed⟩) ?_
    rintro n rfl
    exact ListCodec.decode_eq_some.mpr (ListCodec.encode_take encoded n)
  · intro keys data k written inside
    have cases := decodeList_of_cut written (List.take_prefix k data)
    rw [List.length_take_of_le inside] at cases
    refine Outcome.read_iff_ends cases
      (fun ⟨cause, failed, _⟩ => ⟨.malformed (.record cause), failed⟩) ?_
    rintro n rfl
    exact decodeList_take written n

/-- A list with an empty element, cut behind that and inside of the length of the last one, and a
list of two stored keys, cut between them and inside of the second. -/
theorem decodeList_take_iff_empty_element :
    let elements : List Bytes := [[0, 0, 0, 1], [], [9]]
    let data : Bytes := [0, 76, 0, 0, 0, 4, 0, 0, 0, 1, 0, 0, 0, 0, 0, 0, 0, 1, 9]
    let key : StoredKey := .plain ⟨"", [], []⟩
    let keysData : Bytes := [0, 76,
      0, 0, 0, 18, 0, 85, 0, 0, 0, 3, 0, 0, 0, 0, 0, 0, 0, 0, 0, 0, 0, 0,
      0, 0, 0, 18, 0, 85, 0, 0, 0, 3, 0, 0, 0, 0, 0, 0, 0, 0, 0, 0, 0, 0]
    (ListCodec.encode elements = .ok data ∧
      ListCodec.decode (data.take 14) = .ok (some [[0, 0, 0, 1], []]) ∧
      ∃ cause, ListCodec.decode (data.take 16) = .error cause ∧ cause.EndsEarly) ∧
    encodeList [key, key] = .ok keysData ∧
      decodeList (keysData.take 24) = .ok [key] ∧ CutShort (decodeList (keysData.take 30)) := by
  intro elements data key keysData
  obtain ⟨lists, keyLists, -⟩ := decodeList_take_iff
  have encoded : ListCodec.encode elements = .ok data := by decide +kernel
  have written : encodeList [key, key] = .ok keysData := by decide +kernel
  obtain ⟨accepts, -⟩ := lists elements data 14 encoded (by decide)
  obtain ⟨-, refuses⟩ := lists elements data 16 encoded (by decide)
  obtain ⟨acceptsKeys, -⟩ := keyLists [key, key] keysData 24 written (by decide)
  obtain ⟨-, refusesKeys⟩ := keyLists [key, key] keysData 30 written (by decide)
  refine ⟨⟨encoded, ?_, ?_⟩, written, ?_, ?_⟩
  · exact (accepts _).mpr ⟨2, by decide, by decide, rfl⟩
  · exact refuses (by decide)
  · exact (acceptsKeys _).mpr ⟨1, by decide, by decide +kernel, rfl⟩
  · exact refusesKeys (by decide +kernel)

end StoredKey

end KeyEnvelope
