import KeyEnvelope.Record.Codec
import KeyEnvelope.Proofs.Bytes
import KeyEnvelope.Proofs.Outcome

/-!
# Byte strings with their length in front

A length is read exactly where it was written (`decodeLength_eq_ok`), and so is a byte
string with its length in front.  A list has no other end than that of the data, yet no
two lists share a written form, and nothing else reads as a list
(`ListCodec.decode_eq_some`).
-/

namespace KeyEnvelope

/-! ## Lengths -/

theorem encodeLength_eq_ok {n : Nat} {lead : Bytes} :
    encodeLength n = .ok lead ↔ n < UInt32.size / 2 ∧ lead = Bytes.ofNatBE 4 n := by
  unfold encodeLength
  split
  next fits => exact ⟨fun same => ⟨fits, (Except.ok.inj same).symm⟩, fun both => both.2 ▸ rfl⟩
  next large => exact ⟨fun failed => (by cases failed), fun both => absurd both.1 large⟩

theorem length_of_encodeLength {n : Nat} {lead : Bytes} (encoded : encodeLength n = .ok lead) :
    lead.length = 4 := by
  rw [(encodeLength_eq_ok.mp encoded).2, Bytes.length_ofNatBE]

/-- A length is read from data that begins with its written form, and from no other. -/
theorem decodeLength_eq_ok {input rest : Bytes} {n : Nat} :
    decodeLength input = .ok (n, rest) ↔
      ∃ lead, encodeLength n = .ok lead ∧ input = lead ++ rest := by
  refine ⟨fun decoded => ?_, fun parts => ?_⟩
  · unfold decodeLength at decoded
    split at decoded
    next => cases decoded
    next long =>
      dsimp only at decoded
      split at decoded
      next fits =>
        cases decoded
        have four : (input.take 4).length = 4 := by
          rw [List.length_take]
          omega
        have spelled : Bytes.ofNatBE 4 (Bytes.toNatBE (input.take 4)) = input.take 4 := by
          have canonical := Bytes.ofNatBE_toNatBE (input.take 4)
          rwa [four] at canonical
        refine ⟨input.take 4, encodeLength_eq_ok.mpr ⟨fits, spelled.symm⟩, ?_⟩
        exact (List.take_append_drop 4 input).symm
      next => cases decoded
  · obtain ⟨lead, encoded, rfl⟩ := parts
    have four := length_of_encodeLength encoded
    obtain ⟨fits, rfl⟩ := encodeLength_eq_ok.mp encoded
    have read : Bytes.toNatBE (Bytes.ofNatBE 4 n) = n :=
      Bytes.toNatBE_ofNatBE_of_lt (Nat.lt_trans fits (by decide))
    have long : ¬ (Bytes.ofNatBE 4 n ++ rest).length < 4 := by
      rw [List.length_append, four]
      omega
    unfold decodeLength
    rw [if_neg long, List.take_left' four, List.drop_left' four, read]
    exact if_pos fits

/-! ## Markers -/

theorem Marker.length_bytes (marker : Marker) : marker.bytes.length = 2 :=
  Bytes.length_ofNatBE ..

/-- Data bears a marker if it begins with the two bytes of the marker. -/
theorem Marker.read_eq_some {marker : Marker} {data body : Bytes} :
    marker.read data = .ok (some body) ↔ data = marker.bytes ++ body := by
  have two := marker.length_bytes
  unfold Marker.read
  refine ⟨fun found => ?_, fun same => ?_⟩
  · split at found
    next => cases found
    next long =>
      split at found
      next borne =>
        cases found
        rw [← borne, List.take_append_drop]
      next => cases found
  · subst same
    have long : ¬ (marker.bytes ++ body).length < 2 := by
      rw [List.length_append, two]
      omega
    rw [if_neg long, List.take_left' two, List.drop_left' two, if_pos rfl]

/-- Data bears another marker if its first two bytes are not those of the marker. -/
theorem Marker.read_eq_none {marker : Marker} {data : Bytes} :
    marker.read data = .ok none ↔ 2 ≤ data.length ∧ data.take 2 ≠ marker.bytes := by
  unfold Marker.read
  refine ⟨fun found => ?_, fun foreign => ?_⟩
  · split at found
    next => cases found
    next long =>
      split at found
      next => cases found
      next other => exact ⟨Nat.le_of_not_lt long, other⟩
  · rw [if_neg (Nat.not_lt.mpr foreign.1), if_neg foreign.2]

/-- Data that bears one marker does not bear another. -/
theorem Marker.read_of_ne {marker other : Marker} (differ : other.bytes ≠ marker.bytes)
    (body : Bytes) : marker.read (other.bytes ++ body) = .ok none := by
  refine read_eq_none.mpr ⟨?_, ?_⟩
  · rw [List.length_append, other.length_bytes]
    exact Nat.le_add_right ..
  · rwa [List.take_left' other.length_bytes]

/-! ## Lists -/

namespace ListCodec

variable {input rest framed data : Bytes} {element : Bytes} {elements : List Bytes}

theorem encodeElement_eq_ok :
    encodeElement element = .ok framed ↔
      ∃ lead, encodeLength element.length = .ok lead ∧ framed = lead ++ element := by
  unfold encodeElement
  rw [Outcome.bind_eq_ok]
  refine exists_congr fun lead => and_congr_right fun _ => ?_
  exact ⟨fun same => (Except.ok.inj same).symm, fun same => same ▸ rfl⟩

theorem exists_encodeElement_iff :
    (∃ framed, encodeElement element = .ok framed) ↔ element.length < UInt32.size / 2 := by
  refine ⟨fun encoded => ?_, fun short => ?_⟩
  · obtain ⟨framed, encoded⟩ := encoded
    obtain ⟨lead, lengthed, -⟩ := encodeElement_eq_ok.mp encoded
    exact (encodeLength_eq_ok.mp lengthed).1
  · exact ⟨_, encodeElement_eq_ok.mpr ⟨_, encodeLength_eq_ok.mpr ⟨short, rfl⟩, rfl⟩⟩

theorem decodeElements_nil : decodeElements [] = .ok [] := by
  rw [decodeElements]
  rfl

/-- Reading an element goes on behind it. -/
theorem decodeElements_append (encoded : encodeElement element = .ok framed) :
    decodeElements (framed ++ rest) = (decodeElements rest).map (element :: ·) := by
  obtain ⟨lead, lengthed, rfl⟩ := encodeElement_eq_ok.mp encoded
  have four := length_of_encodeLength lengthed
  have decoded : decodeLength (lead ++ element ++ rest) = .ok (element.length, element ++ rest) :=
    decodeLength_eq_ok.mpr ⟨lead, lengthed, List.append_assoc ..⟩
  have nonempty : ¬ (lead ++ element ++ rest).isEmpty = true := by
    rw [List.isEmpty_iff_length_eq_zero, List.length_append, List.length_append]
    omega
  have enough : ¬ (element ++ rest).length < element.length := by
    rw [List.length_append]
    omega
  rw [decodeElements, if_neg nonempty]
  split
  next failed =>
    rw [decoded] at failed
    cases failed
  next found =>
    rw [decoded] at found
    cases found
    rw [if_neg enough, List.take_left, List.drop_left]

/-- Data reads as elements exactly if it is their written forms one after the other. -/
theorem decodeElements_eq_ok :
    decodeElements input = .ok elements ↔
      ∃ framed, elements.mapM encodeElement = .ok framed ∧ input = framed.flatten := by
  refine ⟨fun decoded => ?_, fun parts => ?_⟩
  -- Each step of the reading takes one written form off the front of the input.
  · fun_induction decodeElements input generalizing elements with
    | case1 input empty =>
      cases decoded
      exact ⟨[], rfl, List.isEmpty_iff.mp empty⟩
    | case2 => cases decoded
    | case3 => cases decoded
    | case4 input _ length rest found enough ih =>
      obtain ⟨lead, lengthed, rfl⟩ := decodeLength_eq_ok.mp found
      cases later : decodeElements (rest.drop length) with
      | error cause =>
        rw [later] at decoded
        cases decoded
      | ok others =>
        rw [later] at decoded
        cases decoded
        obtain ⟨framed, encoded, same⟩ := ih later
        have taken : (rest.take length).length = length :=
          List.length_take_of_le (Nat.le_of_not_lt enough)
        have first : encodeElement (rest.take length) = .ok (lead ++ rest.take length) :=
          encodeElement_eq_ok.mpr ⟨lead, taken.symm ▸ lengthed, rfl⟩
        refine ⟨(lead ++ rest.take length) :: framed, ?_, ?_⟩
        · exact Outcome.mapM_eq_ok.mpr (.cons first (Outcome.mapM_eq_ok.mp encoded))
        · rw [List.flatten_cons, ← same, List.append_assoc, List.take_append_drop]
  · obtain ⟨framed, encoded, rfl⟩ := parts
    have each := Outcome.mapM_eq_ok.mp encoded
    clear encoded
    induction each with
    | nil => exact decodeElements_nil
    | cons first _ ih =>
      rw [List.flatten_cons, decodeElements_append first, ih]
      rfl

theorem encode_eq_ok :
    encode elements = .ok data ↔
      ∃ framed, elements.mapM encodeElement = .ok framed ∧
        data = marker.bytes ++ framed.flatten := by
  unfold encode
  rw [Outcome.bind_eq_ok]
  refine exists_congr fun framed => and_congr_right fun _ => ?_
  exact ⟨fun same => (Except.ok.inj same).symm, fun same => same ▸ rfl⟩

/-- Data reads as a list exactly if it is the written form of that list. -/
theorem decode_eq_some : decode data = .ok (some elements) ↔ encode elements = .ok data := by
  rw [encode_eq_ok]
  unfold decode
  rw [Outcome.bind_eq_ok]
  refine ⟨fun steps => ?_, fun parts => ?_⟩
  · obtain ⟨_ | body, borne, read⟩ := steps
    · cases read
    · obtain ⟨elements', decoded, same⟩ := Outcome.bind_eq_ok.mp read
      cases same
      obtain ⟨framed, encoded, rfl⟩ := decodeElements_eq_ok.mp decoded
      exact ⟨framed, encoded, Marker.read_eq_some.mp borne⟩
  · obtain ⟨framed, encoded, same⟩ := parts
    refine ⟨some framed.flatten, Marker.read_eq_some.mpr same, ?_⟩
    exact Outcome.bind_eq_ok.mpr ⟨elements, decodeElements_eq_ok.mpr ⟨framed, encoded, rfl⟩, rfl⟩

/-- The written form of a list bears no marker but that of lists. -/
theorem read_of_encode (written : encode elements = .ok data) {other : Marker}
    (differ : marker.bytes ≠ other.bytes) : other.read data = .ok none := by
  obtain ⟨_, -, rfl⟩ := encode_eq_ok.mp written
  exact Marker.read_of_ne differ _

/-- Data that bears another marker is no list. -/
theorem decode_of_foreign (foreign : marker.read data = .ok none) : decode data = .ok none := by
  unfold decode
  rw [foreign]
  rfl

/-- A list has a written form exactly if none of its elements is too long. -/
theorem exists_encode_iff :
    (∃ data, encode elements = .ok data) ↔
      ∀ element ∈ elements, element.length < UInt32.size / 2 := by
  refine ⟨fun written element member => ?_, fun short => ?_⟩
  · obtain ⟨data, written⟩ := written
    obtain ⟨framed, encoded, -⟩ := encode_eq_ok.mp written
    obtain ⟨first, -, encoded⟩ := Outcome.exists_of_mapM_eq_ok encoded member
    exact exists_encodeElement_iff.mp ⟨first, encoded⟩
  · obtain ⟨framed, encoded⟩ : ∃ framed, elements.mapM encodeElement = .ok framed :=
      Outcome.exists_mapM_eq_ok fun element member =>
        exists_encodeElement_iff.mpr (short element member)
    exact ⟨_, encode_eq_ok.mpr ⟨framed, encoded, rfl⟩⟩

end ListCodec

end KeyEnvelope
