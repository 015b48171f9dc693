import KeyEnvelope.Context
import KeyEnvelope.Proofs.Bytes

/-!
# Reading contexts back

The written form of a context with a wrapped key reads back as that context, in both
layouts and whatever the length of the wrapped key (`decode_of_encode`).  Without a
wrapped key it is refused (`decode_of_encode_empty`), and nothing else is read at all
(`decode_eq_ok`).  Reading never cuts outside the data (`decode?_eq`), unless a fixed length
leaves no room for the nonce in a word: then there is data for which it does
(`decode?_eq_none_iff`).
-/

namespace KeyEnvelope

/-- The lengths of wrapped keys that a layout takes. -/
def ContextFormat.Takes : ContextFormat → Nat → Prop
  | .fixed expected, length => length = expected
  | .lengthPrefixed, length => length ≤ UInt32.size - 1

instance (format : ContextFormat) (length : Nat) : Decidable (format.Takes length) :=
  match format with
  | .fixed expected => inferInstanceAs (Decidable (length = expected))
  | .lengthPrefixed => inferInstanceAs (Decidable (length ≤ UInt32.size - 1))

namespace Context

variable {context : Context} {data : Bytes} {format : ContextFormat}

/-! ## Writing -/

theorem encode_fixed_eq_ok {length : Nat} :
    encode (.fixed length) context = .ok data ↔
      context.wrappedKey.length = length ∧ data = context.wrappedKey ++ context.nonce.bytes := by
  unfold encode
  dsimp only
  split
  next fits => exact ⟨fun same => ⟨fits, (Except.ok.inj same).symm⟩, fun both => both.2 ▸ rfl⟩
  next other => exact ⟨fun failed => (by cases failed), fun both => absurd both.1 other⟩

theorem encode_lengthPrefixed_eq_ok :
    encode .lengthPrefixed context = .ok data ↔
      context.wrappedKey.length < UInt32.size ∧
        data = Bytes.ofNatBE 4 context.wrappedKey.length ++ context.wrappedKey ++
          context.nonce.bytes := by
  unfold encode
  dsimp only
  split
  next fits => exact ⟨fun same => ⟨fits, (Except.ok.inj same).symm⟩, fun both => both.2 ▸ rfl⟩
  next large => exact ⟨fun failed => (by cases failed), fun both => absurd both.1 large⟩

/-- A context is written unless the layout does not take a wrapped key of its length. -/
theorem exists_encode_iff :
    (∃ data, encode format context = .ok data) ↔ format.Takes context.wrappedKey.length := by
  cases format with
  | fixed length =>
    refine ⟨fun ⟨data, encoded⟩ => (encode_fixed_eq_ok.mp encoded).1, fun fits => ?_⟩
    exact ⟨_, encode_fixed_eq_ok.mpr ⟨fits, rfl⟩⟩
  | lengthPrefixed =>
    refine ⟨fun ⟨data, encoded⟩ => ?_, fun fits => ?_⟩
    · exact Nat.le_pred_of_lt (encode_lengthPrefixed_eq_ok.mp encoded).1
    · exact ⟨_, encode_lengthPrefixed_eq_ok.mpr ⟨Nat.lt_of_le_pred (by decide) fits, rfl⟩⟩

/-- A fixed layout takes no wrapped key of another length. -/
theorem length_of_encode_fixed {length : Nat}
    (encoded : encode (.fixed length) context = .ok data) :
    context.wrappedKey.length = length :=
  (encode_fixed_eq_ok.mp encoded).1

/-! ## Reading what was written -/

theorem ofParts_eq_ok (nonempty : context.wrappedKey ≠ []) :
    ofParts context.wrappedKey context.nonce.bytes = .ok context := by
  unfold ofParts
  rw [if_neg (by rwa [List.isEmpty_iff]), Nonce.ofBytes?_bytes]

theorem decode_fixed {length : Nat} (encoded : encode (.fixed length) context = .ok data) :
    decode (.fixed length) data = ofParts context.wrappedKey context.nonce.bytes := by
  obtain ⟨fits, rfl⟩ := encode_fixed_eq_ok.mp encoded
  have total : (context.wrappedKey ++ context.nonce.bytes).length = length + nonceSize := by
    rw [List.length_append, fits, context.nonce.length_eq]
  unfold decode
  dsimp only
  rw [if_pos total, ← fits, List.take_left, List.drop_left]

theorem decode_lengthPrefixed (encoded : encode .lengthPrefixed context = .ok data) :
    decode .lengthPrefixed data = ofParts context.wrappedKey context.nonce.bytes := by
  obtain ⟨fits, rfl⟩ := encode_lengthPrefixed_eq_ok.mp encoded
  have nonce_length := context.nonce.length_eq
  have lead := Bytes.length_ofNatBE 4 context.wrappedKey.length
  have total : ¬ (Bytes.ofNatBE 4 context.wrappedKey.length ++ context.wrappedKey ++
      context.nonce.bytes).length < 4 + nonceSize := by
    rw [List.length_append, List.length_append, lead]
    omega
  have declared : Bytes.toNatBE (Bytes.ofNatBE 4 context.wrappedKey.length) =
      context.wrappedKey.length := Bytes.toNatBE_ofNatBE_of_lt (by omega)
  have body : (context.wrappedKey ++ context.nonce.bytes).length - nonceSize =
      context.wrappedKey.length := by
    rw [List.length_append, nonce_length, Nat.add_sub_cancel]
  unfold decode
  dsimp only
  rw [if_neg total, List.append_assoc, List.take_left' lead, List.drop_left' lead, declared,
    if_pos body, List.take_left, List.drop_left]

/-- What is written of a context is taken apart as it was put together. -/
theorem decode_eq_ofParts (encoded : encode format context = .ok data) :
    decode format data = ofParts context.wrappedKey context.nonce.bytes := by
  cases format with
  | fixed length => exact decode_fixed encoded
  | lengthPrefixed => exact decode_lengthPrefixed encoded

/-- What is written of a context with a wrapped key is read back as that context. -/
theorem decode_of_encode (format : ContextFormat) (nonempty : context.wrappedKey ≠ [])
    (encoded : encode format context = .ok data) : decode format data = .ok context := by
  rw [decode_eq_ofParts encoded, ofParts_eq_ok nonempty]

/-- What is written of a context without a wrapped key is refused. -/
theorem decode_of_encode_empty (empty : context.wrappedKey = [])
    (encoded : encode format context = .ok data) :
    decode format data = .error .emptyWrappedKey := by
  rw [decode_eq_ofParts encoded, empty]
  rfl

/-! ## Nothing else is read -/

theorem of_ofParts {wrappedKey rest : Bytes} (made : ofParts wrappedKey rest = .ok context) :
    context.wrappedKey ≠ [] ∧ wrappedKey = context.wrappedKey ∧ rest = context.nonce.bytes := by
  unfold ofParts at made
  split at made
  next => cases made
  next nonempty =>
    split at made
    next nonce found =>
      cases made
      exact ⟨fun empty => nonempty (List.isEmpty_iff.mpr empty), rfl, Nonce.of_ofBytes? found⟩
    next => cases made

theorem of_decode_fixed {length : Nat} (decoded : decode (.fixed length) data = .ok context) :
    context.wrappedKey ≠ [] ∧ encode (.fixed length) context = .ok data := by
  unfold decode at decoded
  dsimp only at decoded
  split at decoded
  next total =>
    obtain ⟨nonempty, front, behind⟩ := of_ofParts decoded
    refine ⟨nonempty, encode_fixed_eq_ok.mpr ⟨?_, ?_⟩⟩
    · rw [← front, List.length_take_of_le (by omega)]
    · rw [← front, ← behind, List.take_append_drop]
  next => cases decoded

theorem of_decode_lengthPrefixed (decoded : decode .lengthPrefixed data = .ok context) :
    context.wrappedKey ≠ [] ∧ encode .lengthPrefixed context = .ok data := by
  unfold decode at decoded
  dsimp only at decoded
  split at decoded
  next => cases decoded
  next long =>
    split at decoded
    next declared =>
      obtain ⟨nonempty, front, behind⟩ := of_ofParts decoded
      have four : (data.take 4).length = 4 := List.length_take_of_le (by omega)
      have within : Bytes.toNatBE (data.take 4) ≤ (data.drop 4).length := by omega
      have stated : context.wrappedKey.length = Bytes.toNatBE (data.take 4) := by
        rw [← front, List.length_take_of_le within]
      have spelled : Bytes.ofNatBE 4 (Bytes.toNatBE (data.take 4)) = data.take 4 := by
        have canonical := Bytes.ofNatBE_toNatBE (data.take 4)
        rwa [four] at canonical
      refine ⟨nonempty, encode_lengthPrefixed_eq_ok.mpr ⟨?_, ?_⟩⟩
      · rw [stated]
        exact Bytes.toNatBE_lt_of_length four rfl
      · rw [stated, spelled, ← front, ← behind, List.append_assoc, List.take_append_drop,
          List.take_append_drop]
    next => cases decoded

/-- Data reads as a context exactly if it is the written form of that context, which has to
have a wrapped key. -/
theorem decode_eq_ok :
    decode format data = .ok context ↔
      context.wrappedKey ≠ [] ∧ encode format context = .ok data := by
  refine ⟨fun decoded => ?_, fun both => decode_of_encode format both.1 both.2⟩
  cases format with
  | fixed length => exact of_decode_fixed decoded
  | lengthPrefixed => exact of_decode_lengthPrefixed decoded

/-! ## No cut outside the data -/

/-- The context that data is the written form of, read with every cut and every length
checked: nothing if a cut lies outside the data or a length outside a word. -/
def decodeChecked (format : ContextFormat) (data : Bytes) :
    Option (Except ContextError Context) :=
  decode? .trapped format data

theorem Overflow.total?_of_lt {length other : Nat} (fits : length + other < UInt64.size)
    (overflow : Overflow) : overflow.total? length other = some (length + other) :=
  if_pos fits

theorem cut?_eq_take {last : Nat} (inside : last ≤ data.length) :
    cut? data 0 last = some (data.take last) :=
  if_pos ⟨Nat.zero_le last, inside⟩

theorem cut?_eq_drop {first : Nat} (inside : first ≤ data.length) :
    cut? data first data.length = some (data.drop first) := by
  rw [cut?, if_pos ⟨inside, Nat.le_refl _⟩, List.take_length]

theorem excess?_eq {length other : Nat} (enough : other ≤ length) :
    excess? length other = some (length - other) :=
  if_pos enough

/-- The end of the data is the nonce that is left behind the wrapped key. -/
theorem ofEnd_append (wrappedKey front : Bytes) {rest : Bytes} (twelve : rest.length = nonceSize) :
    ofEnd wrappedKey (front ++ rest) = some (ofParts wrappedKey rest) := by
  have start : (front ++ rest).length - nonceSize = front.length := by
    rw [List.length_append, twelve, Nat.add_sub_cancel]
  have room : nonceSize ≤ (front ++ rest).length := by
    rw [List.length_append, twelve]
    exact Nat.le_add_left ..
  have inside : front.length ≤ (front ++ rest).length := by
    rw [List.length_append]
    exact Nat.le_add_right ..
  have read : Nonce.ofBytes? rest = some ⟨rest, twelve⟩ := dif_pos twelve
  unfold ofEnd ofParts
  split
  next => rfl
  next =>
    rw [excess?_eq room, start]
    simp only [Option.bind_eq_bind, Option.bind_some, cut?_eq_drop inside, List.drop_left, read]
    rfl

theorem decode?_fixed (overflow : Overflow) (length : Nat) (data : Bytes) :
    decode? overflow (.fixed length) data =
      (overflow.total? length nonceSize).bind fun expected =>
        if data.length = expected then (cut? data 0 length).bind fun front => ofEnd front data
        else some (.error (.size expected data.length)) :=
  rfl

/-- No cut lies outside the data, whatever the data, and no length outside a word, whatever the
length of a fixed layout, up to the largest that leaves room for the nonce. -/
theorem decode?_eq (overflow : Overflow)
    (word : ∀ length, format = .fixed length → length ≤ UInt64.size - 13) (data : Bytes) :
    decode? overflow format data = some (decode format data) := by
  have twelve : nonceSize = 12 := rfl
  cases format with
  | fixed length =>
    have sum : overflow.total? length nonceSize = some (length + nonceSize) := by
      have bound := word length rfl
      have words : UInt64.size = 2 ^ 64 := rfl
      exact overflow.total?_of_lt (by omega)
    rw [decode?_fixed, sum, Option.bind_some]
    unfold decode
    dsimp only
    split
    next total =>
      have behind : (data.drop length).length = nonceSize := by
        rw [List.length_drop]
        omega
      have ending := ofEnd_append (data.take length) (data.take length) behind
      rw [List.take_append_drop] at ending
      rw [cut?_eq_take (by omega), Option.bind_some, ending]
    next => rfl
  | lengthPrefixed =>
    unfold decode? decode
    dsimp only
    split
    next => rfl
    next long =>
      have rest : (data.drop 4).length = data.length - 4 := List.length_drop
      simp only [cut?_eq_take (show 4 ≤ data.length by omega),
        cut?_eq_drop (show 4 ≤ data.length by omega),
        excess?_eq (show nonceSize ≤ (data.drop 4).length by omega), Option.bind_eq_bind,
        Option.bind_some]
      split
      next declared =>
        have inside : Bytes.toNatBE (data.take 4) ≤ (data.drop 4).length := by omega
        have behind : ((data.drop 4).drop (Bytes.toNatBE (data.take 4))).length = nonceSize := by
          rw [List.length_drop]
          omega
        have ending := ofEnd_append ((data.drop 4).take (Bytes.toNatBE (data.take 4)))
          (data.take 4 ++ (data.drop 4).take (Bytes.toNatBE (data.take 4))) behind
        rw [List.append_assoc, List.take_append_drop, List.take_append_drop] at ending
        rw [cut?_eq_take inside, Option.bind_some, ending]
      next => rfl

theorem decodeChecked_eq (word : ∀ length, format = .fixed length → length ≤ UInt64.size - 13)
    (data : Bytes) : decodeChecked format data = some (decode format data) :=
  decode?_eq .trapped word data

/-! ## Lengths that leave no room for the nonce -/

section

variable {length : Nat} (large : UInt64.size - 13 < length)

include large

theorem size_le_total : UInt64.size ≤ length + nonceSize := by
  have words : UInt64.size = 18446744073709551616 := rfl
  have twelve : nonceSize = 12 := rfl
  omega

theorem Overflow.total?_trapped : trapped.total? length nonceSize = none :=
  if_neg (Nat.not_lt.mpr (size_le_total large))

theorem Overflow.total?_wrapped :
    wrapped.total? length nonceSize = some ((length + nonceSize) % UInt64.size) :=
  if_neg (Nat.not_lt.mpr (size_le_total large))

/-- A sum that lost what does not fit is less than either part. -/
theorem total_mod_lt : (length + nonceSize) % UInt64.size < length := by
  have less := Nat.mod_lt (length + nonceSize) (show 0 < UInt64.size by decide)
  have taken := Nat.mod_eq_sub_mod (size_le_total large)
  have most := Nat.mod_le (length + nonceSize - UInt64.size) UInt64.size
  have words : UInt64.size = 18446744073709551616 := rfl
  have twelve : nonceSize = 12 := rfl
  omega

/-- For data of the length that is left of the sum, the wrapped key is cut outside the data. -/
theorem cut?_eq_none (same : data.length = (length + nonceSize) % UInt64.size) :
    cut? data 0 length = none :=
  if_neg fun inside => Nat.not_lt.mpr inside.2 (same ▸ total_mod_lt large)

/-- Reading stops the program at the sum, or behind it for data of the length that is left. -/
theorem decode?_eq_none_iff {overflow : Overflow} :
    decode? overflow (.fixed length) data = none ↔
      overflow = .trapped ∨ data.length = (length + nonceSize) % UInt64.size := by
  rw [decode?_fixed]
  cases overflow with
  | trapped =>
    rw [Overflow.total?_trapped large]
    exact ⟨fun _ => .inl rfl, fun _ => rfl⟩
  | wrapped =>
    rw [Overflow.total?_wrapped large, Option.bind_some]
    split
    next same =>
      rw [cut?_eq_none large same]
      exact ⟨fun _ => .inr same, fun _ => rfl⟩
    next other =>
      refine ⟨fun stops => (by cases stops), fun either => ?_⟩
      cases either.resolve_right other

/-- All other data is refused. -/
theorem exists_error_of_decode? {overflow : Overflow} {outcome : Except ContextError Context}
    (read : decode? overflow (.fixed length) data = some outcome) :
    ∃ cause, outcome = .error cause := by
  obtain ⟨safe, other⟩ := not_or.mp (mt (decode?_eq_none_iff large).mpr (by rw [read]; nofun))
  rw [decode?_fixed] at read
  cases overflow with
  | trapped => exact absurd rfl safe
  | wrapped =>
    rw [Overflow.total?_wrapped large, Option.bind_some, if_neg other] at read
    exact ⟨_, (Option.some.inj read).symm⟩

end

/-! ## Canonical forms -/

/-- In both layouts data reads as a context exactly if it is the written form of that context
and there is a wrapped key in it.  A context has a written form unless the layout does not take
the length of its wrapped key, all other data is refused, and the data is never cut outside its
bounds. -/
theorem layout_canonical (format : ContextFormat) :
    (∀ data context, decode format data = .ok context ↔
      context.wrappedKey ≠ [] ∧ encode format context = .ok data) ∧
    (∀ context, (∃ cause, encode format context = .error cause) ↔
      ¬ format.Takes context.wrappedKey.length) ∧
    (∀ data, (∀ context, context.wrappedKey ≠ [] → encode format context ≠ .ok data) →
      ∃ cause, decode format data = .error cause) ∧
    ((∀ length, format = .fixed length → length ≤ UInt64.size - 13) →
      ∀ data, decodeChecked format data = some (decode format data)) := by
  refine ⟨fun data context => decode_eq_ok, fun context => ?_, fun data unwritten => ?_,
    decodeChecked_eq⟩
  · rw [← exists_encode_iff]
    cases outcome : encode format context with
    | ok data => exact ⟨nofun, fun none => absurd ⟨data, rfl⟩ none⟩
    | error cause => exact ⟨fun _ written => (by cases written.choose_spec), fun _ => ⟨cause, rfl⟩⟩
  · cases outcome : decode format data with
    | ok context =>
      obtain ⟨nonempty, encoded⟩ := decode_eq_ok.mp outcome
      exact absurd encoded (unwritten context nonempty)
    | error cause => exact ⟨cause, rfl⟩

/-- A wrapped key of one byte in both layouts, and a stated length that is one too long. -/
theorem layout_canonical_one_byte :
    let nonce : Nonce := ⟨List.replicate 12 9, rfl⟩
    let context : Context := ⟨[107], nonce⟩
    decode .lengthPrefixed ([0, 0, 0, 1, 107] ++ nonce.bytes) = .ok context ∧
      (∃ cause, encode (.fixed 2) context = .error cause) ∧
      (∃ cause, decode .lengthPrefixed ([0, 0, 0, 2, 107] ++ nonce.bytes) = .error cause) ∧
      decodeChecked (.fixed 1) ([107] ++ nonce.bytes) = some (.ok context) := by
  intro nonce context
  obtain ⟨reads, -, refuses, -⟩ := layout_canonical .lengthPrefixed
  obtain ⟨-, unwritten, -, -⟩ := layout_canonical (.fixed 2)
  obtain ⟨fixed, -, -, checked⟩ := layout_canonical (.fixed 1)
  have nonempty : context.wrappedKey ≠ [] := by decide
  have prefixed : encode .lengthPrefixed context = .ok ([0, 0, 0, 1, 107] ++ nonce.bytes) :=
    encode_lengthPrefixed_eq_ok.mpr ⟨by decide, by decide +kernel⟩
  refine ⟨(reads _ context).mpr ⟨nonempty, prefixed⟩, (unwritten context).mpr (by decide), ?_, ?_⟩
  · refine refuses _ fun other some_key encoded => ?_
    have read := (reads _ other).mpr ⟨some_key, encoded⟩
    have broken : (decode .lengthPrefixed ([0, 0, 0, 2, 107] ++ nonce.bytes)).toOption = none := by
      decide +kernel
    rw [read] at broken
    cases broken
  · have whole : encode (.fixed 1) context = .ok ([107] ++ nonce.bytes) :=
      encode_fixed_eq_ok.mpr ⟨rfl, rfl⟩
    rw [checked fun length same => by cases same; decide]
    exact congrArg some ((fixed _ context).mpr ⟨nonempty, whole⟩)

end Context

end KeyEnvelope
