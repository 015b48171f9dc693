import Mathlib.Data.List.TakeWhile
import KeyEnvelope.Proofs.Text.Alphabet

/-!
# What is wrong with a text

A text that spells no bytes has one thing wrong with it, and that depends on where its
symbols end and what follows them (`Base64.Faulty`).  Reading reports it, whichever group it is
found in (`Base64.decode_eq_error_iff`).
-/

namespace KeyEnvelope.Base64

variable {text clean rest front group data padding : Bytes} {byte : UInt8} {offset : Nat}
  {defect : Malformed}

/-! ## Texts with something wrong -/

/-- A text is split where its symbols end. -/
structure Splits (text clean rest : Bytes) : Prop where
  whole : text = clean ++ rest
  known : ∀ byte ∈ clean, value? byte ≠ none
  ended : ∀ byte ∈ rest.head?, value? byte = none

/-- Bytes may stand behind so many symbols as padding: in the last two places of a group. -/
structure Pads (count : Nat) (padding : Bytes) : Prop where
  late : 2 ≤ count % 4
  room : count % 4 + padding.length ≤ 4
  pads : ∀ byte ∈ padding, byte = pad

/-- A text has a single byte behind whole groups, and that is neither a symbol nor
padding. -/
structure Stray (text front : Bytes) (byte : UInt8) : Prop where
  whole : text = front ++ [byte]
  single : text.length % 4 = 1
  foreign : value? byte = none
  unpadding : byte ≠ pad

/-- What is wrong with a text that spells no bytes. -/
inductive Faulty (text : Bytes) : Malformed → Prop
  /-- A stray byte behind whole groups, whatever comes before it. -/
  | stray {front : Bytes} {byte : UInt8} (stray : Stray text front byte) :
      Faulty text (.symbol byte front.length)
  /-- The first byte that is no symbol, unless it begins the padding. -/
  | symbol {clean rest : Bytes} {byte : UInt8} (settled : ∀ front byte, ¬ Stray text front byte)
      (splits : Splits text clean (byte :: rest)) (unpadded : ¬ Pads clean.length (byte :: rest)) :
      Faulty text (.symbol byte clean.length)
  /-- A single symbol behind whole groups. -/
  | length (splits : Splits text text []) (single : text.length % 4 = 1) :
      Faulty text (.length text.length)
  /-- A last group that is not full. -/
  | padding {clean padding : Bytes} (splits : Splits text clean padding)
      (pads : Pads clean.length padding) (short : text.length % 4 ≠ 0) : Faulty text .padding
  /-- A last symbol with bits that belong to no byte, two for each byte of padding. -/
  | lastSymbol {front padding : Bytes} {last : UInt8} {value : Nat}
      (splits : Splits text (front ++ [last]) padding) (pads : Pads (front.length + 1) padding)
      (full : text.length % 4 = 0) (read : value? last = some value)
      (spare : ¬ 4 ^ padding.length ∣ value) : Faulty text (.lastSymbol last front.length)

theorem Splits.length_eq (splits : Splits text clean rest) :
    text.length = clean.length + rest.length := by
  rw [splits.whole, List.length_append]

theorem exists_splits (text : Bytes) : ∃ clean rest, Splits text clean rest := by
  refine ⟨text.takeWhile fun byte => value? byte ≠ none,
    text.dropWhile fun byte => value? byte ≠ none, ?_, fun byte member => ?_, fun byte first => ?_⟩
  · exact List.takeWhile_append_dropWhile.symm
  · simpa using List.mem_takeWhile_imp member
  · have stops := List.head?_dropWhile_not (fun byte => decide (value? byte ≠ none)) text
    rw [Option.mem_def.mp first] at stops
    simpa using stops

theorem value?_pad : value? pad = none := rfl

theorem ne_pad_of_value?_ne_none (known : value? byte ≠ none) : byte ≠ pad := by
  rintro rfl
  exact known value?_pad

/-- The values of symbols, and the symbols of the values. -/
theorem exists_map_symbol_eq (known : ∀ byte ∈ clean, value? byte ≠ none) :
    ∃ read : List Nat, (∀ value ∈ read, value < 64) ∧ clean = read.map symbol := by
  induction clean with
  | nil => exact ⟨[], nofun, rfl⟩
  | cons byte clean ih =>
    obtain ⟨first, others⟩ := List.forall_mem_cons.mp known
    obtain ⟨value, valued⟩ := Option.ne_none_iff_exists'.mp first
    obtain ⟨below, spelled⟩ := symbol_of_value? valued
    obtain ⟨read, small, rfl⟩ := ih others
    exact ⟨value :: read, List.forall_mem_cons.mpr ⟨below, small⟩, spelled ▸ rfl⟩

/-- Values that fill their groups spell the text, if it is padded with as many bytes. -/
theorem Splits.exists_encode {read : List Nat} {count : Nat}
    (splits : Splits text (read.map symbol) (List.replicate count pad))
    (small : ∀ value ∈ read, value < 64) (fills : Fills read count) :
    ∃ bytes, text = encode bytes := by
  obtain ⟨bytes, -, encoded⟩ := fills.exists_encode small
  exact ⟨bytes, by rw [encoded, splits.whole]⟩

theorem Splits.spelled_or_faulty_of_pads (splits : Splits text clean rest)
    (pads : Pads clean.length rest) :
    (∃ bytes, text = encode bytes) ∨ ∃ defect, Faulty text defect := by
  obtain ⟨read, small, rfl⟩ := exists_map_symbol_eq splits.known
  have total := splits.length_eq
  have late := pads.late
  have room := pads.room
  by_cases short : text.length % 4 ≠ 0
  · exact .inr ⟨_, .padding splits pads short⟩
  have full := not_not.mp short
  rcases List.eq_nil_or_concat read with rfl | ⟨values, value, rfl⟩
  · cases (show 2 ≤ 0 from late)
  rw [List.concat_eq_append] at *
  by_cases spare : 4 ^ rest.length ∣ value
  · have padded : rest = List.replicate rest.length pad :=
      List.eq_replicate_iff.mpr ⟨rfl, pads.pads⟩
    rw [List.length_map] at total late room
    refine .inl ((padded ▸ splits).exists_encode small
      ⟨by omega, by omega, fun other last => ?_⟩)
    rw [List.getLast?_concat] at last
    cases last
    exact spare
  · have below := small value (List.mem_append_right _ (List.mem_singleton_self value))
    rw [List.map_append, List.map_singleton] at splits pads
    rw [List.length_append, List.length_singleton] at pads
    exact .inr ⟨_, .lastSymbol splits pads full (value?_symbol value below) spare⟩

theorem Splits.spelled_or_faulty_of_symbols (splits : Splits text text [])
    (unpadded : ¬ Pads text.length []) :
    (∃ bytes, text = encode bytes) ∨ ∃ defect, Faulty text defect := by
  by_cases single : text.length % 4 = 1
  · exact .inr ⟨_, .length splits single⟩
  obtain ⟨read, small, spelled⟩ := exists_map_symbol_eq splits.known
  have length : text.length = read.length := by rw [spelled, List.length_map]
  have full : text.length % 4 = 0 := by
    by_contra other
    refine unpadded ⟨by omega, ?_, nofun⟩
    rw [List.length_nil]
    omega
  have splits : Splits text (read.map symbol) (List.replicate 0 pad) := spelled ▸ splits
  refine .inl (splits.exists_encode small ⟨by decide, by omega, fun value _ => ?_⟩)
  exact (Nat.pow_zero 4).symm ▸ Nat.one_dvd value

/-- Every text spells bytes or has something wrong with it. -/
theorem spelled_or_faulty (text : Bytes) :
    (∃ bytes, text = encode bytes) ∨ ∃ defect, Faulty text defect := by
  by_cases strays : ∃ front byte, Stray text front byte
  · obtain ⟨front, byte, stray⟩ := strays
    exact .inr ⟨_, .stray stray⟩
  obtain ⟨clean, rest, splits⟩ := exists_splits text
  by_cases pads : Pads clean.length rest
  · exact splits.spelled_or_faulty_of_pads pads
  cases rest with
  | cons byte rest =>
    have settled : ∀ front byte, ¬ Stray text front byte := fun front byte stray =>
      strays ⟨front, byte, stray⟩
    exact .inr ⟨_, .symbol settled splits pads⟩
  | nil =>
    obtain rfl : text = clean := splits.whole.trans (List.append_nil clean)
    exact splits.spelled_or_faulty_of_symbols pads

/-! ## What reading reports -/

theorem values_append (offset : Nat) (front group : Bytes) :
    values offset (front ++ group) = values offset front >>= fun read =>
      (values (offset + front.length) group).map (read ++ ·) := by
  induction front generalizing offset with
  | nil =>
    change values offset group = (values offset group).map fun read => read
    cases values offset group <;> rfl
  | cons byte front ih =>
    rw [List.cons_append, values, values]
    cases value? byte with
    | none => rfl
    | some value =>
      dsimp only
      rw [ih, List.length_cons, Nat.add_right_comm, Nat.add_assoc]
      cases values (offset + 1) front with
      | error defect => rfl
      | ok read =>
        change Except.map _ (Except.map _ _) = Except.map _ _
        cases values (offset + (front.length + 1)) group <;> rfl

theorem exists_values (known : ∀ byte ∈ clean, value? byte ≠ none) (offset : Nat) :
    ∃ read, values offset clean = .ok read := by
  obtain ⟨read, small, rfl⟩ := exists_map_symbol_eq known
  exact ⟨read, values_map_symbol offset small⟩

theorem values_of_foreign (known : ∀ byte ∈ clean, value? byte ≠ none)
    (foreign : value? byte = none) (offset : Nat) (rest : Bytes) :
    values offset (clean ++ byte :: rest) = .error (.symbol byte (offset + clean.length)) := by
  obtain ⟨read, valued⟩ := exists_values known offset
  rw [values_append, valued, values, foreign]
  rfl

/-! ### Groups -/

/-- A text consists of whole groups and a last one. -/
theorem exists_groups (nonempty : text ≠ []) : ∃ front group, text = front ++ group ∧
    4 ∣ front.length ∧ group ≠ [] ∧ group.length ≤ 4 := by
  have positive := List.length_pos_iff.mpr nonempty
  refine ⟨text.take (4 * ((text.length - 1) / 4)), text.drop (4 * ((text.length - 1) / 4)),
    (List.take_append_drop ..).symm, ?_, ?_, ?_⟩
  · rw [List.length_take_of_le (by omega)]
    exact Nat.dvd_mul_right ..
  · rw [← List.length_pos_iff, List.length_drop]
    omega
  · rw [List.length_drop]
    omega

theorem decodeFrom_of_few (nonempty : group ≠ []) (few : group.length ≤ 4) (offset : Nat) :
    decodeFrom offset group = decodeLast offset group :=
  match group, nonempty, few with
  | [_], _, _ => rfl
  | [_, _], _, _ => rfl
  | [_, _, _], _, _ => rfl
  | [_, _, _, _], _, _ => rfl

theorem decodeFrom_group_append (four : group.length = 4) (more : rest ≠ []) (offset : Nat) :
    decodeFrom offset (group ++ rest) = values offset group >>= fun read =>
      decodeFrom (offset + 4) rest >>= fun bytes => .ok (Bytes.ofNatBE 3 (toNat read) ++ bytes) :=
  match group, rest, four, more with
  | [_, _, _, _], _ :: _, _, _ => rfl

/-- What is wrong with whole groups is found before the last one is looked at. -/
theorem decodeFrom_of_front (whole : 4 ∣ front.length) (nonempty : group ≠ [])
    (invalid : values offset front = .error defect) :
    decodeFrom offset (front ++ group) = .error defect := by
  obtain ⟨count, length⟩ := whole
  induction count generalizing offset front with
  | zero =>
    rw [List.eq_nil_of_length_eq_zero length] at invalid
    cases invalid
  | succ count ih =>
    have four : (front.take 4).length = 4 := List.length_take_of_le (by omega)
    have length' : (front.drop 4).length = 4 * count := by
      rw [List.length_drop]
      omega
    rw [← List.take_append_drop 4 front, values_append, four] at invalid
    rw [← List.take_append_drop 4 front, List.append_assoc,
      decodeFrom_group_append four (List.append_ne_nil_of_right_ne_nil _ nonempty)]
    refine Outcome.bind_eq_error.mpr ?_
    obtain first | ⟨read, first, later⟩ := Outcome.bind_eq_error.mp invalid
    · exact .inl first
    · refine .inr ⟨read, first, Outcome.bind_eq_error.mpr (.inl (ih ?_ length'))⟩
      cases others : values (offset + 4) (front.drop 4) with
      | ok _ =>
        rw [others] at later
        cases later
      | error _ =>
        rw [others] at later
        cases later
        rfl

/-- Behind whole groups of symbols, the last group decides. -/
theorem decodeFrom_of_group (whole : 4 ∣ front.length)
    (known : ∀ byte ∈ front, value? byte ≠ none) (nonempty : group ≠ [])
    (few : group.length ≤ 4) (failed : decodeLast (offset + front.length) group = .error defect) :
    decodeFrom offset (front ++ group) = .error defect := by
  obtain ⟨count, length⟩ := whole
  induction count generalizing offset front with
  | zero =>
    rw [List.eq_nil_of_length_eq_zero length] at failed ⊢
    rw [List.nil_append, decodeFrom_of_few nonempty few]
    exact failed
  | succ count ih =>
    have four : (front.take 4).length = 4 := List.length_take_of_le (by omega)
    have length' : (front.drop 4).length = 4 * count := by
      rw [List.length_drop]
      omega
    obtain ⟨read, valued⟩ :=
      exists_values (fun byte member => known byte (List.mem_of_mem_take member)) offset
    have place : offset + front.length = offset + 4 + (front.drop 4).length := by
      rw [length']
      omega
    rw [place] at failed
    rw [← List.take_append_drop 4 front, List.append_assoc,
      decodeFrom_group_append four (List.append_ne_nil_of_right_ne_nil _ nonempty), valued]
    change decodeFrom (offset + 4) (front.drop 4 ++ group) >>= _ = _
    rw [ih (fun byte member => known byte (List.mem_of_mem_drop member)) failed length']
    rfl

/-- A last group of symbols with padding, or what begins like it. -/
theorem decodeLast_append {read : List Nat} (valued : values offset data = .ok read)
    (begun : ∀ byte ∈ padding.head?, byte = pad) :
    decodeLast offset (data ++ padding) =
      if padding ≠ [] ∧ (data.length < 2 ∨ padding.any (· ≠ pad)) then
        .error (.symbol pad (offset + data.length))
      else if data.length < 2 then .error (.length (offset + data.length))
      else if (data ++ padding).length ≠ 4 then .error .padding
      else if toNat read % Nat.pow 2 (2 * (4 - data.length)) ≠ 0 then
        .error (.lastSymbol (data.getLastD 0) (offset + data.length - 1))
      else .ok (Bytes.ofNatBE (data.length - 1)
        (toNat read / Nat.pow 2 (2 * (4 - data.length)))) := by
  obtain ⟨small, spelled⟩ := values_eq_ok.mp valued
  have unpadding : ∀ byte ∈ data, decide (byte ≠ pad) = true := by
    intro byte member
    rw [spelled] at member
    obtain ⟨value, among, rfl⟩ := List.mem_map.mp member
    exact decide_eq_true (symbol_ne_pad value (small value among))
  have ends : padding.takeWhile (fun byte => decide (byte ≠ pad)) = [] ∧
      padding.dropWhile (fun byte => decide (byte ≠ pad)) = padding := by
    cases padding with
    | nil => exact ⟨rfl, rfl⟩
    | cons byte padding =>
      have pads : ¬ decide (byte ≠ pad) = true := by simpa using begun byte rfl
      exact ⟨List.takeWhile_cons_of_neg pads, List.dropWhile_cons_of_neg pads⟩
  unfold decodeLast
  rw [List.takeWhile_append_of_pos unpadding, List.dropWhile_append_of_pos unpadding, ends.1,
    ends.2, List.append_nil]
  dsimp only
  rw [valued]
  rfl

theorem decodeLast_of_pads {read : List Nat} (small : ∀ value ∈ read, value < 64)
    (least : 2 ≤ read.length) (pads : ∀ byte ∈ padding, byte = pad) (offset : Nat) :
    decodeLast offset (read.map symbol ++ padding) =
      if read.length + padding.length ≠ 4 then .error .padding
      else if toNat read % Nat.pow 2 (2 * (4 - read.length)) ≠ 0 then
        .error (.lastSymbol ((read.map symbol).getLastD 0) (offset + read.length - 1))
      else .ok (Bytes.ofNatBE (read.length - 1)
        (toNat read / Nat.pow 2 (2 * (4 - read.length)))) := by
  have begun : ∀ byte ∈ padding.head?, byte = pad := fun byte first =>
    pads byte (List.mem_of_mem_head? first)
  have filled : ¬ (padding.any fun byte => decide (byte ≠ pad)) = true := by
    intro stray
    obtain ⟨byte, member, other⟩ := List.any_eq_true.mp stray
    exact of_decide_eq_true other (pads byte member)
  rw [decodeLast_append (values_map_symbol offset small) begun, List.length_append,
    List.length_map, if_neg (fun both => both.2.elim (by omega) filled), if_neg (by omega)]

theorem decodeLast_of_foreign (known : ∀ byte ∈ data, value? byte ≠ none)
    (foreign : value? byte = none) (unpadding : byte ≠ pad) (offset : Nat) (rest : Bytes) :
    decodeLast offset (data ++ byte :: rest) = .error (.symbol byte (offset + data.length)) := by
  have symbols : ∀ byte ∈ data, decide (byte ≠ pad) = true := fun byte member =>
    decide_eq_true (ne_pad_of_value?_ne_none (known byte member))
  have taken : (data ++ byte :: rest).takeWhile (fun byte => decide (byte ≠ pad)) =
      data ++ byte :: rest.takeWhile (fun byte => decide (byte ≠ pad)) := by
    rw [List.takeWhile_append_of_pos symbols, List.takeWhile_cons,
      if_pos (decide_eq_true unpadding)]
  unfold decodeLast
  rw [taken]
  dsimp only
  rw [values_of_foreign known foreign]
  rfl

/-! ### Whole texts -/

theorem decode_of_stray (stray : Stray text front byte) :
    decode text = .error (.symbol byte front.length) := by
  have last : text.getLast? = some byte := by rw [stray.whole, List.getLast?_concat]
  have place : text.length - 1 = front.length := by
    rw [stray.whole, List.length_append, List.length_singleton, Nat.add_sub_cancel]
  unfold decode
  rw [last]
  dsimp only
  rw [if_pos ⟨stray.single, stray.unpadding, stray.foreign⟩, place]

theorem decode_of_settled (settled : ∀ front byte, ¬ Stray text front byte) :
    decode text = decodeFrom 0 text := by
  unfold decode
  split
  next ended =>
    rw [List.getLast?_eq_none_iff.mp ended]
    rfl
  next last ending =>
    refine if_neg fun stray => ?_
    obtain ⟨nonempty, rfl⟩ := List.mem_getLast?_eq_getLast ending
    exact settled _ _
      ⟨(List.dropLast_append_getLast nonempty).symm, stray.1, stray.2.2, stray.2.1⟩

theorem Splits.settled (splits : Splits text clean rest) (pads : Pads clean.length rest)
    (front : Bytes) (byte : UInt8) : ¬ Stray text front byte := by
  intro stray
  have single := stray.single
  have late := pads.late
  have room := pads.room
  have total := splits.length_eq
  omega

/-- Symbols behind whole groups are decided on with what follows them, if that has room in
their group. -/
theorem Splits.exists_last (splits : Splits text clean rest) (part : clean.length % 4 ≠ 0)
    (room : clean.length % 4 + rest.length ≤ 4) : ∃ (front : Bytes) (read : List Nat),
      clean = front ++ read.map symbol ∧ (∀ value ∈ read, value < 64) ∧
      clean.length = front.length + read.length ∧ read.length = clean.length % 4 ∧ ∀ defect,
        decodeLast front.length (read.map symbol ++ rest) = .error defect →
          decodeFrom 0 text = .error defect := by
  obtain ⟨whole, known, -⟩ := splits
  rw [← List.take_append_drop (clean.length - clean.length % 4) clean] at whole known
  obtain ⟨known_front, known_data⟩ := List.forall_mem_append.mp known
  obtain ⟨read, small, spelled⟩ := exists_map_symbol_eq known_data
  have front : (clean.take (clean.length - clean.length % 4)).length =
      clean.length - clean.length % 4 := List.length_take_of_le (Nat.sub_le ..)
  have length : read.length = clean.length % 4 := by
    have dropped := congrArg List.length spelled
    rw [List.length_drop, List.length_map] at dropped
    omega
  refine ⟨clean.take (clean.length - clean.length % 4), read, ?_, small, ?_, length,
    fun defect failed => ?_⟩
  · rw [← spelled, List.take_append_drop]
  · omega
  · rw [whole, List.append_assoc, spelled]
    refine decodeFrom_of_group ?_ known_front ?_ ?_ (by rwa [Nat.zero_add])
    · omega
    · rw [← List.length_pos_iff, List.length_append, List.length_map]
      omega
    · rw [List.length_append, List.length_map]
      omega

theorem decodeFrom_of_symbol (splits : Splits text clean (byte :: rest))
    (unpadded : ¬ Pads clean.length (byte :: rest)) :
    decodeFrom 0 text = .error (.symbol byte clean.length) := by
  have nonempty : text ≠ [] := splits.whole ▸ List.append_ne_nil_of_right_ne_nil _ nofun
  have foreign : value? byte = none := splits.ended byte rfl
  obtain ⟨front, group, whole, fours, some, few⟩ := exists_groups nonempty
  have place : (∃ more, front = clean ++ byte :: more) ∨
      ∃ data, clean = front ++ data ∧ group = data ++ byte :: rest := by
    obtain ⟨_ | ⟨first, more⟩, rfl, split⟩ | ⟨data, same, split⟩ :=
      List.append_eq_append_iff.mp (splits.whole.symm.trans whole)
    · exact .inr ⟨[], by simp, split.symm⟩
    · cases split
      exact .inl ⟨more, rfl⟩
    · exact .inr ⟨data, same, split⟩
  rw [whole]
  obtain ⟨more, rfl⟩ | ⟨data, rfl, rfl⟩ := place
  · refine decodeFrom_of_front fours some ?_
    rw [values_of_foreign splits.known foreign, Nat.zero_add]
  · obtain ⟨known_front, known⟩ := List.forall_mem_append.mp splits.known
    refine decodeFrom_of_group fours known_front some few ?_
    rw [Nat.zero_add, List.length_append]
    by_cases padded : byte = pad
    · subst padded
      obtain ⟨read, valued⟩ := exists_values known front.length
      rw [decodeLast_append valued (fun byte first => (Option.mem_some.mp first).symm)]
      refine if_pos ⟨List.cons_ne_nil _ _, ?_⟩
      by_contra fine
      obtain ⟨enough, pads⟩ := not_or.mp fine
      rw [List.length_append, List.length_cons] at few
      refine unpadded ⟨?_, ?_, fun byte member => ?_⟩
      · rw [List.length_append]
        omega
      · rw [List.length_append, List.length_cons]
        omega
      · by_contra other
        exact pads (List.any_eq_true.mpr ⟨byte, member, decide_eq_true other⟩)
    · exact decodeLast_of_foreign known foreign padded front.length rest

/-- A single symbol behind whole groups is short of what spells a byte. -/
theorem decode_of_single (splits : Splits text text []) (single : text.length % 4 = 1) :
    decode text = .error (.length text.length) := by
  have settled : ∀ front byte, ¬ Stray text front byte := by
    intro front byte stray
    refine splits.known byte ?_ stray.foreign
    rw [stray.whole]
    exact List.mem_append_right front (List.mem_singleton_self byte)
  obtain ⟨front, read, -, small, place, count, decides⟩ :=
    splits.exists_last (by omega) (by rw [List.length_nil]; omega)
  rw [decode_of_settled settled]
  refine decides _ ?_
  rw [decodeLast_append (values_map_symbol front.length small) (by simp),
    if_neg (fun both => both.1 rfl), List.length_map, if_pos (by omega), place]

theorem decode_of_short (splits : Splits text clean padding) (pads : Pads clean.length padding)
    (short : text.length % 4 ≠ 0) : decode text = .error .padding := by
  have late := pads.late
  have total := splits.length_eq
  obtain ⟨front, read, -, small, place, count, decides⟩ :=
    splits.exists_last (by omega) pads.room
  rw [decode_of_settled (splits.settled pads)]
  refine decides _ ?_
  rw [decodeLast_of_pads small (by omega) pads.pads]
  exact if_pos (by omega)

theorem decode_of_spare {last : UInt8} {value : Nat}
    (splits : Splits text (front ++ [last]) padding) (pads : Pads (front.length + 1) padding)
    (full : text.length % 4 = 0) (valued : value? last = some value)
    (spare : ¬ 4 ^ padding.length ∣ value) :
    decode text = .error (.lastSymbol last front.length) := by
  have length : (front ++ [last]).length = front.length + 1 := List.length_append
  rw [← length] at pads
  have late := pads.late
  have room := pads.room
  have total := splits.length_eq
  obtain ⟨groups, read, same, small, place, count, decides⟩ := splits.exists_last (by omega) room
  have fills : padding.length = 4 - read.length := by omega
  rw [decode_of_settled (splits.settled pads)]
  refine decides _ ?_
  rw [decodeLast_of_pads small (by omega) pads.pads, if_neg (by omega), ← fills]
  rcases List.eq_nil_or_concat read with rfl | ⟨values, other, rfl⟩
  · rw [List.length_nil] at count
    omega
  rw [List.concat_eq_append] at *
  rw [List.map_append, List.map_singleton, ← List.append_assoc] at same
  obtain ⟨rfl, ends⟩ := List.append_inj' same rfl
  cases List.singleton_inj.mp ends
  rw [value?_symbol other (small other (by simp))] at valued
  cases valued
  rw [if_pos (mt (toNat_concat_mod_eq_zero_iff (by omega)).mp spare)]
  simp

/-- What is wrong with a text is reported. -/
theorem decode_of_faulty (faulty : Faulty text defect) : decode text = .error defect := by
  cases faulty with
  | stray stray => exact decode_of_stray stray
  | symbol settled splits unpadded =>
    rw [decode_of_settled settled]
    exact decodeFrom_of_symbol splits unpadded
  | length splits single => exact decode_of_single splits single
  | padding splits pads short => exact decode_of_short splits pads short
  | lastSymbol splits pads full valued spare => exact decode_of_spare splits pads full valued spare

/-- Reading reports exactly what is wrong with a text. -/
theorem decode_eq_error_iff : decode text = .error defect ↔ Faulty text defect := by
  refine ⟨fun failed => ?_, decode_of_faulty⟩
  obtain ⟨bytes, rfl⟩ | ⟨found, faulty⟩ := spelled_or_faulty text
  · cases failed.symm.trans (decode_encode bytes)
  · cases failed.symm.trans (decode_of_faulty faulty)
    exact faulty

theorem Faulty.unique {other : Malformed} (faulty : Faulty text defect)
    (faulty' : Faulty text other) : defect = other := by
  cases (decode_of_faulty faulty).symm.trans (decode_of_faulty faulty')
  rfl

theorem Faulty.decode_ne_ok (faulty : Faulty text defect) (bytes : Bytes) :
    decode text ≠ .ok bytes := by
  rw [decode_of_faulty faulty]
  nofun

end KeyEnvelope.Base64
