import KeyEnvelope.Proofs.Outcome
import KeyEnvelope.Proofs.Text.Base64

/-!
# The base64 texts that are read

A base64 text that is read is the text of what it is read as (`decode_eq_ok_iff`), so there
is one text for each byte string.  Symbols spell one value each, a group of four spells its
three bytes and no others, and of a last group neither a spare bit nor a place is left
open.
-/

namespace KeyEnvelope

theorem Utf8.encode_inj {text other : String} : encode text = encode other ↔ text = other := by
  refine ⟨fun same => ?_, congrArg encode⟩
  have read := decode_encode text
  rw [same, decode_encode] at read
  exact (Except.ok.inj read).symm

namespace Base64

/-! ## Symbols -/

theorem symbol_of_value?_ofNat :
    ∀ n < 256, ∀ value ∈ value? (UInt8.ofNat n), value < 64 ∧ symbol value = UInt8.ofNat n := by
  decide +kernel

theorem symbol_of_value? {byte : UInt8} {value : Nat} (read : value? byte = some value) :
    value < 64 ∧ symbol value = byte := by
  rw [← UInt8.ofNat_toNat (x := byte)] at read ⊢
  exact symbol_of_value?_ofNat byte.toNat byte.toNat_lt value read

/-- The values of a text are those whose symbols it consists of. -/
theorem values_eq_ok {offset : Nat} {text : Bytes} {read : List Nat} :
    values offset text = .ok read ↔ (∀ value ∈ read, value < 64) ∧ text = read.map symbol := by
  refine ⟨fun valued => ?_, fun spelled => spelled.2 ▸ values_map_symbol offset spelled.1⟩
  induction text generalizing offset read with
  | nil =>
    cases valued
    exact ⟨nofun, rfl⟩
  | cons byte text ih =>
    rw [values] at valued
    cases first : value? byte with
    | none =>
      rw [first] at valued
      cases valued
    | some value =>
      rw [first] at valued
      cases rest : values (offset + 1) text with
      | error defect =>
        rw [rest] at valued
        cases valued
      | ok others =>
        rw [rest] at valued
        cases valued
        obtain ⟨small, spelled⟩ := symbol_of_value? first
        obtain ⟨others_small, others_spelled⟩ := ih rest
        rw [List.map_cons, spelled, ← others_spelled]
        exact ⟨List.forall_mem_cons.mpr ⟨small, others_small⟩, rfl⟩

/-! ## Numbers -/

variable {read : List Nat}

theorem foldl_div (small : ∀ value ∈ read, value < 64) (before : Nat) :
    read.foldl (fun n value => n * 64 + value) before / Nat.pow 64 read.length = before := by
  induction read generalizing before with
  | nil => exact Nat.div_one before
  | cons value read ih =>
    have first := small value List.mem_cons_self
    have scale : Nat.pow 64 (read.length + 1) = Nat.pow 64 read.length * 64 := rfl
    rw [List.foldl_cons, List.length_cons, scale, ← Nat.div_div_eq_div_mul,
      ih fun other member => small other (List.mem_cons_of_mem _ member)]
    omega

theorem digits_foldl (small : ∀ value ∈ read, value < 64) (before : Nat) :
    digits read.length (read.foldl (fun n value => n * 64 + value) before) = read := by
  induction read generalizing before with
  | nil => rfl
  | cons value read ih =>
    have first := small value List.mem_cons_self
    have others : ∀ other ∈ read, other < 64 := fun other member =>
      small other (List.mem_cons_of_mem _ member)
    rw [List.foldl_cons, List.length_cons, digits, foldl_div others, ih others]
    exact congrArg (· :: read) (by omega)

/-- Values are the digits of the number that they spell, so their symbols are its. -/
theorem symbols_toNat (small : ∀ value ∈ read, value < 64) :
    symbols read.length (toNat read) = read.map symbol := by
  rw [symbols_eq_map, toNat, digits_foldl small]

theorem toNat_lt (small : ∀ value ∈ read, value < 64) : toNat read < Nat.pow 64 read.length := by
  have high := foldl_div small 0
  exact (Nat.div_eq_zero_iff_lt (Nat.pow_pos (by decide))).mp high

/-! ## Groups -/

/-- Three bytes in front of others are spelled by four symbols in front of theirs. -/
theorem encode_group {n : Nat} (fits : n < Nat.pow 256 3) (rest : Bytes) :
    encode (Bytes.ofNatBE 3 n ++ rest) = symbols 4 n ++ encode rest := by
  have whole := Bytes.toNatBE_ofNatBE_of_lt fits
  simp only [Bytes.ofNatBE] at whole
  simp only [Bytes.ofNatBE, List.cons_append, List.nil_append, encode]
  rw [whole]

/-- A last group of less than three bytes is spelled with spare bits of zero, and padding. -/
theorem encode_last {count n : Nat} (least : 2 ≤ count) (most : count ≤ 4)
    (fits : n < Nat.pow 256 (count - 1)) :
    encode (Bytes.ofNatBE (count - 1) n) =
      symbols count (n * Nat.pow 2 (2 * (4 - count))) ++ List.replicate (4 - count) pad := by
  have whole := Bytes.toNatBE_ofNatBE_of_lt fits
  obtain rfl | rfl | rfl : count = 2 ∨ count = 3 ∨ count = 4 := by omega
  · simp only [Bytes.ofNatBE] at whole
    simp only [Bytes.ofNatBE, encode]
    rw [whole]
    rfl
  · simp only [Bytes.ofNatBE] at whole
    simp only [Bytes.ofNatBE, encode]
    rw [whole]
    rfl
  · have group := encode_group fits []
    rw [List.append_nil] at group
    rw [group]
    simp [encode]

/-- What a last group that is read consists of: symbols, then padding, four bytes in all,
and no bit to spare. -/
theorem of_decodeLast {offset : Nat} {group bytes : Bytes}
    (decoded : decodeLast offset group = .ok bytes) :
    ∃ data padding read, group = data ++ padding ∧ values offset data = .ok read ∧
      (∀ byte ∈ padding, byte = pad) ∧ 2 ≤ data.length ∧ group.length = 4 ∧
      toNat read % Nat.pow 2 (2 * (4 - data.length)) = 0 ∧
      bytes =
        Bytes.ofNatBE (data.length - 1) (toNat read / Nat.pow 2 (2 * (4 - data.length))) := by
  unfold decodeLast at decoded
  have parts : group = group.takeWhile (· ≠ pad) ++ group.dropWhile (· ≠ pad) :=
    List.takeWhile_append_dropWhile.symm
  generalize group.takeWhile (· ≠ pad) = data at parts decoded
  generalize group.dropWhile (· ≠ pad) = padding at parts decoded
  obtain ⟨read, valued, decoded⟩ := Outcome.bind_eq_ok.mp decoded
  obtain ⟨unpadded, decoded⟩ := Outcome.check_eq_ok.mp decoded
  obtain ⟨enough, decoded⟩ := Outcome.check_eq_ok.mp decoded
  obtain ⟨full, decoded⟩ := Outcome.check_eq_ok.mp decoded
  obtain ⟨aligned, decoded⟩ := Outcome.check_eq_ok.mp decoded
  refine ⟨data, padding, read, parts, valued, fun byte member => ?_, by omega, by omega,
    not_not.mp aligned, (Except.ok.inj decoded).symm⟩
  by_contra stray
  refine unpadded ⟨List.ne_nil_of_mem member, .inr ?_⟩
  exact List.any_eq_true.mpr ⟨byte, member, decide_eq_true stray⟩

/-- The digits of a last group have room for its bytes and the spare bits. -/
theorem pow_eq_spare_mul {count : Nat} (least : 2 ≤ count) (most : count ≤ 4) :
    Nat.pow 64 count = Nat.pow 2 (2 * (4 - count)) * Nat.pow 256 (count - 1) := by
  obtain rfl | rfl | rfl : count = 2 ∨ count = 3 ∨ count = 4 := by omega
  all_goals rfl

/-- Values that leave no spare bit set spell the last bytes of a text. -/
theorem encode_last_toNat (small : ∀ value ∈ read, value < 64) (least : 2 ≤ read.length)
    (most : read.length ≤ 4) (aligned : toNat read % Nat.pow 2 (2 * (4 - read.length)) = 0) :
    encode (Bytes.ofNatBE (read.length - 1) (toNat read / Nat.pow 2 (2 * (4 - read.length)))) =
      read.map symbol ++ List.replicate (4 - read.length) pad := by
  have below := toNat_lt small
  rw [pow_eq_spare_mul least most] at below
  -- The spare bits are zero, so what the digits spell is the number of the bytes, moved up.
  rw [encode_last least most (Nat.div_lt_of_lt_mul below),
    Nat.div_mul_cancel (Nat.dvd_of_mod_eq_zero aligned), symbols_toNat small]

theorem encode_of_decodeLast {offset : Nat} {group bytes : Bytes}
    (decoded : decodeLast offset group = .ok bytes) : encode bytes = group := by
  obtain ⟨data, padding, read, rfl, valued, filled, least, full, aligned, rfl⟩ :=
    of_decodeLast decoded
  obtain ⟨small, rfl⟩ := values_eq_ok.mp valued
  rw [List.length_append] at full
  rw [List.length_map] at least full aligned ⊢
  have most : read.length ≤ 4 := by omega
  have padded : padding = List.replicate (4 - read.length) pad :=
    List.eq_replicate_iff.mpr ⟨by omega, filled⟩
  rw [encode_last_toNat small least most aligned, padded]

theorem encode_of_decodeFrom {offset : Nat} {text bytes : Bytes}
    (decoded : decodeFrom offset text = .ok bytes) : encode bytes = text := by
  fun_induction decodeFrom offset text generalizing bytes with
  | case1 => cases decoded; rfl
  | case2 offset a b c d e rest ih =>
    obtain ⟨read, valued, decoded⟩ := Outcome.bind_eq_ok.mp decoded
    obtain ⟨others, later, decoded⟩ := Outcome.bind_eq_ok.mp decoded
    cases decoded
    obtain ⟨small, spelled⟩ := values_eq_ok.mp valued
    have four : read.length = 4 := by
      rw [← List.length_map, ← spelled]
      rfl
    have below := toNat_lt small
    have symbols := symbols_toNat small
    rw [four] at below symbols
    rw [encode_group below, symbols, ← spelled, ih later]
    rfl
  | case3 offset group => exact encode_of_decodeLast decoded

/-- A text is read as a byte string exactly if it is the text of that byte string. -/
theorem decode_eq_ok_iff {text bytes : Bytes} : decode text = .ok bytes ↔ text = encode bytes := by
  refine ⟨fun decoded => ?_, fun spelled => spelled ▸ decode_encode bytes⟩
  unfold decode at decoded
  split at decoded
  next ended =>
    cases decoded
    exact List.getLast?_eq_none_iff.mp ended
  next last _ =>
    split at decoded
    · cases decoded
    · exact (encode_of_decodeFrom decoded).symm

/-- A string is read as a byte string exactly if it is the text of that byte string. -/
theorem decode_encode_eq_ok_iff {text : String} {bytes : Bytes} :
    decode (Utf8.encode text) = .ok bytes ↔ text = encodeText bytes := by
  rw [decode_eq_ok_iff, ← encode_encodeText, Utf8.encode_inj]

end Base64

end KeyEnvelope
