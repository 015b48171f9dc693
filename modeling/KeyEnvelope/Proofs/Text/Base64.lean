import KeyEnvelope.Text.Base64
import KeyEnvelope.Text.Utf8
import KeyEnvelope.Proofs.Bytes

/-!
# Base64 texts of byte strings

The text of a byte string reads back as that byte string (`decode_encode`).  Its
symbols are ASCII characters, so it does not matter whether the text is held as bytes
or as a string (`encode_encodeText`).
-/

namespace KeyEnvelope.Base64

/-! ## Symbols -/

theorem value?_symbol : ∀ value < 64, value? (symbol value) = some value := by
  decide

theorem symbol_ne_pad : ∀ value < 64, symbol value ≠ pad := by
  decide

theorem symbol_lt : ∀ value < 64, symbol value < 128 := by
  decide

/-- The six-bit digits of a number, the highest digit first. -/
def digits : (count : Nat) → (n : Nat) → List Nat
  | 0, _ => []
  | count + 1, n => n / Nat.pow 64 count % 64 :: digits count n

theorem symbols_eq_map (count n : Nat) : symbols count n = (digits count n).map symbol := by
  induction count with
  | zero => rfl
  | succ count ih => rw [symbols, digits, List.map_cons, ih]

@[simp] theorem length_digits (count n : Nat) : (digits count n).length = count := by
  induction count with
  | zero => rfl
  | succ count ih => rw [digits, List.length_cons, ih]

@[simp] theorem length_symbols (count n : Nat) : (symbols count n).length = count := by
  rw [symbols_eq_map, List.length_map, length_digits]

theorem lt_of_mem_digits {count n digit : Nat} (member : digit ∈ digits count n) : digit < 64 := by
  induction count with
  | zero => cases member
  | succ count ih =>
    rcases List.mem_cons.mp member with rfl | member
    · exact Nat.mod_lt _ (by decide)
    · exact ih member

theorem ne_pad_of_mem_symbols {count n : Nat} {byte : UInt8} (member : byte ∈ symbols count n) :
    byte ≠ pad := by
  rw [symbols_eq_map] at member
  rcases List.mem_map.mp member with ⟨digit, digit_mem, rfl⟩
  exact symbol_ne_pad digit (lt_of_mem_digits digit_mem)

theorem foldl_digits (count n read : Nat) :
    (digits count n).foldl (fun n value => n * 64 + value) read =
      read * Nat.pow 64 count + n % Nat.pow 64 count := by
  induction count generalizing read with
  | zero => simp [digits, Nat.mod_one]
  | succ count ih =>
    have split : n % Nat.pow 64 (count + 1) =
        n % Nat.pow 64 count + Nat.pow 64 count * (n / Nat.pow 64 count % 64) :=
      Nat.mod_pow_succ
    have scale : Nat.pow 64 (count + 1) = Nat.pow 64 count * 64 := rfl
    rw [digits, List.foldl_cons, ih, split, scale, Nat.add_mul, Nat.mul_assoc,
      Nat.mul_comm 64, Nat.mul_comm (n / Nat.pow 64 count % 64), Nat.add_assoc,
      Nat.add_comm (n % Nat.pow 64 count)]

theorem toNat_digits_of_lt {count n : Nat} (fits : n < Nat.pow 64 count) :
    toNat (digits count n) = n := by
  rw [toNat, foldl_digits, Nat.zero_mul, Nat.zero_add, Nat.mod_eq_of_lt fits]

theorem values_map_symbol (offset : Nat) {values : List Nat} (small : ∀ v ∈ values, v < 64) :
    Base64.values offset (values.map symbol) = .ok values := by
  induction values generalizing offset with
  | nil => rfl
  | cons value values ih =>
    have rest := ih (offset + 1) fun v member => small v (List.mem_cons_of_mem _ member)
    rw [List.map_cons, Base64.values, value?_symbol value (small value (List.mem_cons_self ..))]
    dsimp only
    rw [rest]
    rfl

theorem values_symbols (offset count n : Nat) :
    values offset (symbols count n) = .ok (digits count n) := by
  rw [symbols_eq_map]
  exact values_map_symbol offset fun _ member => lt_of_mem_digits member

/-! ## Groups -/

theorem takeWhile_symbols (count n padding : Nat) :
    (symbols count n ++ List.replicate padding pad).takeWhile (· ≠ pad) = symbols count n := by
  rw [List.takeWhile_append_of_pos fun byte member => by
    simpa using ne_pad_of_mem_symbols member]
  cases padding <;> simp [List.replicate_succ]

theorem dropWhile_symbols (count n padding : Nat) :
    (symbols count n ++ List.replicate padding pad).dropWhile (· ≠ pad) =
      List.replicate padding pad := by
  rw [List.dropWhile_append_of_pos fun byte member => by
    simpa using ne_pad_of_mem_symbols member]
  cases padding <;> simp [List.replicate_succ]

/-- A last group of symbols filled up with padding, none of whose digits has a bit that
belongs to no byte. -/
theorem decodeLast_symbols (offset : Nat) {count n : Nat} (least : 2 ≤ count) (most : count ≤ 4)
    (fits : n < Nat.pow 64 count) (aligned : n % Nat.pow 2 (2 * (4 - count)) = 0) :
    decodeLast offset (symbols count n ++ List.replicate (4 - count) pad) =
      .ok (Bytes.ofNatBE (count - 1) (n / Nat.pow 2 (2 * (4 - count)))) := by
  have no_stray : (List.replicate (4 - count) pad).any (· ≠ pad) = false := by simp
  have full : (symbols count n ++ List.replicate (4 - count) pad).length = 4 := by
    rw [List.length_append, length_symbols, List.length_replicate]
    omega
  unfold decodeLast
  simp only [takeWhile_symbols, dropWhile_symbols, values_symbols, length_symbols, full, no_stray]
  have enough : ¬ count < 2 := by omega
  rw [Nat.pow_eq] at aligned
  simp [bind, Except.bind, pure, Except.pure, enough, toNat_digits_of_lt fits, aligned]

theorem decodeFrom_encode (offset : Nat) (bytes : Bytes) :
    decodeFrom offset (encode bytes) = .ok bytes := by
  fun_induction encode bytes generalizing offset with
  | case1 a b c rest ih =>
    have fits : Bytes.toNatBE [a, b, c] < Nat.pow 64 4 :=
      Bytes.toNatBE_lt_of_length (rfl : _ = 3) (by decide)
    have group : Bytes.ofNatBE 3 (Bytes.toNatBE [a, b, c]) = [a, b, c] :=
      Bytes.ofNatBE_toNatBE [a, b, c]
    generalize Bytes.toNatBE [a, b, c] = n at fits group ⊢
    cases after : encode rest with
    | nil =>
      have nothing : rest = [] := by
        have decoded := ih 0
        rw [after] at decoded
        exact (Except.ok.inj decoded).symm
      have last := decodeLast_symbols offset (by decide) (Nat.le_refl 4) fits (Nat.mod_one n)
      rw [show Nat.pow 2 (2 * (4 - 4)) = 1 from rfl, Nat.div_one, group] at last
      rw [nothing]
      exact last
    | cons e more =>
      have decoded := ih (offset + 4)
      rw [after] at decoded
      have first := values_symbols offset 4 n
      simp only [symbols] at first
      simp only [symbols, List.cons_append, List.nil_append, decodeFrom, first, decoded]
      change Except.ok (Bytes.ofNatBE 3 (toNat (digits 4 n)) ++ rest) = _
      rw [toNat_digits_of_lt fits, group]
      rfl
  | case2 a b =>
    have fits : Bytes.toNatBE [a, b] < 65536 :=
      Bytes.toNatBE_lt_of_length (rfl : _ = 2) (by decide)
    have group : Bytes.ofNatBE 2 (Bytes.toNatBE [a, b]) = [a, b] := Bytes.ofNatBE_toNatBE [a, b]
    generalize Bytes.toNatBE [a, b] = n at fits group ⊢
    have last := decodeLast_symbols offset (by decide : 2 ≤ 3) (by decide)
      (by change n * 4 < 262144; omega) (Nat.mul_mod_left n 4)
    rw [show Nat.pow 2 (2 * (4 - 3)) = 4 from rfl, Nat.mul_div_cancel n (by decide)] at last
    exact last.trans (congrArg _ group)
  | case3 a =>
    have fits : Bytes.toNatBE [a] < 256 :=
      Bytes.toNatBE_lt_of_length (rfl : _ = 1) (by decide)
    have group : Bytes.ofNatBE 1 (Bytes.toNatBE [a]) = [a] := Bytes.ofNatBE_toNatBE [a]
    generalize Bytes.toNatBE [a] = n at fits group ⊢
    have last := decodeLast_symbols offset (by decide : 2 ≤ 2) (by decide)
      (by change n * 16 < 4096; omega) (Nat.mul_mod_left n 16)
    rw [show Nat.pow 2 (2 * (4 - 2)) = 16 from rfl, Nat.mul_div_cancel n (by decide)] at last
    exact last.trans (congrArg _ group)
  | case4 => rfl

/-- The text of a byte string has four symbols for every three bytes begun. -/
theorem length_encode (bytes : Bytes) : (encode bytes).length = 4 * ((bytes.length + 2) / 3) := by
  fun_induction encode bytes with
  | case1 a b c rest ih =>
    simp only [List.length_append, length_symbols, ih, List.length_cons]
    omega
  | case2 a b => simp only [List.length_append, length_symbols, List.length_cons, List.length_nil]
  | case3 a => simp only [List.length_append, length_symbols, List.length_cons, List.length_nil]
  | case4 => rfl

/-- The text of a byte string reads back as that byte string. -/
theorem decode_encode (bytes : Bytes) : decode (encode bytes) = .ok bytes := by
  have whole := length_encode bytes
  have decoded := decodeFrom_encode 0 bytes
  unfold decode
  split
  next ended =>
    rw [List.getLast?_eq_none_iff.mp ended] at decoded
    exact decoded
  next last _ => rw [if_neg (by omega), decoded]

/-! ## Texts as strings -/

theorem lt_of_mem_encode {bytes : Bytes} {byte : UInt8} (member : byte ∈ encode bytes) :
    byte < 128 := by
  have of_symbols : ∀ {count n}, byte ∈ symbols count n → byte < 128 := by
    intro count n member
    rw [symbols_eq_map] at member
    rcases List.mem_map.mp member with ⟨digit, digit_mem, rfl⟩
    exact symbol_lt digit (lt_of_mem_digits digit_mem)
  have pad_lt : pad < 128 := by decide
  fun_induction encode bytes with
  | case1 a b c rest ih =>
    rcases List.mem_append.mp member with member | member
    · exact of_symbols member
    · exact ih member
  | case2 a b =>
    rcases List.mem_append.mp member with member | member
    · exact of_symbols member
    · simp_all
  | case3 a =>
    rcases List.mem_append.mp member with member | member
    · exact of_symbols member
    · simp_all
  | case4 => cases member

theorem utf8EncodeChar_ofNat :
    ∀ n < 128, String.utf8EncodeChar (Char.ofNat n) = [UInt8.ofNat n] := by
  decide

theorem utf8Encode_ofNat {bytes : Bytes} (ascii : ∀ byte ∈ bytes, byte < 128) :
    (bytes.map fun byte => Char.ofNat byte.toNat).utf8Encode = bytes.toByteArray := by
  induction bytes with
  | nil => simp
  | cons byte bytes ih =>
    have rest := ih fun b member => ascii b (List.mem_cons_of_mem _ member)
    have first := utf8EncodeChar_ofNat byte.toNat (ascii byte (List.mem_cons_self ..))
    rw [List.map_cons, List.utf8Encode_cons, rest, List.utf8Encode_singleton, first,
      UInt8.ofNat_toNat, ← List.toByteArray_append, List.singleton_append]

theorem encode_encodeText (bytes : Bytes) : Utf8.encode (encodeText bytes) = encode bytes := by
  rw [Utf8.encode, encodeText, String.toByteArray_ofList,
    utf8Encode_ofNat fun _ member => lt_of_mem_encode member, List.data_toByteArray]

end KeyEnvelope.Base64
