import KeyEnvelope.Cipher.Nonce

/-!
# Laws of byte strings

A number that was written big-endian in `width` bytes is read back modulo
`256 ^ width`, so every number that fits comes back, and so do blocks and nonces from
their bytes.  Exclusive or with one byte string twice changes nothing.
-/

namespace KeyEnvelope.Bytes

/-! ## Big-endian numbers -/

theorem pow_succ (width : Nat) : Nat.pow 256 (width + 1) = Nat.pow 256 width * 256 := rfl

theorem toNat_ofNat_div (n width : Nat) :
    (UInt8.ofNat (n / Nat.pow 256 width)).toNat = n / Nat.pow 256 width % 256 := by
  rw [UInt8.toNat_ofNat']

/-- Reading goes on from the number that the bytes before have spelled. -/
theorem foldl_ofNatBE (width n read : Nat) :
    (ofNatBE width n).foldl (fun n byte => n * 256 + byte.toNat) read =
      read * Nat.pow 256 width + n % Nat.pow 256 width := by
  induction width generalizing read with
  | zero => simp [ofNatBE, Nat.mod_one]
  | succ width ih =>
    have split : n % Nat.pow 256 (width + 1) =
        n % Nat.pow 256 width + Nat.pow 256 width * (n / Nat.pow 256 width % 256) :=
      Nat.mod_pow_succ
    rw [ofNatBE, List.foldl_cons, ih, toNat_ofNat_div, split, pow_succ, Nat.add_mul,
      Nat.mul_assoc, Nat.mul_comm 256, Nat.mul_comm (n / Nat.pow 256 width % 256), Nat.add_assoc,
      Nat.add_comm (n % Nat.pow 256 width)]

theorem toNatBE_ofNatBE (width n : Nat) : toNatBE (ofNatBE width n) = n % Nat.pow 256 width := by
  rw [toNatBE, foldl_ofNatBE, Nat.zero_mul, Nat.zero_add]

theorem toNatBE_ofNatBE_of_lt {width n : Nat} (fits : n < Nat.pow 256 width) :
    toNatBE (ofNatBE width n) = n := by
  rw [toNatBE_ofNatBE, Nat.mod_eq_of_lt fits]

theorem foldl_eq_add_toNatBE (bytes : Bytes) (read : Nat) :
    bytes.foldl (fun n byte => n * 256 + byte.toNat) read =
      read * Nat.pow 256 bytes.length + toNatBE bytes := by
  induction bytes generalizing read with
  | nil => simp [toNatBE]
  | cons byte bytes ih =>
    rw [toNatBE, List.foldl_cons, List.foldl_cons, ih, ih (0 * 256 + byte.toNat),
      List.length_cons, pow_succ, Nat.add_mul, Nat.add_mul, Nat.mul_assoc,
      Nat.mul_comm 256, Nat.zero_mul, Nat.zero_add, Nat.add_assoc]

theorem toNatBE_cons (byte : UInt8) (bytes : Bytes) :
    toNatBE (byte :: bytes) = byte.toNat * Nat.pow 256 bytes.length + toNatBE bytes := by
  rw [toNatBE, List.foldl_cons, foldl_eq_add_toNatBE, Nat.zero_mul, Nat.zero_add]

theorem toNatBE_lt (bytes : Bytes) : toNatBE bytes < Nat.pow 256 bytes.length := by
  induction bytes with
  | nil => exact Nat.one_pos
  | cons byte bytes ih =>
    have digit : byte.toNat + 1 ≤ 256 := byte.toNat_lt
    have scaled := Nat.mul_le_mul_right (Nat.pow 256 bytes.length) digit
    rw [Nat.add_mul, Nat.one_mul] at scaled
    rw [toNatBE_cons, List.length_cons, pow_succ, Nat.mul_comm (Nat.pow 256 bytes.length)]
    omega

theorem toNatBE_lt_of_length {bytes : Bytes} {length bound : Nat} (h : bytes.length = length)
    (reaches : Nat.pow 256 length = bound) : toNatBE bytes < bound := by
  rw [← reaches, ← h]
  exact toNatBE_lt bytes

/-- Only the remainder of a number shows in its low bytes. -/
theorem ofNatBE_eq_of_mod_eq {width m n : Nat}
    (same : m % Nat.pow 256 width = n % Nat.pow 256 width) :
    ofNatBE width m = ofNatBE width n := by
  induction width with
  | zero => rfl
  | succ width ih =>
    have head : ∀ k, UInt8.ofNat (k / Nat.pow 256 width) =
        UInt8.ofNat (k % Nat.pow 256 (width + 1) / Nat.pow 256 width) := by
      intro k
      apply UInt8.toNat_inj.mp
      rw [toNat_ofNat_div, toNat_ofNat_div, pow_succ, Nat.mod_mul_right_div_self, Nat.mod_mod]
    have divides : Nat.pow 256 width ∣ Nat.pow 256 (width + 1) :=
      Nat.pow_dvd_pow 256 (Nat.le_succ width)
    have tail : m % Nat.pow 256 width = n % Nat.pow 256 width := by
      rw [← Nat.mod_mod_of_dvd m divides, same, Nat.mod_mod_of_dvd n divides]
    rw [ofNatBE, ofNatBE, head m, head n, same, ih tail]

/-- A byte string is the written form of the number it spells. -/
theorem ofNatBE_toNatBE (bytes : Bytes) : ofNatBE bytes.length (toNatBE bytes) = bytes := by
  induction bytes with
  | nil => rfl
  | cons byte bytes ih =>
    have below := toNatBE_lt bytes
    have positive : 0 < Nat.pow 256 bytes.length := Nat.zero_lt_of_lt below
    have head : (byte.toNat * Nat.pow 256 bytes.length + toNatBE bytes) /
        Nat.pow 256 bytes.length = byte.toNat := by
      rw [Nat.mul_comm, Nat.mul_add_div positive, Nat.div_eq_of_lt below, Nat.add_zero]
    have tail : ofNatBE bytes.length
        (byte.toNat * Nat.pow 256 bytes.length + toNatBE bytes) = bytes := by
      have same := ofNatBE_eq_of_mod_eq (Nat.mul_add_mod (Nat.pow 256 bytes.length) byte.toNat
        (toNatBE bytes))
      rw [Nat.mul_comm, same, ih]
    rw [List.length_cons, ofNatBE, toNatBE_cons, head, tail, UInt8.ofNat_toNat]

/-! ## Exclusive or -/

theorem xor_append {a c : Bytes} (length : a.length = c.length) (b d : Bytes) :
    xor (a ++ b) (c ++ d) = xor a c ++ xor b d :=
  List.zipWith_append length

theorem xor_xor_cancel {a key : Bytes} (covers : a.length ≤ key.length) :
    xor (xor a key) key = a := by
  induction a generalizing key with
  | nil => rfl
  | cons byte a ih =>
    cases key with
    | nil => cases covers
    | cons mask key =>
      have rest : xor (xor a key) key = a := ih (Nat.le_of_succ_le_succ covers)
      have first : byte ^^^ mask ^^^ mask = byte := by
        rw [UInt8.xor_assoc, UInt8.xor_self, UInt8.xor_zero]
      change (byte ^^^ mask ^^^ mask) :: xor (xor a key) key = byte :: a
      rw [first, rest]

end KeyEnvelope.Bytes

namespace KeyEnvelope

/-! ## Blocks and nonces -/

namespace Block

theorem ofBytes_toBytes (block : Block) : ofBytes (toBytes block) = block := by
  rw [ofBytes, toBytes, Bytes.toNatBE_ofNatBE_of_lt block.isLt, BitVec.ofNat_toNat,
    BitVec.setWidth_eq]

theorem ofBytes?_toBytes (block : Block) : ofBytes? (toBytes block) = some block := by
  rw [ofBytes?, if_pos (length_toBytes block), ofBytes_toBytes]

/-- Sixteen bytes are those of the block that they spell. -/
theorem toBytes_ofBytes {bytes : Bytes} (length : bytes.length = 16) :
    toBytes (ofBytes bytes) = bytes := by
  have below : Bytes.toNatBE bytes < 2 ^ 128 := Bytes.toNatBE_lt_of_length length (by decide)
  rw [toBytes, ofBytes, BitVec.toNat_ofNat, Nat.mod_eq_of_lt below, ← length,
    Bytes.ofNatBE_toNatBE]

/-- Bytes are those of a block exactly if they are sixteen and spell it. -/
theorem eq_toBytes_iff {bytes : Bytes} {block : Block} :
    bytes = toBytes block ↔ bytes.length = 16 ∧ block = ofBytes bytes := by
  refine ⟨fun same => ?_, fun both => ?_⟩
  · subst same
    exact ⟨length_toBytes block, (ofBytes_toBytes block).symm⟩
  · rw [both.2, toBytes_ofBytes both.1]

end Block

theorem Nonce.ofBytes?_bytes (nonce : Nonce) : ofBytes? nonce.bytes = some nonce :=
  dif_pos nonce.length_eq

/-- Only the bytes of a nonce are read as that nonce. -/
theorem Nonce.of_ofBytes? {bytes : Bytes} {nonce : Nonce} (read : ofBytes? bytes = some nonce) :
    bytes = nonce.bytes := by
  unfold ofBytes? at read
  split at read <;> cases read
  rfl

end KeyEnvelope
