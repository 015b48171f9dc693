import KeyEnvelope.Cipher.Counter
import KeyEnvelope.Proofs.Bytes

/-!
# Laws of the keystream

The keystream is a function of the position, so a text can be encrypted in pieces
(`apply_append`), what was encrypted is decrypted by encrypting it again
(`apply_apply`), and the stream from a block on is the stream of a later counter
(`apply_seek`), whether or not the counter wraps on the way.  A keystream that is made
block by block, with the rest of a block kept for the next piece, is the same
(`Cursor.apply_ofPosition`).
-/

namespace KeyEnvelope.Counter

variable (cipher : Block → Block) (iv : Block)

/-! ## Text in pieces -/

theorem keystream_add (position m n : Nat) :
    keystream cipher iv position (m + n) =
      keystream cipher iv position m ++ keystream cipher iv (position + m) n := by
  simp only [keystream_eq_map, List.range_add, List.map_append, List.map_map]
  congr 1
  refine List.map_congr_left fun i _ => ?_
  simp only [Function.comp, Nat.add_assoc]

@[simp] theorem apply_nil (position : Nat) : apply cipher iv position [] = [] := rfl

theorem apply_append (position : Nat) (a b : Bytes) :
    apply cipher iv position (a ++ b) =
      apply cipher iv position a ++ apply cipher iv (position + a.length) b := by
  unfold apply
  rw [List.length_append, keystream_add, Bytes.xor_append]
  rw [length_keystream]

theorem apply_eq_append (position n : Nat) (data : Bytes) :
    apply cipher iv position data =
      apply cipher iv position (data.take n) ++
        apply cipher iv (position + (data.take n).length) (data.drop n) := by
  rw [← apply_append, List.take_append_drop]

theorem take_apply (position n : Nat) (data : Bytes) :
    (apply cipher iv position data).take n = apply cipher iv position (data.take n) := by
  rcases Nat.le_total n data.length with inside | past
  · have length : (apply cipher iv position (data.take n)).length = n := by
      rw [length_apply, List.length_take, Nat.min_eq_left inside]
    rw [apply_eq_append cipher iv position n, List.take_append_of_le_length (by omega),
      List.take_of_length_le (by omega)]
  · rw [List.take_of_length_le past, List.take_of_length_le (by rwa [length_apply])]

theorem drop_apply (position n : Nat) (data : Bytes) :
    (apply cipher iv position data).drop n =
      apply cipher iv (position + (data.take n).length) (data.drop n) := by
  rcases Nat.le_total n data.length with inside | past
  · have length : (apply cipher iv position (data.take n)).length = n := by
      rw [length_apply, List.length_take, Nat.min_eq_left inside]
    rw [apply_eq_append cipher iv position n, List.drop_append_of_le_length (by omega),
      List.drop_of_length_le (by omega), List.nil_append]
  · rw [List.drop_of_length_le past, List.drop_of_length_le (by rwa [length_apply])]
    rfl

/-! ## Decryption -/

/-- Counter mode decrypts by encrypting. -/
theorem apply_apply (position : Nat) (data : Bytes) :
    apply cipher iv position (apply cipher iv position data) = data := by
  unfold apply
  rw [Bytes.length_xor, length_keystream, Nat.min_self]
  exact Bytes.xor_xor_cancel (Nat.le_of_eq (length_keystream ..).symm)

theorem apply_drop_apply (n : Nat) (data : Bytes) :
    apply cipher iv n ((apply cipher iv 0 data).drop n) = data.drop n := by
  rw [drop_apply]
  rcases Nat.le_total n data.length with inside | past
  · rw [List.length_take, Nat.min_eq_left inside, Nat.zero_add, apply_apply]
  · rw [List.drop_of_length_le past, apply_nil, apply_nil]

/-- Any part of a text can be decrypted on its own, from its position on. -/
theorem apply_of_prefix {n : Nat} {data part : Bytes}
    (within : part <+: (apply cipher iv 0 data).drop n) :
    apply cipher iv n part = (data.drop n).take part.length := by
  rcases within with ⟨rest, whole⟩
  rw [← apply_drop_apply cipher iv n data, ← whole, apply_append,
    List.take_left' (length_apply ..)]

/-! ## Later counters -/

theorem toNat_blockStart (offset : UInt64) :
    (blockStart offset).toNat = 16 * (offset.toNat / 16) := by
  have remainder : (blockRemainder offset).toNat = offset.toNat % 16 := UInt64.toNat_mod ..
  have below : blockRemainder offset ≤ offset := by
    rw [UInt64.le_iff_toNat_le, remainder]
    exact Nat.mod_le _ _
  rw [blockStart, UInt64.toNat_sub_of_le _ _ below, remainder]
  omega

theorem toNat_blockRemainder (offset : UInt64) :
    (blockRemainder offset).toNat = offset.toNat % 16 :=
  UInt64.toNat_mod ..

theorem toNat_blockIndex (offset : UInt64) : (blockIndex offset).toNat = offset.toNat / 16 :=
  UInt64.toNat_div ..

/-- A position is the start of its block and the remainder inside it. -/
theorem blockStart_add_blockRemainder (offset : UInt64) :
    (blockStart offset).toNat + (blockRemainder offset).toNat = offset.toNat := by
  rw [toNat_blockStart, toNat_blockRemainder]
  omega

theorem block_seek (offset : UInt64) (index : Nat) :
    block cipher (seek iv offset) index = block cipher iv (offset.toNat / 16 + index) := by
  rw [block, block, seek, toNat_blockIndex, BitVec.ofNat_add, BitVec.add_assoc]

theorem byteAt_seek (offset : UInt64) (position : Nat) :
    byteAt cipher (seek iv offset) position =
      byteAt cipher iv ((blockStart offset).toNat + position) := by
  have quotient : (16 * (offset.toNat / 16) + position) / 16 =
      offset.toNat / 16 + position / 16 := by omega
  have remainder : (16 * (offset.toNat / 16) + position) % 16 = position % 16 := by omega
  rw [byteAt, byteAt, block_seek, toNat_blockStart, quotient, remainder]

/-- The stream of the counter of a later block is the stream from that block on. -/
theorem apply_seek (offset : UInt64) (position : Nat) (data : Bytes) :
    apply cipher (seek iv offset) position data =
      apply cipher iv ((blockStart offset).toNat + position) data := by
  simp only [apply, keystream_eq_map, byteAt_seek, Nat.add_assoc]

/-! ## Block by block -/

theorem keystream_succ (position n : Nat) :
    keystream cipher iv position (n + 1) =
      byteAt cipher iv position :: keystream cipher iv (position + 1) n := by
  rw [Nat.add_comm n 1, keystream_add, keystream_eq_map cipher iv position 1]
  rfl

theorem apply_cons (position : Nat) (byte : UInt8) (data : Bytes) :
    apply cipher iv position (byte :: data) =
      (byte ^^^ byteAt cipher iv position) :: apply cipher iv (position + 1) data := by
  rw [apply, List.length_cons, keystream_succ]
  rfl

theorem block_eq_keystream (index : Nat) :
    block cipher iv index = keystream cipher iv (16 * index) 16 := by
  have quotient : 16 * index / 16 = index := by omega
  have remainder : 16 * index % 16 = 0 := by omega
  have one : (0 + 16 + 15) / 16 = 1 := rfl
  rw [keystream, remainder, quotient, one, List.range_one, List.flatMap_singleton, List.drop_zero,
    Nat.add_zero, List.take_of_length_le (Nat.le_of_eq (length_block ..))]

/-- Where a keystream stands whose blocks are made one after the other: the counter of the next
block and what is unused of the last. -/
structure Cursor where
  counter : Block
  unused : Bytes

namespace Cursor

/-- The next byte; it takes a new block once the last is used up. -/
def next (cursor : Cursor) : UInt8 × Cursor :=
  match cursor.unused with
  | byte :: unused => (byte, ⟨cursor.counter, unused⟩)
  | [] =>
    let made := Block.toBytes (cipher cursor.counter)
    (made.headD 0, ⟨cursor.counter + 1, made.tail⟩)

/-- Data encrypted or decrypted byte by byte, and the cursor behind it. -/
def apply (cursor : Cursor) : (data : Bytes) → Bytes × Cursor
  | [] => ([], cursor)
  | byte :: data =>
    let (key, cursor) := cursor.next cipher
    let (rest, last) := cursor.apply data
    ((byte ^^^ key) :: rest, last)

/-- The cursor at a position: as many blocks are made as begin before it, and the end of the
last of them is unused. -/
def ofPosition (position : Nat) : Cursor :=
  let made := (position + 15) / 16
  ⟨iv + BitVec.ofNat 128 made, keystream cipher iv position (16 * made - position)⟩

theorem ofPosition_zero : ofPosition cipher iv 0 = ⟨iv, []⟩ := by
  have start : iv + BitVec.ofNat 128 0 = iv := BitVec.add_zero iv
  exact congrArg (Cursor.mk · []) start

theorem next_ofPosition (position : Nat) :
    (ofPosition cipher iv position).next cipher =
      (byteAt cipher iv position, ofPosition cipher iv (position + 1)) := by
  rcases Nat.eq_zero_or_pos (position % 16) with start | inside
  · have made : (position + 15) / 16 = position / 16 := by omega
    have made_next : (position + 1 + 15) / 16 = position / 16 + 1 := by omega
    have none : 16 * (position / 16) - position = 0 := by omega
    have fifteen : 16 * (position / 16 + 1) - (position + 1) = 15 := by omega
    have whole : Block.toBytes (cipher (iv + BitVec.ofNat 128 (position / 16))) =
        byteAt cipher iv position :: keystream cipher iv (position + 1) 15 := by
      have here : 16 * (position / 16) = position := by omega
      have cut := block_eq_keystream cipher iv (position / 16)
      rwa [here, keystream_succ] at cut
    have counter : iv + BitVec.ofNat 128 (position / 16) + 1 =
        iv + BitVec.ofNat 128 (position / 16 + 1) := by
      rw [BitVec.ofNat_add, BitVec.add_assoc]
      rfl
    simp only [ofPosition, next, made, made_next, none, fifteen,
      keystream_eq_map cipher iv position 0, List.range_zero,
      List.map_nil, whole, counter, List.headD_cons, List.tail_cons]
  · have made : (position + 1 + 15) / 16 = (position + 15) / 16 := by omega
    have some_left : 16 * ((position + 15) / 16) - position =
      16 * ((position + 15) / 16) - (position + 1) + 1 := by omega
    simp only [ofPosition, next, made, some_left, keystream_succ]

/-- Made block by block, the keystream is the same as by position. -/
theorem apply_ofPosition (position : Nat) (data : Bytes) :
    (ofPosition cipher iv position).apply cipher data =
      (Counter.apply cipher iv position data, ofPosition cipher iv (position + data.length)) := by
  induction data generalizing position with
  | nil => rfl
  | cons byte data ih =>
    rw [apply, next_ofPosition]
    dsimp only
    rw [ih, apply_cons, List.length_cons, Nat.add_assoc, Nat.add_comm 1]

end Cursor

end KeyEnvelope.Counter
