import KeyEnvelope.Cipher.Block

/-!
# Counter mode

The keystream of a block cipher from an initial counter block.  Its blocks are the
encryptions of the counter, one after the other modulo `2 ^ 128`, so every byte of it
is a function of its position (`byteAt`) and decryption can begin at any block: the
counter of a later block is one addition away (`seek`).  `keystream` yields whole runs
of it and is position by position the same (`keystream_eq_map`).
-/

namespace KeyEnvelope.Counter

/-- Block number `index` of the keystream. -/
def block (cipher : Block → Block) (iv : Block) (index : Nat) : Bytes :=
  Block.toBytes (cipher (iv + BitVec.ofNat 128 index))

/-- The keystream byte at a position. -/
def byteAt (cipher : Block → Block) (iv : Block) (position : Nat) : UInt8 :=
  (block cipher iv (position / 16)).getD (position % 16) 0

/-- The keystream bytes from a position on: the blocks that cover them, trimmed. -/
def keystream (cipher : Block → Block) (iv : Block) (position length : Nat) : Bytes :=
  let count := (position % 16 + length + 15) / 16
  let blocks := (List.range count).flatMap fun i => block cipher iv (position / 16 + i)
  (blocks.drop (position % 16)).take length

/-- Data that begins at a stream position, encrypted or decrypted. -/
def apply (cipher : Block → Block) (iv : Block) (position : Nat) (data : Bytes) : Bytes :=
  Bytes.xor data (keystream cipher iv position data.length)

/-- The counter of the block that holds a stream offset. -/
def seek (iv : Block) (offset : UInt64) : Block :=
  iv + BitVec.ofNat 128 (blockIndex offset).toNat

/-! ## The keystream as a function of the position -/

@[simp] theorem length_block (cipher : Block → Block) (iv : Block) (index : Nat) :
    (block cipher iv index).length = 16 := by
  simp [block]

theorem getD_flatMap_block (f : Nat → Bytes) (hf : ∀ i, (f i).length = 16) (count : Nat) :
    ∀ k, k < 16 * count →
      ((List.range count).flatMap f)[k]? = some ((f (k / 16)).getD (k % 16) 0) := by
  induction count with
  | zero => intro k hk; omega
  | succ count ih =>
    intro k hk
    have hlen : ((List.range count).flatMap f).length = 16 * count := by
      rw [List.length_flatMap, List.map_congr_left fun i _ => hf i, List.map_const',
        List.sum_replicate_nat, List.length_range, Nat.mul_comm]
    rw [List.range_succ, List.flatMap_append]
    by_cases h : k < 16 * count
    · rw [List.getElem?_append_left (by omega), ih k h]
    · rw [List.getElem?_append_right (by omega), hlen]
      have hq : k / 16 = count := by omega
      have hr : k - 16 * count = k % 16 := by omega
      have hlt : k % 16 < (f count).length := by rw [hf]; omega
      simp [hq, hr, List.getD_eq_getElem?_getD, List.getElem?_eq_getElem hlt]

/-- A run of keystream holds, in order, the bytes at its positions. -/
theorem keystream_eq_map (cipher : Block → Block) (iv : Block) (position length : Nat) :
    keystream cipher iv position length =
      (List.range length).map fun i => byteAt cipher iv (position + i) := by
  apply List.ext_getElem?
  intro i
  simp only [keystream, List.getElem?_take, List.getElem?_drop, List.getElem?_map]
  by_cases h : i < length
  · rw [if_pos h, getD_flatMap_block _ (by simp)]
    · simp only [List.getElem?_range h, Option.map_some, byteAt]
      have hq : position / 16 + (position % 16 + i) / 16 = (position + i) / 16 := by omega
      have hr : (position % 16 + i) % 16 = (position + i) % 16 := by omega
      rw [hq, hr]
    · omega
  · rw [if_neg h, List.getElem?_eq_none (by simpa using h)]
    rfl

@[simp] theorem length_keystream (cipher : Block → Block) (iv : Block) (position length : Nat) :
    (keystream cipher iv position length).length = length := by
  simp [keystream_eq_map]

@[simp] theorem length_apply (cipher : Block → Block) (iv : Block) (position : Nat)
    (data : Bytes) : (apply cipher iv position data).length = data.length := by
  simp [apply]

end KeyEnvelope.Counter
