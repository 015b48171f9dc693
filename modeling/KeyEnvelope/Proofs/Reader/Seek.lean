import Mathlib.Algebra.Order.Ring.Nat
import KeyEnvelope.Proofs.Reader.Counter

/-!
# Seeking in a keystream

The counter block of an offset is the first counter block and the number of the blocks before
the offset, added modulo `2 ^ 128`.  It is the counter block that a keystream has come to which
was made block by block up to there, whether or not the counter has begun anew on the way
(`Cursor.apply_take_blockStart`).  So the rest of a text is transformed on its own from there
on (`Cursor.apply_drop_blockStart`), and a seek from there is one seek by the sum of both as
long as the sum is an offset (`seek_seek_iff`).
-/

namespace KeyEnvelope

namespace Counter

/-! ## The counter block of an offset -/

/-- The counter block of an offset as bytes, from the first one as bytes. -/
def seekBytes (iv : Bytes) (offset : UInt64) : Bytes :=
  Block.toBytes (seek (Block.ofBytes iv) offset)

variable (iv : Block)

theorem seek_eq (offset : UInt64) : seek iv offset = iv + BitVec.ofNat 128 (offset.toNat / 16) := by
  rw [seek, toNat_blockIndex]

/-- Offsets count far fewer blocks than counters do. -/
theorem blocks_lt (offset : UInt64) : offset.toNat / 16 < 2 ^ 60 :=
  Nat.div_lt_of_lt_mul offset.toNat_lt

theorem toNat_seek (offset : UInt64) :
    (seek iv offset).toNat = (iv.toNat + offset.toNat / 16) % 2 ^ 128 := by
  have below : offset.toNat / 16 < 2 ^ 128 := Nat.lt_trans (blocks_lt offset) (by decide)
  rw [seek_eq, BitVec.toNat_add, BitVec.toNat_ofNat, Nat.mod_eq_of_lt below]

theorem toNatBE_seekBytes (iv : Bytes) (offset : UInt64) :
    Bytes.toNatBE (seekBytes iv offset) = (Bytes.toNatBE iv + offset.toNat / 16) % 2 ^ 128 := by
  have width : Nat.pow 256 16 = 2 ^ 128 := by decide
  have below : (seek (Block.ofBytes iv) offset).toNat < Nat.pow 256 16 := by
    rw [width]
    exact (seek (Block.ofBytes iv) offset).isLt
  rw [seekBytes, Block.toBytes, Bytes.toNatBE_ofNatBE_of_lt below, toNat_seek, Block.ofBytes,
    BitVec.toNat_ofNat, Nat.mod_add_mod]

/-- Numbers of blocks below `2 ^ 128` lead to different counter blocks. -/
theorem add_ofNat_inj {m n : Nat} (hm : m < 2 ^ 128) (hn : n < 2 ^ 128) :
    iv + BitVec.ofNat 128 m = iv + BitVec.ofNat 128 n ↔ m = n := by
  rw [BitVec.add_right_inj, BitVec.toNat_eq, BitVec.toNat_ofNat, BitVec.toNat_ofNat,
    Nat.mod_eq_of_lt hm, Nat.mod_eq_of_lt hn]

/-- Seeks compose exactly if their sum is an offset. -/
theorem seek_seek_iff {a b : UInt64} :
    seek (seek iv a) b = seek iv (blockStart a + b) ↔
      (blockStart a).toNat + b.toNat < UInt64.size := by
  have both : seek (seek iv a) b = iv + BitVec.ofNat 128 (a.toNat / 16 + b.toNat / 16) := by
    rw [seek_eq, seek_eq, BitVec.ofNat_add, BitVec.add_assoc]
  have few := blocks_lt a
  have few_later := blocks_lt b
  have few_sum := blocks_lt (blockStart a + b)
  rw [both, seek_eq, add_ofNat_inj iv (by omega) (by omega), UInt64.toNat_add, toNat_blockStart]
  have size : UInt64.size = 2 ^ 64 := rfl
  have below := b.toNat_lt
  rw [size]
  omega

theorem seekBytes_seekBytes_iff {iv : Bytes} {a b : UInt64} :
    seekBytes (seekBytes iv a) b = seekBytes iv (blockStart a + b) ↔
      (blockStart a).toNat + b.toNat < UInt64.size := by
  rw [← seek_seek_iff (Block.ofBytes iv)]
  unfold seekBytes
  rw [Block.ofBytes_toBytes]
  exact Function.LeftInverse.injective Block.ofBytes_toBytes |>.eq_iff

/-! ## The keystream from there on -/

namespace Cursor

variable (cipher : Block → Block) {offset : UInt64} {data : Bytes}

theorem apply_append (cursor : Cursor) (a b : Bytes) :
    cursor.apply cipher (a ++ b) =
      ((cursor.apply cipher a).1 ++ ((cursor.apply cipher a).2.apply cipher b).1,
        ((cursor.apply cipher a).2.apply cipher b).2) := by
  induction a generalizing cursor with
  | nil => rfl
  | cons byte a ih => simp only [List.cons_append, apply, ih]

theorem length_apply (cursor : Cursor) (data : Bytes) :
    (cursor.apply cipher data).1.length = data.length := by
  induction data generalizing cursor with
  | nil => rfl
  | cons byte data ih => rw [apply, List.length_cons, List.length_cons, ih]

/-- From its first block on, a keystream that is made block by block is the one by position. -/
theorem apply_begun (data : Bytes) :
    (apply cipher ⟨iv, []⟩ data).1 = Counter.apply cipher iv 0 data := by
  rw [← ofPosition_zero cipher iv, apply_ofPosition]

/-- At the start of a block nothing of the last one is left. -/
theorem ofPosition_blockStart (offset : UInt64) :
    ofPosition cipher iv (blockStart offset).toNat = ⟨seek iv offset, []⟩ := by
  have made : (16 * (offset.toNat / 16) + 15) / 16 = offset.toNat / 16 := by omega
  rw [ofPosition, toNat_blockStart, made, Nat.sub_self, seek_eq]
  rfl

/-- Made block by block, a keystream comes to the counter block of an offset. -/
theorem apply_take_blockStart (inside : (blockStart offset).toNat ≤ data.length) :
    (apply cipher ⟨iv, []⟩ (data.take (blockStart offset).toNat)).2 = ⟨seek iv offset, []⟩ := by
  rw [← ofPosition_zero cipher iv, apply_ofPosition, Nat.zero_add, List.length_take,
    Nat.min_eq_left inside, ofPosition_blockStart]

/-- From the counter block of an offset on, the rest of a text is transformed as within the
text, and the keystream comes to the same end. -/
theorem apply_drop_blockStart (inside : (blockStart offset).toNat ≤ data.length) :
    apply cipher ⟨seek iv offset, []⟩ (data.drop (blockStart offset).toNat) =
      ((apply cipher ⟨iv, []⟩ data).1.drop (blockStart offset).toNat,
        (apply cipher ⟨iv, []⟩ data).2) := by
  have whole := apply_append cipher ⟨iv, []⟩ (data.take (blockStart offset).toNat)
    (data.drop (blockStart offset).toNat)
  have first : (apply cipher ⟨iv, []⟩ (data.take (blockStart offset).toNat)).1.length =
      (blockStart offset).toNat := by
    rw [length_apply, List.length_take, Nat.min_eq_left inside]
  rw [List.take_append_drop, apply_take_blockStart iv cipher inside] at whole
  rw [whole, List.drop_left' first]

end Cursor

end Counter

/-! ## Readers from there on -/

namespace CounterReader

open Counter (seekBytes)

/-- A reader of the rest of a source, begun at the counter block of an offset, yields what a
reader of the source does from there on. -/
theorem yields_seek (schedule : Aes.Schedule) (iv : Block) {offset : UInt64} {source later : Source}
    (inside : (blockStart offset).toNat ≤ (Script.content source.pieces).length)
    (rest : Script.content later.pieces =
      (Script.content source.pieces).drop (blockStart offset).toNat) :
    Yields ⟨later, schedule, Counter.seek iv offset, 0⟩
      ((Counter.apply (Aes.encryptBlock schedule) iv 0 (Script.content source.pieces)).drop
        (blockStart offset).toNat) := by
  have whole := Counter.Cursor.apply_drop_blockStart iv (Aes.encryptBlock schedule) inside
  have ahead := yields_begun schedule (Counter.seek iv offset) later
  rwa [rest, ← Counter.Cursor.apply_begun, whole, Counter.Cursor.apply_begun] at ahead

/-- Transforming the rest of a text from the counter block of an offset on is transforming the
text and leaving out what comes before the block of the offset: of a keystream that is made
block by block, and of readers in counter mode, whatever the pieces of their sources, the
requests and the failures between them.  The counter block is an addition modulo `2 ^ 128`, and
two seeks are one exactly if their sum is an offset. -/
theorem yields_drop_of_seek {key iv : Bytes} (fits : Aes.IsKeyLength key.length)
    (oneBlock : iv.length = 16) (offset : UInt64) :
    (seekBytes iv offset).length = 16 ∧
    Bytes.toNatBE (seekBytes iv offset) = (Bytes.toNatBE iv + offset.toNat / 16) % 2 ^ 128 ∧
    (∀ data : Bytes, (blockStart offset).toNat ≤ data.length →
      Counter.Cursor.apply (cipherOf key) ⟨Block.ofBytes (seekBytes iv offset), []⟩
          (data.drop (blockStart offset).toNat) =
        ((Counter.Cursor.apply (cipherOf key) ⟨Block.ofBytes iv, []⟩ data).1.drop
            (blockStart offset).toNat,
          (Counter.Cursor.apply (cipherOf key) ⟨Block.ofBytes iv, []⟩ data).2)) ∧
    (∀ source later : Source,
      (blockStart offset).toNat ≤ (Script.content source.pieces).length →
      Script.content later.pieces =
        (Script.content source.pieces).drop (blockStart offset).toNat →
      ∃ stream ahead bytes, startAtBytes source key iv = .ok stream ∧
        startAtBytes later key (seekBytes iv offset) = .ok ahead ∧
        bytes = (Counter.Cursor.apply (cipherOf key) ⟨Block.ofBytes iv, []⟩
          (Script.content source.pieces)).1 ∧
        Yields stream bytes ∧ Yields ahead (bytes.drop (blockStart offset).toNat)) ∧
    ∀ later : UInt64,
      seekBytes (seekBytes iv offset) later = seekBytes iv (blockStart offset + later) ↔
        (blockStart offset).toNat + later.toNat < UInt64.size := by
  have reads : Block.ofBytes (seekBytes iv offset) = Counter.seek (Block.ofBytes iv) offset :=
    Block.ofBytes_toBytes _
  have size : (seekBytes iv offset).length = 16 := Block.length_toBytes _
  rw [reads]
  refine ⟨size, Counter.toNatBE_seekBytes iv offset,
    fun data inside =>
      Counter.Cursor.apply_drop_blockStart (Block.ofBytes iv) (cipherOf key) inside,
    fun source later inside rest => ?_, fun later => Counter.seekBytes_seekBytes_iff⟩
  refine ⟨_, _, _, startAtBytes_eq_ok.mpr ⟨fits, oneBlock, rfl⟩,
    startAtBytes_eq_ok.mpr ⟨fits, size, rfl⟩, rfl, ?_, ?_⟩
  · rw [Counter.Cursor.apply_begun]
    exact yields_begun ..
  · rw [Counter.Cursor.apply_begun, reads]
    exact yields_seek _ _ inside rest

/-- From the third byte of the second block on, under a counter that begins anew there. -/
theorem yields_drop_of_seek_begun_anew :
    ∃ stream ahead bytes,
      startAtBytes (⟨[.data (List.replicate 9 1), .data (List.replicate 11 2)], []⟩ : Source)
        (List.replicate 16 7) (List.replicate 16 255) = .ok stream ∧
      startAtBytes (⟨[.data (List.replicate 4 2)], []⟩ : Source) (List.replicate 16 7)
        (List.replicate 16 0) = .ok ahead ∧
      Yields stream bytes ∧ Yields ahead (bytes.drop 16) ∧
      seekBytes (List.replicate 16 0) 40 = seekBytes (List.replicate 16 255) 56 := by
  obtain ⟨-, -, -, readers, compose⟩ :=
    @yields_drop_of_seek (List.replicate 16 7) (List.replicate 16 255) (by decide) (by decide) 18
  have anew : seekBytes (List.replicate 16 255) 18 = List.replicate 16 0 := by decide +kernel
  obtain ⟨stream, ahead, bytes, begun, begun_ahead, -, whole, rest⟩ :=
    readers ⟨[.data (List.replicate 9 1), .data (List.replicate 11 2)], []⟩
      ⟨[.data (List.replicate 4 2)], []⟩ (by decide) (by decide)
  rw [anew] at begun_ahead compose
  exact ⟨stream, ahead, bytes, begun, begun_ahead, whole, rest, (compose 40).mpr (by decide)⟩

end CounterReader

end KeyEnvelope
