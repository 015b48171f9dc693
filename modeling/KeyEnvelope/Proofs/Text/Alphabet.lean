import Mathlib.Algebra.Order.Ring.Nat
import KeyEnvelope.Proofs.Text.Canonical

/-!
# Base64 texts by their characters

A base64 text consists of characters of an alphabet of 64 and of up to two padding signs
behind them, comes in groups of four, and has no bit left over (`Base64.Written`).  These are
the texts of byte strings, and the number of characters tells how long the byte string is
(`exists_eq_encodeText_iff`).  So a text with a sign too few or too many, with another sign in
it or with a bit that belongs to no byte is the text of none.
-/

namespace KeyEnvelope.Base64

variable {values group : List Nat} {padding : Nat}

/-! ## Values and padding -/

/-- Six-bit values and padding signs fill groups of four, and the last value has zeros for the
bits that belong to no byte, two for each padding sign. -/
structure Fills (values : List Nat) (padding : Nat) : Prop where
  few : padding ≤ 2
  whole : 4 ∣ values.length + padding
  spent : ∀ value ∈ values.getLast?, 4 ^ padding ∣ value

theorem fills_nil : Fills [] 0 :=
  ⟨Nat.zero_le 2, Nat.dvd_zero 4, fun _ last => absurd last (Option.not_mem_none _)⟩

/-- A group in front makes no difference. -/
theorem fills_append_iff (four : group.length = 4) :
    Fills (group ++ values) padding ↔ Fills values padding := by
  have length : (group ++ values).length = 4 + values.length := by
    rw [List.length_append, four]
  refine ⟨fun fills => ⟨fills.few, ?_, fun value last => ?_⟩,
    fun fills => ⟨fills.few, ?_, fun value last => ?_⟩⟩
  · have whole := fills.whole
    omega
  · exact fills.spent value (List.mem_getLast?_append_of_mem_getLast? last)
  · have whole := fills.whole
    omega
  · cases values with
    | nil =>
      have whole := fills.whole
      have few := fills.few
      have none : padding = 0 := by
        rw [List.length_nil] at whole
        omega
      rw [none, Nat.pow_zero]
      exact Nat.one_dvd value
    | cons first values =>
      rw [List.getLast?_append_of_ne_nil group (List.cons_ne_nil first values)] at last
      exact fills.spent value last

/-- The bits of a last value that belong to no byte are those of the number of its group. -/
theorem toNat_concat_mod_eq_zero_iff {front : List Nat} {last : Nat} (few : padding ≤ 2) :
    toNat (front ++ [last]) % Nat.pow 2 (2 * padding) = 0 ↔ 4 ^ padding ∣ last := by
  have number : toNat (front ++ [last]) = toNat front * 64 + last := List.foldl_append ..
  have group : 4 ^ padding ∣ 64 := by
    obtain rfl | rfl | rfl : padding = 0 ∨ padding = 1 ∨ padding = 2 := by omega
    all_goals decide
  rw [Nat.pow_eq, Nat.pow_mul, number, ← Nat.dvd_iff_mod_eq_zero]
  exact Nat.dvd_add_right (Nat.dvd_mul_left_of_dvd group _)

theorem toNat_mod_of_spent (few : padding ≤ 2)
    (spent : ∀ value ∈ values.getLast?, 4 ^ padding ∣ value) :
    toNat values % Nat.pow 2 (2 * padding) = 0 := by
  rcases List.eq_nil_or_concat values with rfl | ⟨front, last, rfl⟩
  · exact Nat.zero_mod _
  · rw [List.concat_eq_append] at spent ⊢
    exact (toNat_concat_mod_eq_zero_iff few).mpr (spent last List.getLast?_concat)

/-- Up to four values and the padding that fills their group spell bytes. -/
theorem Fills.exists_encode_last (fills : Fills values padding)
    (small : ∀ value ∈ values, value < 64) (least : 2 ≤ values.length)
    (most : values.length ≤ 4) :
    ∃ bytes, bytes.length = 3 * values.length / 4 ∧
      encode bytes = values.map symbol ++ List.replicate padding pad := by
  have whole := fills.whole
  have few := fills.few
  have filled : padding = 4 - values.length := by omega
  have aligned := toNat_mod_of_spent few fills.spent
  rw [filled] at aligned ⊢
  refine ⟨_, ?_, encode_last_toNat small least most aligned⟩
  rw [Bytes.length_ofNatBE]
  omega

/-- Values that fill groups spell bytes. -/
theorem Fills.exists_encode : ∀ {values : List Nat} {padding : Nat}, Fills values padding →
    (∀ value ∈ values, value < 64) → ∃ bytes, bytes.length = 3 * values.length / 4 ∧
      encode bytes = values.map symbol ++ List.replicate padding pad
  | [], padding, fills, _ => by
    have whole := fills.whole
    have few := fills.few
    have none : padding = 0 := by
      rw [List.length_nil] at whole
      omega
    rw [none]
    exact ⟨[], rfl, rfl⟩
  | [_], padding, fills, _ => by
    have whole := fills.whole
    have few := fills.few
    rw [List.length_singleton] at whole
    omega
  | [_, _], padding, fills, small => fills.exists_encode_last small (by simp) (by simp)
  | [_, _, _], padding, fills, small => fills.exists_encode_last small (by simp) (by simp)
  | a :: b :: c :: d :: values, padding, fills, small => by
    have small : ∀ value ∈ [a, b, c, d] ++ values, value < 64 := small
    obtain ⟨group_small, rest_small⟩ := List.forall_mem_append.mp small
    have four : [a, b, c, d].length = 4 := rfl
    have rest : Fills values padding := (fills_append_iff four).mp fills
    obtain ⟨bytes, length, spelled⟩ := rest.exists_encode rest_small
    have below := toNat_lt group_small
    have spelled_group := symbols_toNat group_small
    rw [four] at below spelled_group
    refine ⟨Bytes.ofNatBE 3 (toNat [a, b, c, d]) ++ bytes, ?_, ?_⟩
    · rw [List.length_append, Bytes.length_ofNatBE, length]
      simp only [List.length_cons]
      omega
    · rw [encode_group below, spelled_group, spelled]
      rfl

theorem getLast?_digits (count n : Nat) : (digits (count + 1) n).getLast? = some (n % 64) := by
  induction count with
  | zero => exact congrArg (fun n => some (n % 64)) (Nat.div_one n)
  | succ count ih => rw [digits, List.getLast?_cons, ih, Option.getD_some]

/-- The text of a byte string consists of the symbols of values that fill groups. -/
theorem exists_fills (bytes : Bytes) : ∃ values padding, (∀ value ∈ values, value < 64) ∧
    Fills values padding ∧ bytes.length = 3 * values.length / 4 ∧
      encode bytes = values.map symbol ++ List.replicate padding pad := by
  fun_induction encode bytes with
  | case1 a b c rest ih =>
    obtain ⟨values, padding, small, fills, length, spelled⟩ := ih
    have four := length_digits 4 (Bytes.toNatBE [a, b, c])
    refine ⟨digits 4 (Bytes.toNatBE [a, b, c]) ++ values, padding, ?_,
      (fills_append_iff four).mpr fills, ?_, ?_⟩
    · exact List.forall_mem_append.mpr ⟨fun _ member => lt_of_mem_digits member, small⟩
    · rw [List.length_append, four]
      simp only [List.length_cons, length]
      omega
    · rw [spelled, symbols_eq_map, List.map_append, List.append_assoc]
  | case2 a b =>
    refine ⟨digits 3 (Bytes.toNatBE [a, b] * 4), 1, fun _ member => lt_of_mem_digits member,
      ⟨by decide, by simp, ?_⟩, ?_, ?_⟩
    · rw [getLast?_digits]
      rintro _ ⟨⟩
      omega
    · rw [length_digits]
      rfl
    · rw [symbols_eq_map]
      rfl
  | case3 a =>
    refine ⟨digits 2 (Bytes.toNatBE [a] * 16), 2, fun _ member => lt_of_mem_digits member,
      ⟨by decide, by simp, ?_⟩, ?_, ?_⟩
    · rw [getLast?_digits]
      rintro _ ⟨⟩
      omega
    · rw [length_digits]
      rfl
    · rw [symbols_eq_map]
      rfl
  | case4 => exact ⟨[], 0, List.forall_mem_nil _, fills_nil, rfl, rfl⟩

/-! ## Characters -/

/-- The characters of base64 texts, each at the place of its value. -/
def alphabet : List Char :=
  "ABCDEFGHIJKLMNOPQRSTUVWXYZabcdefghijklmnopqrstuvwxyz0123456789+/".toList

/-- The character of a six-bit value. -/
def character (value : Nat) : Char :=
  Char.ofNat (symbol value).toNat

theorem idxOf_character :
    ∀ value < 64, character value ∈ alphabet ∧ alphabet.idxOf (character value) = value := by
  decide +kernel

theorem map_character_range : (List.range 64).map character = alphabet := by rfl

theorem character_idxOf {c : Char} (known : c ∈ alphabet) :
    alphabet.idxOf c < 64 ∧ character (alphabet.idxOf c) = c := by
  rw [← map_character_range] at known
  obtain ⟨value, small, rfl⟩ := List.mem_map.mp known
  have small := List.mem_range.mp small
  rw [(idxOf_character value small).2]
  exact ⟨small, rfl⟩

theorem map_idxOf_character (small : ∀ value ∈ values, value < 64) :
    (values.map character).map alphabet.idxOf = values := by
  rw [List.map_map]
  refine (List.map_congr_left fun value member => ?_).trans (List.map_id values)
  exact (idxOf_character value (small value member)).2

theorem map_character_idxOf {characters : List Char} (known : ∀ c ∈ characters, c ∈ alphabet) :
    (characters.map alphabet.idxOf).map character = characters := by
  rw [List.map_map]
  refine (List.map_congr_left fun c member => ?_).trans (List.map_id characters)
  exact (character_idxOf (known c member)).2

/-- Characters of the alphabet and padding signs behind them fill groups of four, and the bits
of the last character that belong to no byte are zero. -/
structure Written (characters : List Char) (padding : Nat) : Prop where
  alphabetic : ∀ c ∈ characters, c ∈ alphabet
  fills : Fills (characters.map alphabet.idxOf) padding

theorem toList_encodeText {bytes : Bytes}
    (spelled : encode bytes = values.map symbol ++ List.replicate padding pad) :
    (encodeText bytes).toList = values.map character ++ List.replicate padding '=' := by
  rw [encodeText, String.toList_ofList, spelled, List.map_append, List.map_map,
    List.map_replicate]
  rfl

/-- The texts of byte strings of a size are written with characters for as many bytes, and
padding. -/
theorem exists_eq_encodeText_iff {text : String} {size : Nat} :
    (∃ bytes, bytes.length = size ∧ text = encodeText bytes) ↔
      ∃ characters padding, text.toList = characters ++ List.replicate padding '=' ∧
        Written characters padding ∧ size = 3 * characters.length / 4 := by
  refine ⟨fun spelled => ?_, fun written => ?_⟩
  · obtain ⟨bytes, rfl, rfl⟩ := spelled
    obtain ⟨values, padding, small, fills, length, spelled⟩ := exists_fills bytes
    refine ⟨values.map character, padding, toList_encodeText spelled, ⟨?_, ?_⟩, ?_⟩
    · exact List.forall_mem_map.mpr fun value member =>
        (idxOf_character value (small value member)).1
    · rwa [map_idxOf_character small]
    · rw [List.length_map, length]
  · obtain ⟨characters, padding, whole, written, rfl⟩ := written
    have small : ∀ value ∈ characters.map alphabet.idxOf, value < 64 :=
      List.forall_mem_map.mpr fun c member =>
        (character_idxOf (written.alphabetic c member)).1
    obtain ⟨bytes, length, spelled⟩ := written.fills.exists_encode small
    rw [List.length_map] at length
    refine ⟨bytes, length, String.toList_inj.mp ?_⟩
    rw [toList_encodeText spelled, whole, map_character_idxOf written.alphabetic]

end KeyEnvelope.Base64
