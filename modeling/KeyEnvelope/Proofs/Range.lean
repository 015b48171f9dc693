import KeyEnvelope.Range

/-!
# The bytes of a range

A range cuts a content down to what lies before its end and behind its start
(`slice_eq_take`), and the limit of its reader is as large as the range, as far as a
word can say (`limit_of_last`, `limit_of_open`).  Only a range whose end comes before its
start has a limit that says nothing (`limit_of_inverted`), and lets out what lies outside
of it (`take_limit_prefix_slice_iff`).
-/

namespace KeyEnvelope.ByteRange

/-- The end does not come before the start. -/
def Ordered (range : ByteRange) : Prop :=
  ∀ last, range.last = some last → range.start ≤ last

/-- Where a range ends in a content of the given length. -/
def stop (range : ByteRange) (length : Nat) : Nat :=
  match range.last with
  | some last => min length (last.toNat + 1)
  | none => length

theorem stop_le (range : ByteRange) (length : Nat) : range.stop length ≤ length := by
  unfold stop
  split
  · exact Nat.min_le_left ..
  · exact Nat.le_refl _

variable {range : ByteRange}

theorem limit_of_open (unbounded : range.last = none) : range.limit = UInt64.size - 1 := by
  unfold limit length?
  rw [unbounded]
  rfl

theorem limit_of_last {last : UInt64} (bounded : range.last = some last)
    (ordered : range.start ≤ last) :
    range.limit = min (last.toNat - range.start.toNat + 1) (UInt64.size - 1) := by
  have in_order : ¬ last < range.start := by rwa [UInt64.not_lt]
  have fits : min (last.toNat - range.start.toNat + 1) (UInt64.size - 1) < UInt64.size :=
    Nat.lt_of_le_of_lt (Nat.min_le_right ..) (by decide)
  unfold limit length?
  rw [bounded]
  dsimp only
  rw [if_neg in_order, Option.getD_some, UInt64.toNat_ofNat', Nat.mod_eq_of_lt fits]

theorem limit_of_inverted {last : UInt64} (bounded : range.last = some last)
    (inverted : last < range.start) : range.limit = UInt64.size - 1 := by
  unfold limit length?
  rw [bounded]
  dsimp only
  rw [if_pos inverted]
  rfl

/-- The bytes of a range are those behind its start up to its end. -/
theorem slice_eq_take (range : ByteRange) (content : Bytes) :
    range.slice content =
      (content.drop range.start.toNat).take (range.stop content.length - range.start.toNat) := by
  unfold slice stop
  rw [← List.drop_take]
  cases range.last with
  | none =>
    dsimp only
    rw [List.take_length]
  | some last =>
    dsimp only
    rw [Nat.min_comm, ← List.take_eq_take_min]

/-- A reader that ends at the limit of a range, and holds at least what the range does,
gives out the bytes of the range. -/
theorem take_limit (ordered : range.Ordered) {content : Bytes}
    (short : content.length < UInt64.size) {count : Nat}
    (reaches : range.stop content.length ≤ range.start.toNat + count) :
    ((content.drop range.start.toNat).take count).take range.limit = range.slice content := by
  rw [slice_eq_take, List.take_take, List.take_eq_take_iff, List.length_drop]
  unfold stop at reaches ⊢
  cases bounded : range.last with
  | none =>
    have limit := limit_of_open bounded
    rw [bounded] at reaches
    dsimp only at reaches ⊢
    omega
  | some last =>
    have in_order := ordered last bounded
    have limit := limit_of_last bounded in_order
    rw [UInt64.le_iff_toNat_le] at in_order
    rw [bounded] at reaches
    dsimp only at reaches ⊢
    omega

/-! ## Staying inside a range -/

/-- What is given out of a content lies inside a range that ends at `last`: it is no
longer than the range, and each byte is the one of the content at its place behind the
start, which is not behind the end. -/
structure Admits (range : ByteRange) (last : UInt64) (content bytes : Bytes) : Prop where
  length_le : bytes.length ≤ last.toNat + 1 - range.start.toNat
  placed : ∀ i (inside : i < bytes.length),
    range.start.toNat + i ≤ last.toNat ∧ content[range.start.toNat + i]? = some bytes[i]

theorem slice_of_last {last : UInt64} (bounded : range.last = some last) (content : Bytes) :
    range.slice content =
      (content.drop range.start.toNat).take (last.toNat + 1 - range.start.toNat) := by
  unfold slice
  rw [bounded, List.drop_take]

/-- What lies inside a range is a beginning of the bytes of the range. -/
theorem admits_iff {last : UInt64} (bounded : range.last = some last) (content bytes : Bytes) :
    range.Admits last content bytes ↔ bytes <+: range.slice content := by
  rw [slice_of_last bounded, List.prefix_take_iff, List.prefix_iff_getElem?]
  simp only [List.getElem?_drop]
  refine ⟨fun admits => ⟨fun i inside => (admits.placed i inside).2, admits.length_le⟩,
    fun part => ⟨part.2, fun i inside => ⟨?_, part.1 i inside⟩⟩⟩
  have short := part.2
  omega

/-- A reader that ends at the limit of a range, and holds some of the content behind the
start, stays inside the range exactly if the range is in order or nothing is held. -/
theorem take_limit_prefix_slice_iff {last : UInt64} (bounded : range.last = some last)
    {content : Bytes} {count : Nat} (held : count ≤ content.length - range.start.toNat) :
    ((content.drop range.start.toNat).take count).take range.limit <+: range.slice content ↔
      range.start ≤ last ∨ count = 0 := by
  have part : ((content.drop range.start.toNat).take count).take range.limit <+:
      content.drop range.start.toNat :=
    (List.take_prefix ..).trans (List.take_prefix ..)
  rw [slice_of_last bounded, List.prefix_take_iff, and_iff_right part, List.length_take,
    List.length_take, List.length_drop]
  rcases UInt64.lt_or_le last range.start with inverted | ordered
  · have limit := limit_of_inverted bounded inverted
    have size : 0 < UInt64.size - 1 := by decide
    rw [UInt64.lt_iff_toNat_lt] at inverted
    rw [UInt64.le_iff_toNat_le]
    omega
  · have limit := limit_of_last bounded ordered
    have in_order := UInt64.le_iff_toNat_le.mp ordered
    rw [iff_true_intro ordered, true_or, iff_true]
    omega

end KeyEnvelope.ByteRange
