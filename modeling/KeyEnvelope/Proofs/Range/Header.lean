import Mathlib.Order.Bounds.Defs
import KeyEnvelope.Proofs.Keystream
import KeyEnvelope.Proofs.Range
import KeyEnvelope.Proofs.Range.Request

/-!
# Ranges written as headers

A range is written as the digits of its positions behind the unit, and nothing in its header is
white space (`not_isBlank_toHeader`).  So the header reads as the range that was written, unless
the end of that range comes before its start (`parseBounds_numerals`).  A range in order stays so
from the start of its block on, and goes through its header in the same way (`parse_toHeader`).
-/

namespace KeyEnvelope

/-! ## Starts of blocks -/

theorem blockStart_le (offset : UInt64) : blockStart offset ≤ offset := by
  rw [UInt64.le_iff_toNat_le, Counter.toNat_blockStart]
  exact Nat.mul_div_le ..

theorem blockStart_blockStart (offset : UInt64) :
    blockStart (blockStart offset) = blockStart offset := by
  rw [← UInt64.toNat_inj]
  simp only [Counter.toNat_blockStart]
  omega

theorem isGreatest_blockStart (offset : UInt64) :
    IsGreatest {position : Nat | 16 ∣ position ∧ position ≤ offset.toNat}
      (blockStart offset).toNat := by
  rw [Counter.toNat_blockStart]
  refine ⟨⟨Nat.dvd_mul_right .., Nat.mul_div_le ..⟩, ?_⟩
  rintro _ ⟨⟨index, rfl⟩, below⟩
  omega

namespace ByteRange

/-! ## Positions as text -/

/-- The digits of a position. -/
def numeral (position : UInt64) : List Char :=
  Nat.toDigits 10 position.toNat

/-- The digits of the last position of a range, none if it has no end. -/
def lastNumeral (range : ByteRange) : List Char :=
  match range.last with
  | some last => numeral last
  | none => []

theorem isDigit_numeral (position : UInt64) : ∀ c ∈ numeral position, c.isDigit :=
  fun _ member => Nat.isDigit_of_mem_toDigits (by decide) (by decide) member

theorem position_numeral (position : UInt64) : Position (numeral position) position where
  nonempty := Nat.toDigits_ne_nil
  digits := isDigit_numeral position
  value := Nat.ofDigitChars_ten_toDigits

theorem isDigit_lastNumeral (range : ByteRange) : ∀ c ∈ range.lastNumeral, c.isDigit := by
  unfold lastNumeral
  cases range.last with
  | none => nofun
  | some last => exact isDigit_numeral last

theorem toList_toHeader (range : ByteRange) :
    range.toHeader.toList = "bytes=".toList ++ numeral range.start ++ '-' :: range.lastNumeral := by
  have digits (n : Nat) : (toString n).toList = Nat.toDigits 10 n := by
    rw [Nat.toString_eq_ofList_toDigits, String.toList_ofList]
  unfold toHeader lastNumeral
  cases range.last with
  | none =>
    simp only [String.toList_append, digits]
    rfl
  | some last =>
    simp only [String.toList_append, digits, List.append_assoc]
    rfl

theorem not_isBlank_toHeader (range : ByteRange) :
    ∀ c ∈ range.toHeader.toList, ¬ Text.isBlank c := by
  have unit : ("bytes=".toList.any Text.isBlank) = false := by decide
  have dash : ¬ Text.isBlank '-' := by decide
  intro c member
  rw [toList_toHeader] at member
  simp only [List.mem_append, List.mem_cons] at member
  obtain (lead | first) | rfl | last := member
  · exact List.any_eq_false.mp unit c lead
  · exact Text.not_isBlank_of_isDigit (isDigit_numeral range.start c first)
  · exact dash
  · exact Text.not_isBlank_of_isDigit (range.isDigit_lastNumeral c last)

/-! ## Reading what was written -/

variable {contentLength : Option UInt64}

theorem parseBounds_of_inverted {first last : List Char} {start stop : UInt64}
    (first_spelled : Position first start) (last_spelled : Position last stop)
    (inverted : stop < start) :
    parseBounds contentLength first last = .error .endPrecedesStart := by
  rw [parseBounds, parsePosition_eq_ok.mpr first_spelled, parsePosition_eq_ok.mpr last_spelled]
  · change (ofBounds start stop).mapError _ = _
    rw [ofBounds, if_pos inverted]
    rfl
  · exact first_spelled.nonempty
  · exact last_spelled.nonempty
  · exact fun empty _ => first_spelled.nonempty empty

theorem parseBounds_numerals {range : ByteRange} :
    (range.Ordered →
      parseBounds contentLength (numeral range.start) range.lastNumeral = .ok range) ∧
    (¬ range.Ordered →
      parseBounds contentLength (numeral range.start) range.lastNumeral =
        .error .endPrecedesStart) := by
  obtain ⟨start, last⟩ := range
  have first := position_numeral start
  cases last with
  | none =>
    have ordered : (⟨start, none⟩ : ByteRange).Ordered := nofun
    exact ⟨fun _ => parseBounds_of_bounds (.startingFrom first), fun never => absurd ordered never⟩
  | some stop =>
    refine ⟨fun ordered => ?_, fun inverted => ?_⟩
    · exact parseBounds_of_bounds (.between first (position_numeral stop) (ordered stop rfl))
    · refine parseBounds_of_inverted first (position_numeral stop) ?_
      by_contra in_order
      refine inverted fun last same => ?_
      cases same
      exact UInt64.not_lt.mp in_order

/-- The header of a range is taken apart as it was put together. -/
theorem parseHeader_toHeader (range : ByteRange) :
    parseHeader contentLength range.toHeader.toList =
      parseBounds contentLength (numeral range.start) range.lastNumeral := by
  have stray {c : Char} (other : ¬ c.isDigit) {text : List Char}
      (digits : ∀ c ∈ text, c.isDigit) : c ∉ text := fun member => other (digits c member)
  have first := isDigit_numeral range.start
  have last := range.isDigit_lastNumeral
  rw [toList_toHeader, parseHeader_parted (stray (by decide) first) (stray (by decide) first)
      (stray (by decide) last),
    Text.trim_of_not_isBlank fun c member => Text.not_isBlank_of_isDigit (first c member),
    Text.trim_of_not_isBlank fun c member => Text.not_isBlank_of_isDigit (last c member)]

/-- White space around the header of a range does not count. -/
theorem parse_surrounded (range : ByteRange) {before after : String}
    (front : before.toList.all Text.isBlank) (back : after.toList.all Text.isBlank) :
    parse (before ++ range.toHeader ++ after) contentLength =
      (parseBounds contentLength (numeral range.start) range.lastNumeral).mapError
        (.request range.toHeader) := by
  have value : Text.trim (before ++ range.toHeader ++ after).toList = range.toHeader.toList := by
    rw [String.toList_append, String.toList_append]
    exact Text.trim_surrounded front back range.not_isBlank_toHeader
  rw [parse, value, parseHeader_toHeader, String.ofList_toList]

theorem parse_written (range : ByteRange) :
    parse range.toHeader contentLength =
      (parseBounds contentLength (numeral range.start) range.lastNumeral).mapError
        (.request range.toHeader) := by
  have alone := @parse_surrounded contentLength range "" "" rfl rfl
  rwa [String.empty_append, String.append_empty] at alone

/-! ## Whole headers -/

theorem Ordered.blockAligned {range : ByteRange} (ordered : range.Ordered) :
    range.blockAligned.Ordered :=
  fun last bounded => UInt64.le_trans (blockStart_le range.start) (ordered last bounded)

/-- The header of a range reads as that range unless its end comes before its start, which is
then refused, whatever the length of the content and whatever white space is around it.  A range
in order stays so from the start of its block on, which is the greatest multiple of the size of
blocks up to its start. -/
theorem parse_toHeader (range : ByteRange) (contentLength : Option UInt64) :
    (range.Ordered → parse range.toHeader contentLength = .ok range) ∧
    (¬ range.Ordered → parse range.toHeader contentLength =
      .error (.request range.toHeader .endPrecedesStart)) ∧
    (∀ before after : String, before.toList.all Text.isBlank → after.toList.all Text.isBlank →
      parse (before ++ range.toHeader ++ after) contentLength =
        parse range.toHeader contentLength) ∧
    (range.Ordered → range.blockAligned.Ordered ∧
      parse range.blockAligned.toHeader contentLength = .ok range.blockAligned) ∧
    IsGreatest {position : Nat | 16 ∣ position ∧ position ≤ range.start.toNat}
      range.blockAligned.start.toNat ∧
    range.blockAligned.blockAligned = range.blockAligned := by
  have reads (written : ByteRange) (ordered : written.Ordered) :
      parse written.toHeader contentLength = .ok written := by
    rw [parse_written, parseBounds_numerals.1 ordered]
    rfl
  refine ⟨reads range, fun inverted => ?_, fun before after front back => ?_, fun ordered => ?_,
    isGreatest_blockStart range.start, ?_⟩
  · rw [parse_written, parseBounds_numerals.2 inverted]
    rfl
  · rw [parse_surrounded range front back, parse_written]
  · exact ⟨ordered.blockAligned, reads _ ordered.blockAligned⟩
  · rw [blockAligned, blockAligned, blockStart_blockStart]

/-- The largest position goes through its header, an end before the start is refused within
white space too, and a range begun inside a block through the header of the range from the
start of the block. -/
theorem parse_toHeader_largest :
    parse "bytes=0-18446744073709551615" none = .ok ⟨0, some 18446744073709551615⟩ ∧
      parse "\t bytes=9-3\n" (some 35) = .error (.request "bytes=9-3" .endPrecedesStart) ∧
      parse "bytes=16-27" none = .ok ⟨16, some 27⟩ := by
  have whole : Ordered ⟨0, some 18446744073709551615⟩ := by
    rintro _ ⟨⟩
    decide
  have inside : Ordered ⟨18, some 27⟩ := by
    rintro _ ⟨⟩
    decide
  have inverted : ¬ Ordered ⟨9, some 3⟩ := fun ordered => absurd (ordered 3 rfl) (by decide)
  obtain ⟨reads, -⟩ := parse_toHeader ⟨0, some 18446744073709551615⟩ none
  obtain ⟨-, refuses, alike, -⟩ := parse_toHeader ⟨9, some 3⟩ (some 35)
  obtain ⟨-, -, -, aligned, -⟩ := parse_toHeader ⟨18, some 27⟩ none
  refine ⟨reads whole, ?_, (aligned inside).2⟩
  exact (alike "\t " "\n" (by decide) (by decide)).trans (refuses inverted)

end ByteRange

end KeyEnvelope
