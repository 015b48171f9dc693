import KeyEnvelope.Proofs.Range
import KeyEnvelope.Proofs.Range.Request

/-!
# Range requests that leave no byte

A request in good form leaves no byte of a content if its first position lies behind the
content, or if it asks for the last zero bytes (`AsksForNothing`).  The length of the content
is known where a request is read, but is looked at only for the last bytes: requests that
leave no byte are read like the others, and they are the only ones whose range begins behind
the content (`start_lt_iff_of_parse`).
-/

namespace KeyEnvelope.ByteRange

open Text (Strips)

variable {length : UInt64} {range : ByteRange}

/-! ## What a range leaves of a content -/

/-- A range in order has bytes in every content that goes on behind its start. -/
theorem slice_ne_nil_iff (ordered : range.Ordered) (content : Bytes) :
    range.slice content ≠ [] ↔ range.start.toNat < content.length := by
  rw [slice_eq_take, ← List.length_pos_iff, List.length_take, List.length_drop]
  unfold stop
  cases bounded : range.last with
  | none =>
    dsimp only
    omega
  | some last =>
    have in_order := UInt64.le_iff_toNat_le.mp (ordered last bounded)
    dsimp only
    omega

theorem ordered_startingFrom (start : UInt64) : (startingFrom start).Ordered := nofun

/-- What two positions mean is in order. -/
theorem Bounds.ordered {contentLength : Option UInt64} {first last : List Char}
    (bounds : Bounds contentLength first last range) : range.Ordered := by
  cases bounds with
  | all => exact ordered_startingFrom 0
  | suffix => exact ordered_startingFrom _
  | startingFrom => exact ordered_startingFrom _
  | between _ _ in_order =>
    intro last bounded
    cases bounded
    exact in_order

/-! ## Requests that leave nothing -/

/-- Two stripped positions in good form leave no byte of a content of the given length: the
first of them lies behind the content, or they mean its last zero bytes. -/
inductive Void (length : UInt64) : (first last : List Char) → Prop
  | startingFrom {first : List Char} {start : UInt64} :
    Position first start → length ≤ start → Void length first []
  | between {first last : List Char} {start stop : UInt64} :
    Position first start → Position last stop → start ≤ stop → length ≤ start →
    Void length first last
  | suffix {last : List Char} : Position last 0 → Void length [] last

/-- A header consists of the unit and two positions, parted by the first dash, with white space
around the value and around each position. -/
def Parted (header first last : List Char) : Prop :=
  ∃ before behind, Strips header ("bytes=".toList ++ before ++ '-' :: behind) ∧
    '-' ∉ before ∧ ',' ∉ before ∧ ',' ∉ behind ∧ Strips before first ∧ Strips behind last

/-- A header in good form leaves no byte of a content of the given length. -/
def AsksForNothing (length : UInt64) (header : List Char) : Prop :=
  ∃ first last, Parted header first last ∧ Void length first last

/-- Positions that leave no byte mean a range that begins behind the content. -/
theorem Void.exists_bounds {first last : List Char} (void : Void length first last) :
    ∃ range, Bounds (some length) first last range ∧ length ≤ range.start := by
  cases void with
  | startingFrom spelled behind => exact ⟨_, .startingFrom spelled, behind⟩
  | between spelled last_spelled ordered behind =>
    exact ⟨_, .between spelled last_spelled ordered, behind⟩
  | suffix spelled =>
    have all : length.toNat = length.toNat - min length.toNat (0 : UInt64).toNat := by
      rw [UInt64.toNat_zero, Nat.min_zero, Nat.sub_zero]
    exact ⟨_, .suffix spelled rfl all, UInt64.le_refl _⟩

/-- Positions that mean a range behind a content that is not empty leave no byte of it. -/
theorem Bounds.void (positive : 0 < length) {first last : List Char}
    (bounds : Bounds (some length) first last range) (behind : length ≤ range.start) :
    Void length first last := by
  rw [UInt64.lt_iff_toNat_lt, UInt64.toNat_zero] at positive
  cases bounds with
  | all =>
    rw [UInt64.le_iff_toNat_le] at behind
    exact absurd behind (Nat.not_le.mpr positive)
  | startingFrom spelled => exact .startingFrom spelled behind
  | between spelled last_spelled ordered => exact .between spelled last_spelled ordered behind
  | @suffix _ count known start spelled same start_eq =>
    cases same
    rw [UInt64.le_iff_toNat_le] at behind
    have none : count = 0 := by
      rw [← UInt64.toNat_inj, UInt64.toNat_zero]
      change length.toNat ≤ start.toNat at behind
      omega
    exact .suffix (none ▸ spelled)

/-! ## Whole headers -/

variable {contentLength : Option UInt64} {header : List Char}

/-- A header asks for a range if it is blank, for all bytes, or if its two positions mean the
range. -/
theorem requests_iff : Requests contentLength header range ↔
    (Strips header [] ∧ range = full) ∨
      ∃ first last, Parted header first last ∧ Bounds contentLength first last range := by
  refine ⟨fun asked => ?_, fun either => ?_⟩
  · cases asked with
    | blank empty => exact .inl ⟨empty, rfl⟩
    | bounds whole no_dash no_comma no_comma' front back bounds =>
      exact .inr ⟨_, _, ⟨_, _, whole, no_dash, no_comma, no_comma', front, back⟩, bounds⟩
  · obtain ⟨empty, rfl⟩ | ⟨first, last, parted, bounds⟩ := either
    · exact .blank empty
    · obtain ⟨before, behind, whole, no_dash, no_comma, no_comma', front, back⟩ := parted
      exact .bounds whole no_dash no_comma no_comma' front back bounds

theorem parse_eq_ok {header : String} :
    parse header contentLength = .ok range ↔ Requests contentLength header.toList range := by
  have stripped := Text.strips_trim header.toList
  rw [parse, Outcome.mapError_eq_ok]
  exact ⟨requests_of_parseHeader stripped, parseHeader_of_requests stripped⟩

theorem Requests.ordered (asked : Requests contentLength header range) : range.Ordered := by
  obtain ⟨-, rfl⟩ | ⟨_, _, -, bounds⟩ := requests_iff.mp asked
  · exact ordered_startingFrom 0
  · exact bounds.ordered

/-- A header that leaves no byte asks for a range behind the content. -/
theorem AsksForNothing.exists_requests (nothing : AsksForNothing length header) :
    ∃ range, Requests (some length) header range ∧ length ≤ range.start := by
  obtain ⟨first, last, parted, void⟩ := nothing
  obtain ⟨range, bounds, behind⟩ := void.exists_bounds
  exact ⟨range, requests_iff.mpr (.inr ⟨first, last, parted, bounds⟩), behind⟩

/-- A header that asks for a range behind a content that is not empty leaves no byte of it. -/
theorem Requests.asksForNothing (positive : 0 < length)
    (asked : Requests (some length) header range) (behind : length ≤ range.start) :
    AsksForNothing length header := by
  obtain ⟨-, rfl⟩ | ⟨first, last, parted, bounds⟩ := requests_iff.mp asked
  · exact absurd behind (UInt64.not_le.mpr positive)
  · exact ⟨first, last, parted, bounds.void positive behind⟩

/-- A range that is read for a content that is not empty begins inside the content, and so
has bytes of it, exactly if the request does not leave none.  One that leaves none is read all
the same, as a range behind the content. -/
theorem start_lt_iff_of_parse (header : String) {length : UInt64} (positive : 0 < length) :
    (∀ range, parse header (some length) = .ok range →
      (range.start < length ↔ ¬ AsksForNothing length header.toList) ∧
      ∀ content : Bytes, content.length = length.toNat →
        (range.slice content ≠ [] ↔ range.start < length)) ∧
    (AsksForNothing length header.toList →
      ∃ range, parse header (some length) = .ok range ∧ length ≤ range.start) := by
  have read_behind (nothing : AsksForNothing length header.toList) :
      ∃ range, parse header (some length) = .ok range ∧ length ≤ range.start := by
    obtain ⟨range, asked, behind⟩ := nothing.exists_requests
    exact ⟨range, parse_eq_ok.mpr asked, behind⟩
  refine ⟨fun range read => ?_, read_behind⟩
  have asked := parse_eq_ok.mp read
  refine ⟨⟨fun inside nothing => ?_, fun something => ?_⟩, fun content whole => ?_⟩
  · -- A header is read as one range only, so the one behind the content is this one.
    obtain ⟨other, read', behind⟩ := read_behind nothing
    cases read.symm.trans read'
    exact UInt64.not_lt.mpr behind inside
  · by_contra behind
    exact something (asked.asksForNothing positive (UInt64.not_lt.mp behind))
  · rw [slice_ne_nil_iff asked.ordered, whole, UInt64.lt_iff_toNat_lt]

/-- Of 35 bytes the last one is left, and none behind them. -/
theorem start_lt_iff_of_parse_last_byte :
    ¬ AsksForNothing 35 "bytes=-1".toList ∧
      ∃ range, parse "bytes= 35 -40" (some 35) = .ok range ∧ 35 ≤ range.start := by
  have last_byte : parse "bytes=-1" (some 35) = .ok ⟨34, none⟩ := by decide
  have parted : Parted "bytes= 35 -40".toList "35".toList "40".toList :=
    ⟨" 35 ".toList, "40".toList, Text.trim_eq_iff.mp (by decide), by decide, by decide, by decide,
      Text.trim_eq_iff.mp (by decide), Text.trim_eq_iff.mp (by decide)⟩
  have first : Position "35".toList 35 := parsePosition_eq_ok.mp (by decide)
  have last : Position "40".toList 40 := parsePosition_eq_ok.mp (by decide)
  have void : Void 35 "35".toList "40".toList := .between first last (by decide) (by decide)
  refine ⟨((start_lt_iff_of_parse "bytes=-1" (by decide)).1 _ last_byte).1.mp (by decide), ?_⟩
  exact (start_lt_iff_of_parse "bytes= 35 -40" (by decide)).2 ⟨_, _, parted, void⟩

/-- A range that is read for a content can lie behind it, and requests that leave no byte of
a content are not refused. -/
theorem not_start_lt_of_parse :
    (¬ ∀ (header : String) (length : UInt64) (range : ByteRange), 0 < length →
      parse header (some length) = .ok range → range.start < length) ∧
    ¬ ∀ (header : String) (length : UInt64), 0 < length → AsksForNothing length header.toList →
      ∃ cause, parse header (some length) = .error cause := by
  have read : parse "bytes=-0" (some 1) = .ok ⟨1, none⟩ := by decide
  have parted : Parted "bytes=-0".toList [] ['0'] :=
    ⟨[], ['0'], Text.trim_eq_iff.mp (by decide), by decide, by decide, by decide,
      Text.trim_eq_iff.mp (by decide), Text.trim_eq_iff.mp (by decide)⟩
  have void : Void 1 [] ['0'] := .suffix (parsePosition_eq_ok.mp (by decide))
  refine ⟨fun inside => ?_, fun refused => ?_⟩
  · exact absurd (inside _ 1 _ (by decide) read) (by decide)
  · obtain ⟨cause, failed⟩ := refused _ 1 (by decide) ⟨_, _, parted, void⟩
    cases read.symm.trans failed

end KeyEnvelope.ByteRange
