import KeyEnvelope.Range
import KeyEnvelope.Proofs.Outcome
import KeyEnvelope.Proofs.Text.Blank
import KeyEnvelope.Proofs.Text.Decimal

/-!
# The range requests that are read

A range request consists of the unit, a first position, a dash and a last position, with
white space around the whole and around each position (`Requests`).  A position is spelled
by decimal digits alone, and no number past the largest word is one
(`exists_parsePosition_iff`); what the two of them mean together depends on which are there
(`Bounds`).  Nothing else is read, and what is not read is refused with the stripped value
and what is wrong with it (`parse_reads`).
-/

namespace KeyEnvelope.ByteRange

open Text (Strips)

/-! ## Positions -/

/-- A text spells a position: it consists of decimal digits, at least one, and their value
is a word. -/
structure Position (text : List Char) (position : UInt64) : Prop where
  nonempty : text ≠ []
  digits : ∀ c ∈ text, c.isDigit
  value : Nat.ofDigitChars 10 text 0 = position.toNat

theorem parsePosition_eq_ok {text : List Char} {position : UInt64} :
    parsePosition text = .ok position ↔ Position text position := by
  unfold parsePosition
  split
  next refused =>
    refine ⟨nofun, fun spelled => ?_⟩
    rcases refused with empty | stray
    · exact absurd (List.isEmpty_iff.mp empty) spelled.nonempty
    · rw [(Decimal.any_isNone_digit? text).mpr spelled.digits] at stray
      cases stray
  next passed =>
    obtain ⟨nonempty, plain⟩ := not_or.mp passed
    rw [List.isEmpty_iff] at nonempty
    have digits := (Decimal.any_isNone_digit? text).mp (Bool.eq_false_iff.mpr plain)
    have reads {n : Nat} : Decimal.read (UInt64.size - 1) text = .ok n ↔
        Nat.ofDigitChars 10 text 0 = n ∧ n ≤ UInt64.size - 1 := by
      rw [Decimal.read_eq_ok, Decimal.spells_iff_of_isDigit nonempty digits]
    cases read : Decimal.read (UInt64.size - 1) text with
    | ok n =>
      obtain ⟨value, small⟩ := reads.mp read
      have word : (UInt64.ofNat n).toNat = n :=
        UInt64.toNat_ofNat_of_lt' (Nat.lt_of_le_pred (by decide) small)
      refine ⟨fun same => ?_, fun spelled => ?_⟩
      · cases same
        exact ⟨nonempty, digits, value.trans word.symm⟩
      · rw [← UInt64.ofNat_toNat (x := position), ← spelled.value, value]
    | error defect =>
      refine ⟨nofun, fun spelled => ?_⟩
      have fits := Nat.le_sub_one_of_lt position.toNat_lt
      rw [reads.mpr ⟨spelled.value, fits⟩] at read
      cases read

/-- The texts that spell a position are those whose digits do not pass the largest word. -/
theorem exists_parsePosition_iff {text : List Char} :
    (∃ position, parsePosition text = .ok position) ↔
      text ≠ [] ∧ (∀ c ∈ text, c.isDigit) ∧ Nat.ofDigitChars 10 text 0 ≤ UInt64.size - 1 := by
  simp only [parsePosition_eq_ok]
  refine ⟨fun parsed => ?_, fun spelled => ?_⟩
  · obtain ⟨position, spelled⟩ := parsed
    have word := Nat.le_sub_one_of_lt position.toNat_lt
    exact ⟨spelled.nonempty, spelled.digits, spelled.value ▸ word⟩
  · obtain ⟨nonempty, digits, small⟩ := spelled
    have word := UInt64.toNat_ofNat_of_lt' (Nat.lt_of_le_pred (by decide) small)
    exact ⟨UInt64.ofNat _, nonempty, digits, word.symm⟩

theorem ofBounds_eq_ok {start last : UInt64} {range : ByteRange} :
    ofBounds start last = .ok range ↔ start ≤ last ∧ ⟨start, some last⟩ = range := by
  unfold ofBounds
  split
  next inverted =>
    exact ⟨nofun, fun ordered => absurd inverted (UInt64.not_lt.mpr ordered.1)⟩
  next ordered =>
    rw [Except.ok.injEq, and_iff_right (UInt64.not_lt.mp ordered)]

/-! ## Two positions -/

/-- The range that two stripped positions mean for a content of the given length, if known:
all bytes, the last so many, those from a position on, or those between two positions. -/
inductive Bounds (contentLength : Option UInt64) : (first last : List Char) → ByteRange → Prop
  | all : Bounds contentLength [] [] full
  | suffix {last : List Char} {count length start : UInt64} :
    Position last count → contentLength = some length →
    start.toNat = length.toNat - min length.toNat count.toNat →
    Bounds contentLength [] last (startingFrom start)
  | startingFrom {first : List Char} {start : UInt64} :
    Position first start → Bounds contentLength first [] (startingFrom start)
  | between {first last : List Char} {start stop : UInt64} :
    Position first start → Position last stop → start ≤ stop →
    Bounds contentLength first last ⟨start, some stop⟩

theorem toNat_sub_min (length count : UInt64) :
    (length - min length count).toNat = length.toNat - min length.toNat count.toNat := by
  rw [UInt64.toNat_sub_of_le _ _ Std.min_le_left, UInt64.toNat_min]

variable {contentLength : Option UInt64} {first last : List Char} {range : ByteRange}

theorem bounds_of_parseBounds (read : parseBounds contentLength first last = .ok range) :
    Bounds contentLength first last range := by
  unfold parseBounds at read
  split at read
  next =>
    cases read
    exact .all
  next =>
    obtain ⟨count, parsed, read⟩ := Outcome.bind_eq_ok.mp read
    cases contentLength with
    | none => cases read
    | some length =>
      cases read
      exact .suffix (parsePosition_eq_ok.mp parsed) rfl (toNat_sub_min length count)
  next =>
    obtain ⟨start, parsed, read⟩ := Outcome.bind_eq_ok.mp read
    cases read
    exact .startingFrom (parsePosition_eq_ok.mp parsed)
  next =>
    obtain ⟨start, first_parsed, read⟩ := Outcome.bind_eq_ok.mp read
    obtain ⟨stop, last_parsed, read⟩ := Outcome.bind_eq_ok.mp read
    obtain ⟨ordered, rfl⟩ := ofBounds_eq_ok.mp (Outcome.mapError_eq_ok.mp read)
    exact .between (parsePosition_eq_ok.mp first_parsed) (parsePosition_eq_ok.mp last_parsed)
      ordered

theorem parseBounds_of_bounds (bounds : Bounds contentLength first last range) :
    parseBounds contentLength first last = .ok range := by
  cases bounds with
  | all => rfl
  | @suffix _ count length start spelled known start_eq =>
    have start_eq : length - min length count = start :=
      UInt64.toNat_inj.mp ((toNat_sub_min length count).trans start_eq.symm)
    rw [parseBounds, parsePosition_eq_ok.mpr spelled, known, ← start_eq]
    · rfl
    · exact spelled.nonempty
  | startingFrom spelled =>
    rw [parseBounds, parsePosition_eq_ok.mpr spelled]
    · rfl
    · exact spelled.nonempty
  | between first_spelled last_spelled ordered =>
    rw [parseBounds, parsePosition_eq_ok.mpr first_spelled, parsePosition_eq_ok.mpr last_spelled]
    · exact Outcome.mapError_eq_ok.mpr (ofBounds_eq_ok.mpr ⟨ordered, rfl⟩)
    · exact first_spelled.nonempty
    · exact last_spelled.nonempty
    · exact fun empty _ => first_spelled.nonempty empty

/-- Two stripped positions are read as what they mean together. -/
theorem parseBounds_eq_ok :
    parseBounds contentLength first last = .ok range ↔ Bounds contentLength first last range :=
  ⟨bounds_of_parseBounds, parseBounds_of_bounds⟩

/-! ## Whole requests -/

/-- A header asks for a range of a content of the given length, if known: for everything if
it is blank, and else for what its two positions mean, parted by the first dash behind the
unit.  White space around the value and around the positions does not count. -/
inductive Requests (contentLength : Option UInt64) (header : List Char) : ByteRange → Prop
  | blank : Strips header [] → Requests contentLength header full
  | bounds {before behind first last : List Char} {range : ByteRange} :
    Strips header ("bytes=".toList ++ before ++ '-' :: behind) →
    '-' ∉ before → ',' ∉ before → ',' ∉ behind →
    Strips before first → Strips behind last → Bounds contentLength first last range →
    Requests contentLength header range

variable {value header : List Char}

theorem requests_of_parseHeader (stripped : Strips header value)
    (read : parseHeader contentLength value = .ok range) :
    Requests contentLength header range := by
  unfold parseHeader at read
  split at read
  next empty =>
    cases read
    exact .blank (List.isEmpty_iff.mp empty ▸ stripped)
  next =>
    split at read
    next => cases read
    next set unit =>
      split at read
      next => cases read
      next single =>
        split at read
        next => cases read
        next before behind parts =>
          obtain rfl := Text.after?_eq_some_iff.mp unit
          obtain ⟨rfl, no_dash⟩ := Text.cut?_eq_some_iff.mp parts
          rw [← List.append_assoc] at stripped
          rw [List.mem_append, List.mem_cons, not_or, not_or] at single
          exact .bounds stripped no_dash single.1 single.2.2 (Text.strips_trim before)
            (Text.strips_trim behind) (parseBounds_eq_ok.mp read)

/-- Two positions behind the unit are read as what they mean without the white space around
them. -/
theorem parseHeader_parted {before behind : List Char} (no_dash : '-' ∉ before)
    (no_comma : ',' ∉ before) (no_comma' : ',' ∉ behind) :
    parseHeader contentLength ("bytes=".toList ++ before ++ '-' :: behind) =
      parseBounds contentLength (Text.trim before) (Text.trim behind) := by
  have nonempty : ¬ ("bytes=".toList ++ (before ++ '-' :: behind)).isEmpty := by
    rw [List.isEmpty_iff]
    exact List.append_ne_nil_of_left_ne_nil (by decide) _
  have single : ',' ∉ before ++ '-' :: behind := by
    rw [List.mem_append, List.mem_cons, not_or, not_or]
    exact ⟨no_comma, by decide, no_comma'⟩
  have parts : Text.cut? '-' (before ++ '-' :: behind) = some (before, behind) :=
    Text.cut?_eq_some_iff.mpr ⟨rfl, no_dash⟩
  rw [List.append_assoc, parseHeader, if_neg nonempty, Text.after?_eq_some_iff.mpr rfl]
  dsimp only
  rw [if_neg single, parts]

theorem parseHeader_of_requests (stripped : Strips header value)
    (asked : Requests contentLength header range) :
    parseHeader contentLength value = .ok range := by
  have value_eq := Text.trim_eq_iff.mpr stripped
  cases asked with
  | blank empty =>
    rw [← value_eq, Text.trim_eq_iff.mpr empty]
    rfl
  | bounds whole no_dash no_comma no_comma' front back bounds =>
    rw [← value_eq, Text.trim_eq_iff.mpr whole, parseHeader_parted no_dash no_comma no_comma',
      Text.trim_eq_iff.mpr front, Text.trim_eq_iff.mpr back]
    exact parseBounds_eq_ok.mpr bounds

/-- A header is read as a range exactly if it asks for that range.  One that asks for none is
refused, with its stripped value quoted. -/
theorem parse_reads (header : String) (contentLength : Option UInt64) :
    (∀ range, parse header contentLength = .ok range ↔
      Requests contentLength header.toList range) ∧
    ((∃ range, Requests contentLength header.toList range) ∨
      ∃ value defect, Strips header.toList value ∧
        parse header contentLength = .error (.request (String.ofList value) defect)) := by
  have stripped := Text.strips_trim header.toList
  have reads : ∀ range, parse header contentLength = .ok range ↔
      Requests contentLength header.toList range := by
    intro range
    rw [parse, Outcome.mapError_eq_ok]
    exact ⟨requests_of_parseHeader stripped, parseHeader_of_requests stripped⟩
  refine ⟨reads, ?_⟩
  cases outcome : parse header contentLength with
  | ok range => exact .inl ⟨range, (reads range).mp outcome⟩
  | error cause =>
    obtain ⟨defect, -, quoted⟩ := Outcome.mapError_eq_error.mp outcome
    exact .inr ⟨Text.trim header.toList, defect, stripped, congrArg _ quoted.symm⟩

/-- Zeros in front and white space around a position do not count, the largest word is a
position, and a number with a sign is none. -/
theorem parse_reads_largest :
    Requests none "bytes= 007 -18446744073709551615".toList ⟨7, some 18446744073709551615⟩ ∧
      ∀ range, ¬ Requests none "bytes=+1-2".toList range := by
  have largest : parse "bytes= 007 -18446744073709551615" none =
      .ok ⟨7, some 18446744073709551615⟩ := by decide
  have signed : parse "bytes=+1-2" none = .error (.request "bytes=+1-2" .notDigits) := by decide
  refine ⟨((parse_reads _ none).1 _).mp largest, fun range asked => ?_⟩
  have read := ((parse_reads _ none).1 range).mpr asked
  rw [signed] at read
  cases read

end KeyEnvelope.ByteRange
