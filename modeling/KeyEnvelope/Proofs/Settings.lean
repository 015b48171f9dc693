import KeyEnvelope.Settings.Basic
import KeyEnvelope.Proofs.Outcome
import KeyEnvelope.Proofs.Text.Blank
import KeyEnvelope.Proofs.Text.Decimal

/-!
# Settings and their texts

Settings are valid if the key name is not empty, a fixed layout has room for a wrapped key and the
cipher has keys of their size (`Settings.Valid`, `Settings.validate_eq_ok`).  A text names a
layout by the word for it or by a length (`ContextFormat.parse_eq_ok`), and a key size by its
number (`Settings.parseKeyBits_eq_ok`), with white space around.
-/

namespace KeyEnvelope

open Text (Strips isBlank)

/-! ## Valid settings -/

namespace Settings

variable {settings : Settings}

/-- Settings that an engine can encrypt with. -/
structure Valid (settings : Settings) : Prop where
  named : settings.defaultKeyName ≠ ""
  room : settings.contextFormat ≠ .fixed 0
  sized : settings.keySizeBits = 128 ∨ settings.keySizeBits = 192 ∨ settings.keySizeBits = 256

/-- All ways in which a check of settings can end. -/
theorem validate_cases (settings : Settings) :
    (settings.validate = .error (.unsupportedKeyBits settings.keySizeBits) ∧
      ¬ (settings.keySizeBits = 128 ∨ settings.keySizeBits = 192 ∨ settings.keySizeBits = 256)) ∨
    (settings.validate = .error .emptyKeyName ∧ settings.defaultKeyName = "") ∨
    (settings.validate = .error .zeroWrappedKeyLength ∧ settings.contextFormat = .fixed 0) ∨
    (settings.validate = .ok () ∧ settings.Valid) := by
  unfold validate
  split
  next unknown => exact .inl ⟨rfl, by omega⟩
  next known =>
    split
    next empty => exact .inr (.inl ⟨rfl, empty⟩)
    next named =>
      split
      next none => exact .inr (.inr (.inl ⟨rfl, none⟩))
      next room => exact .inr (.inr (.inr ⟨rfl, named, room, by omega⟩))

theorem validate_eq_ok : settings.validate = .ok () ↔ settings.Valid := by
  obtain ⟨failed, unknown⟩ | ⟨failed, empty⟩ | ⟨failed, none⟩ | ⟨passed, valid⟩ :=
    validate_cases settings
  · rw [failed]
    exact ⟨nofun, fun valid => absurd valid.sized unknown⟩
  · rw [failed]
    exact ⟨nofun, fun valid => absurd empty valid.named⟩
  · rw [failed]
    exact ⟨nofun, fun valid => absurd none valid.room⟩
  · exact ⟨fun _ => valid, fun _ => passed⟩

/-- Valid settings have a key length of the cipher. -/
theorem isKeyLength_of_validate (valid : settings.validate = .ok ()) :
    Aes.IsKeyLength settings.keyLength := by
  have sized := (validate_eq_ok.mp valid).sized
  unfold Aes.IsKeyLength keyLength
  omega

/-- A fixed layout of valid settings has room for a wrapped key. -/
theorem contextFormat_ne_of_validate (valid : settings.validate = .ok ()) :
    settings.contextFormat ≠ .fixed 0 :=
  (validate_eq_ok.mp valid).room

end Settings

/-! ## Layouts -/

namespace ContextFormat

/-- A text names a layout: the one with the length in front by its word, in any case of letters,
and a fixed one by a decimal number behind a keyword.  White space around the text and
in front of the length does not count. -/
inductive Named (text : List Char) : ContextFormat → Prop
  | lengthPrefixed {name : List Char} :
    Strips text name → name.map Char.toLower = "length-prefixed".toList →
    Named text .lengthPrefixed
  | fixed {blank numeral : List Char} {length : Nat} :
    Strips text ("fixed:".toList ++ blank ++ numeral) → blank.all isBlank →
    Decimal.Spells numeral length → length ≤ Settings.maxNumber → Named text (.fixed length)

/-- All ways in which the reading of a layout can end: a text is a word, or a keyword with a length
behind it, or neither, and what is wrong is quoted. -/
theorem parse_cases (text : String) :
    (∃ format, parse text = .ok format ∧ Named text.toList format) ∨
    (∃ length defect, parse text = .error (.fixedLength (String.ofList length) defect) ∧
      Strips text.toList ("fixed:".toList ++ length)) ∨
    ∃ name, parse text = .error (.unknownFormat (String.ofList name)) ∧
      Strips text.toList name := by
  have stripped := Text.strips_trim text.toList
  unfold parse
  dsimp only
  split
  next word => exact .inl ⟨_, rfl, .lengthPrefixed stripped word⟩
  next =>
    split
    next length keyword =>
      rw [Text.after?_eq_some_iff.mp keyword] at stripped
      cases read : Decimal.read Settings.maxNumber (Text.trim length) with
      | error defect => exact .inr (.inl ⟨length, defect, rfl, stripped⟩)
      | ok number =>
        obtain ⟨blank, blank_all, length_eq⟩ := Text.exists_blank_append_trim stripped
        obtain ⟨spells, fits⟩ := Decimal.read_eq_ok.mp read
        rw [length_eq, ← List.append_assoc] at stripped
        exact .inl ⟨_, rfl, .fixed stripped blank_all spells fits⟩
    next => exact .inr (.inr ⟨_, rfl, stripped⟩)

theorem named_of_parse {text : String} {format : ContextFormat}
    (parsed : parse text = .ok format) : Named text.toList format := by
  obtain ⟨found, read, named⟩ | ⟨_, _, failed, -⟩ | ⟨_, failed, -⟩ := parse_cases text
  · cases read.symm.trans parsed
    exact named
  · cases failed.symm.trans parsed
  · cases failed.symm.trans parsed

theorem parse_of_named {text : String} {format : ContextFormat}
    (named : Named text.toList format) : parse text = .ok format := by
  cases named with
  | lengthPrefixed stripped word =>
    rw [parse, Text.trim_eq_iff.mpr stripped, if_pos word]
  | @fixed blank numeral length stripped front spells fits =>
    have other : ("fixed:".toList ++ (blank ++ numeral)).map Char.toLower ≠
        "length-prefixed".toList := by
      intro same
      have letter : 'f' = 'l' := (List.cons.inj same).1
      exact absurd letter (by decide)
    have inside : ∀ c ∈ numeral, ¬ isBlank c := by
      have sign : ¬ isBlank '+' := by decide
      intro c member
      rcases spells.mem member with rfl | digit
      · exact sign
      · exact Text.not_isBlank_of_isDigit digit
    have bare := @Text.trim_surrounded blank numeral [] front rfl inside
    rw [List.append_nil] at bare
    rw [parse, Text.trim_eq_iff.mpr stripped, List.append_assoc, if_neg other,
      Text.after?_eq_some_iff.mpr rfl]
    dsimp only
    rw [bare, Decimal.read_eq_ok.mpr ⟨spells, fits⟩]

/-- A text is read as the layout that it names. -/
theorem parse_eq_ok {text : String} {format : ContextFormat} :
    parse text = .ok format ↔ Named text.toList format :=
  ⟨named_of_parse, parse_of_named⟩

end ContextFormat

/-! ## Key sizes -/

/-- A text is read as the number that it spells with white space around, up to the largest. -/
theorem Settings.parseKeyBits_eq_ok {text : String} {bits : Nat} :
    parseKeyBits text = .ok bits ↔
      (∃ numeral, Strips text.toList numeral ∧ Decimal.Spells numeral bits) ∧ bits ≤ maxNumber := by
  rw [parseKeyBits, Outcome.mapError_eq_ok, Decimal.read_eq_ok]
  refine and_congr_left fun _ => ⟨fun spells => ?_, fun both => ?_⟩
  · exact ⟨_, Text.strips_trim text.toList, spells⟩
  · obtain ⟨numeral, stripped, spells⟩ := both
    rwa [Text.trim_eq_iff.mpr stripped]

end KeyEnvelope
