import KeyEnvelope.Entropy
import KeyEnvelope.Proofs.Settings
import KeyEnvelope.Proofs.Wrapper

/-!
# Settings of an environment

Each variable of the environment is for one field of the settings: a text that spells a value for
the field determines this value, and without a text it is the default (`Variable.Determines`).
Settings are read exactly if all fields hold what the variables determine (`ofEnvironment_eq_ok`),
and a failure is about a variable whose text spells no value (`of_ofEnvironment_error`).  A value
of a variable that is no text counts as none, so what is set can be passed over
(`heeded_iff_of_ofEnvironment`).
-/

namespace KeyEnvelope.Settings

open Text (Strips)

/-! ## Variables and their fields -/

namespace Variable

/-- What a variable sets. -/
abbrev Value : Variable → Type
  | keyName => String
  | contextFormat => ContextFormat
  | keyBits => Nat

/-- The field of settings that a variable is for. -/
def field : (name : Variable) → Settings → name.Value
  | keyName => defaultKeyName
  | contextFormat => Settings.contextFormat
  | keyBits => keySizeBits

/-- What the field of a variable holds if the variable is not set. -/
def fallback : (name : Variable) → name.Value
  | keyName => "shared-key"
  | contextFormat => .fixed 105
  | keyBits => (256 : Nat)

/-- A text spells a value for the field of a variable: a name that is not empty, a layout with
room for a wrapped key, or a key size of the cipher with white space around. -/
def Spells : (name : Variable) → String → name.Value → Prop
  | keyName, text, value => text = value ∧ value ≠ ""
  | contextFormat, text, value => ContextFormat.Named text.toList value ∧ value ≠ .fixed 0
  | keyBits, text, (value : Nat) => (∃ numeral, Strips text.toList numeral ∧
      Decimal.Spells numeral value) ∧ (value = 128 ∨ value = 192 ∨ value = 256)

/-- A variable determines a value for its field: the one that its text spells, and the default
if it has no text. -/
def Determines (name : Variable) (text? : Option String) (value : name.Value) : Prop :=
  match text? with
  | some text => name.Spells text value
  | none => value = name.fallback

end Variable

/-- The settings of a value for each field. -/
def ofValues (values : (name : Variable) → name.Value) : Settings :=
  ⟨values .keyName, values .contextFormat, values .keyBits⟩

theorem field_ofValues (values : (name : Variable) → name.Value) (name : Variable) :
    name.field (ofValues values) = values name := by
  cases name <;> rfl

variable {environment : Environment} {settings : Settings}

/-! ## Reading the variables -/

/-- The layout that the text of a variable names, or the one of the defaults. -/
def formatOf (text? : Option String) : Except ConfigError ContextFormat :=
  match text? with
  | some text => ContextFormat.parse text
  | none => .ok (.fixed 105)

/-- The key size that the text of a variable spells, or the one of the defaults. -/
def bitsOf (text? : Option String) : Except ConfigError Nat :=
  match text? with
  | some text => parseKeyBits text
  | none => .ok 256

theorem ofEnvironment_eq (environment : Environment) : ofEnvironment environment = do
    let format ← formatOf (textOf? environment .contextFormat)
    let bits ← bitsOf (textOf? environment .keyBits)
    let settings : Settings :=
      ⟨(textOf? environment .keyName).getD "shared-key", format, bits⟩
    settings.validate
    return settings := by
  unfold ofEnvironment formatOf bitsOf
  cases textOf? environment .contextFormat <;> cases textOf? environment .keyBits <;> rfl

variable {text? : Option String}

theorem determines_keyName {value : String} : Variable.keyName.Determines text? value ↔
    text?.getD "shared-key" = value ∧ value ≠ "" := by
  cases text? with
  | none =>
    refine ⟨fun same => ?_, fun both => both.1.symm⟩
    have same : value = "shared-key" := same
    exact ⟨same.symm, same ▸ by decide⟩
  | some text => exact Iff.rfl

theorem determines_contextFormat {value : ContextFormat} :
    Variable.contextFormat.Determines text? value ↔
      formatOf text? = .ok value ∧ value ≠ .fixed 0 := by
  cases text? with
  | none =>
    refine ⟨fun same => ?_, fun both => (Except.ok.inj both.1).symm⟩
    have same : value = .fixed 105 := same
    exact ⟨congrArg _ same.symm, same ▸ by decide⟩
  | some text => exact and_congr_left fun _ => ContextFormat.parse_eq_ok.symm

theorem determines_keyBits {value : Nat} : Variable.keyBits.Determines text? value ↔
    bitsOf text? = .ok value ∧ (value = 128 ∨ value = 192 ∨ value = 256) := by
  cases text? with
  | none =>
    refine ⟨fun same => ?_, fun both => (Except.ok.inj both.1).symm⟩
    have same : value = 256 := same
    exact ⟨congrArg _ same.symm, .inr (.inr same)⟩
  | some text =>
    refine and_congr_left fun known => ?_
    have most : 256 ≤ maxNumber := by decide
    have small : value ≤ maxNumber := by omega
    exact (parseKeyBits_eq_ok.trans (and_iff_left small)).symm

/-- Settings are read exactly if all fields hold what the variables determine. -/
theorem ofEnvironment_eq_ok : ofEnvironment environment = .ok settings ↔
    ∀ name, Variable.Determines name (textOf? environment name) (name.field settings) := by
  have each {p : Variable → Prop} :
      (∀ name, p name) ↔ p .keyName ∧ p .contextFormat ∧ p .keyBits := by
    refine ⟨fun all => ⟨all _, all _, all _⟩, fun all name => ?_⟩
    cases name with
    | keyName => exact all.1
    | contextFormat => exact all.2.1
    | keyBits => exact all.2.2
  rw [each, determines_keyName, determines_contextFormat, determines_keyBits, ofEnvironment_eq]
  simp only [Outcome.bind_eq_ok]
  refine ⟨fun steps => ?_, fun parts => ?_⟩
  · obtain ⟨format, format_read, bits, bits_read, _, valid, same⟩ := steps
    cases same
    obtain ⟨named, room, sized⟩ := validate_eq_ok.mp valid
    exact ⟨⟨rfl, named⟩, ⟨format_read, room⟩, bits_read, sized⟩
  · obtain ⟨⟨name_read, named⟩, ⟨format_read, room⟩, bits_read, sized⟩ := parts
    refine ⟨_, format_read, _, bits_read, (), ?_, ?_⟩
    · rw [name_read]
      exact validate_eq_ok.mpr ⟨named, room, sized⟩
    · rw [name_read]
      rfl

/-- Settings are read exactly if the text of every variable that has one spells a value, each
variable on its own. -/
theorem exists_ofEnvironment_iff : (∃ settings, ofEnvironment environment = .ok settings) ↔
    ∀ name text, textOf? environment name = some text →
      ∃ value, Variable.Spells name text value := by
  simp only [ofEnvironment_eq_ok]
  refine ⟨fun ⟨settings, determined⟩ name text found => ?_, fun spelled => ?_⟩
  · have spells := determined name
    rw [found] at spells
    exact ⟨_, spells⟩
  · have determined (name : Variable) :
        ∃ value, name.Determines (textOf? environment name) value := by
      cases found : textOf? environment name with
      | none => exact ⟨name.fallback, rfl⟩
      | some text => exact spelled name text found
    choose values determined using determined
    refine ⟨ofValues values, fun name => ?_⟩
    rw [field_ofValues]
    exact determined name

/-! ## What a failure is about -/

/-- The variable that a failure is about. -/
def culprit? : ConfigError → Option Variable
  | .emptyKeyName => some .keyName
  | .fixedLength .. | .unknownFormat _ | .zeroWrappedKeyLength => some .contextFormat
  | .keyBits .. | .unsupportedKeyBits _ => some .keyBits
  | _ => none

variable {cause : ConfigError}

/-- A failure is about a variable whose text spells no value. -/
def Blames (environment : Environment) (cause : ConfigError) : Prop :=
  ∃ name text, culprit? cause = some name ∧ textOf? environment name = some text ∧
    ∀ value, ¬ Variable.Spells name text value

/-- A variable that determines nothing has a text, which spells nothing. -/
theorem blames_of_not_determines {name : Variable} (about : culprit? cause = some name)
    (nothing : ∀ value, ¬ name.Determines (textOf? environment name) value) :
    Blames environment cause := by
  cases found : textOf? environment name with
  | none =>
    rw [found] at nothing
    exact absurd rfl (nothing name.fallback)
  | some text =>
    rw [found] at nothing
    exact ⟨name, text, about, found, nothing⟩

theorem culprit?_of_formatOf (failed : formatOf text? = .error cause) :
    culprit? cause = some .contextFormat := by
  cases text? with
  | none => cases failed
  | some text =>
    obtain ⟨_, read, -⟩ | ⟨_, _, refused, -⟩ | ⟨_, refused, -⟩ := ContextFormat.parse_cases text
    · cases read.symm.trans failed
    · cases refused.symm.trans failed
      rfl
    · cases refused.symm.trans failed
      rfl

theorem culprit?_of_bitsOf (failed : bitsOf text? = .error cause) :
    culprit? cause = some .keyBits := by
  cases text? with
  | none => cases failed
  | some text =>
    obtain ⟨defect, -, rfl⟩ := Outcome.mapError_eq_error.mp failed
    rfl

/-- If settings are not read, it is for a variable whose text spells no value. -/
theorem of_ofEnvironment_error (failed : ofEnvironment environment = .error cause) :
    Blames environment cause := by
  rw [ofEnvironment_eq] at failed
  obtain failed | ⟨format, format_read, failed⟩ := Outcome.bind_eq_error.mp failed
  · refine blames_of_not_determines (culprit?_of_formatOf failed) fun value determined => ?_
    cases failed.symm.trans (determines_contextFormat.mp determined).1
  obtain failed | ⟨bits, bits_read, failed⟩ := Outcome.bind_eq_error.mp failed
  · refine blames_of_not_determines (culprit?_of_bitsOf failed) fun value determined => ?_
    cases failed.symm.trans (determines_keyBits.mp determined).1
  obtain failed | ⟨_, _, failed⟩ := Outcome.bind_eq_error.mp failed
  -- A check fails for a value that was read, and a variable determines no other than that.
  · obtain ⟨refused, unknown⟩ | ⟨refused, empty⟩ | ⟨refused, none⟩ | ⟨passed, -⟩ :=
      validate_cases ⟨(textOf? environment .keyName).getD "shared-key", format, bits⟩
    · cases refused.symm.trans failed
      refine blames_of_not_determines rfl fun value determined => ?_
      obtain ⟨read, known⟩ := determines_keyBits.mp determined
      cases bits_read.symm.trans read
      exact unknown known
    · cases refused.symm.trans failed
      refine blames_of_not_determines rfl fun value determined => ?_
      obtain ⟨read, named⟩ := determines_keyName.mp determined
      exact named (read.symm.trans empty)
    · cases refused.symm.trans failed
      refine blames_of_not_determines rfl fun value determined => ?_
      obtain ⟨read, room⟩ := determines_contextFormat.mp determined
      cases format_read.symm.trans read
      exact room none
    · cases passed.symm.trans failed
  · cases failed

theorem validate_of_ofEnvironment (read : ofEnvironment environment = .ok settings) :
    settings.validate = .ok () := by
  have determined := ofEnvironment_eq_ok.mp read
  exact validate_eq_ok.mpr ⟨(determines_keyName.mp (determined .keyName)).2,
    (determines_contextFormat.mp (determined .contextFormat)).2,
    (determines_keyBits.mp (determined .keyBits)).2⟩

/-- Keys of the length of valid settings can be drawn. -/
theorem exists_generateKey_of_validate (valid : settings.validate = .ok ()) (entropy : Entropy) :
    ∃ key later, Entropy.generateKey settings.keyLength entropy = .ok key later := by
  have accepted := checkKeyLength_eq_ok.mpr (isKeyLength_of_validate valid)
  unfold Entropy.generateKey
  rw [accepted]
  exact ⟨_, _, rfl⟩

/-! ## Environments of texts -/

/-- The environment whose variables are set to texts. -/
def Environment.ofTexts (texts : Variable → Option String) : Environment :=
  fun name => (texts name).map Utf8.encode

theorem textOf?_eq_some {name : Variable} {text : String} :
    textOf? environment name = some text ↔ environment name = some (Utf8.encode text) := by
  unfold textOf?
  rw [Option.bind_eq_some_iff]
  refine ⟨fun found => ?_, fun whole => ⟨_, whole, by rw [Utf8.decode_encode]; rfl⟩⟩
  obtain ⟨bytes, whole, read⟩ := found
  cases decoded : Utf8.decode bytes with
  | ok other =>
    rw [decoded] at read
    cases read
    rw [whole, Utf8.eq_encode_of_decode decoded]
  | error defect =>
    rw [decoded] at read
    cases read

theorem textOf?_ofTexts (texts : Variable → Option String) (name : Variable) :
    textOf? (Environment.ofTexts texts) name = texts name := by
  unfold textOf? Environment.ofTexts
  cases texts name with
  | none => rfl
  | some text =>
    rw [Option.map_some, Option.bind_some, Utf8.decode_encode]
    rfl

/-- Of variables that are set to texts, settings are read exactly if each text spells a value of
its own field.  They hold these values, and the defaults where no variable is set; they are valid,
and keys of their length can be drawn.  Otherwise the failure is about a variable whose text spells
no value. -/
theorem ofEnvironment_accepts (texts : Variable → Option String) :
    ((∃ settings, ofEnvironment (.ofTexts texts) = .ok settings) ↔
      ∀ name text, texts name = some text → ∃ value, name.Spells text value) ∧
    (∀ settings, ofEnvironment (.ofTexts texts) = .ok settings ↔
      ∀ name : Variable, name.Determines (texts name) (name.field settings)) ∧
    (∀ settings, ofEnvironment (.ofTexts texts) = .ok settings → settings.validate = .ok () ∧
      ∀ entropy, ∃ key later, Entropy.generateKey settings.keyLength entropy = .ok key later) ∧
    ((∃ name text, texts name = some text ∧ ∀ value, ¬ name.Spells text value) →
      ∃ cause, ofEnvironment (.ofTexts texts) = .error cause) ∧
    ∀ cause, ofEnvironment (.ofTexts texts) = .error cause →
      ∃ name text, culprit? cause = some name ∧ texts name = some text ∧
        ∀ value, ¬ name.Spells text value := by
  have found : textOf? (Environment.ofTexts texts) = texts := funext (textOf?_ofTexts texts)
  have accepted : (∃ settings, ofEnvironment (.ofTexts texts) = .ok settings) ↔
      ∀ name text, texts name = some text → ∃ value, name.Spells text value := by
    rw [exists_ofEnvironment_iff, found]
  refine ⟨accepted, fun settings => ?_, fun settings read => ?_, fun spoiled => ?_,
    fun cause failed => ?_⟩
  · rw [ofEnvironment_eq_ok, found]
  · have valid := validate_of_ofEnvironment read
    exact ⟨valid, exists_generateKey_of_validate valid⟩
  · obtain ⟨name, text, set, nothing⟩ := spoiled
    cases outcome : ofEnvironment (.ofTexts texts) with
    | error cause => exact ⟨cause, rfl⟩
    | ok settings =>
      obtain ⟨value, spells⟩ := accepted.mp ⟨settings, outcome⟩ name text set
      exact absurd spells (nothing value)
  · obtain ⟨name, text, about, set, nothing⟩ := of_ofEnvironment_error failed
    rw [found] at set
    exact ⟨name, text, about, set, nothing⟩

/-- A layout with white space around and inside it and a sign, beside a key size that is not set;
and a layout without room for a wrapped key. -/
theorem ofEnvironment_accepts_signed_length :
    ofEnvironment (.ofTexts fun
      | .keyName => some "tenant"
      | .contextFormat => some "\t fixed:  +0106\n"
      | .keyBits => none) = .ok ⟨"tenant", .fixed 106, 256⟩ ∧
    ∃ cause, ofEnvironment (.ofTexts fun
      | .contextFormat => some "fixed:0"
      | _ => none) = .error cause := by
  refine ⟨((ofEnvironment_accepts _).2.1 _).mpr fun name => ?_,
    (ofEnvironment_accepts _).2.2.2.1 ⟨.contextFormat, "fixed:0", rfl, fun value spells => ?_⟩⟩
  · cases name with
    | keyName => exact ⟨rfl, by decide⟩
    | contextFormat =>
      have read : Decimal.read maxNumber "+0106".toList = .ok 106 := by decide
      obtain ⟨spells, fits⟩ := Decimal.read_eq_ok.mp read
      have named : ContextFormat.Named "\t fixed:  +0106\n".toList (.fixed 106) :=
        @ContextFormat.Named.fixed _ "  ".toList _ _ (Text.trim_eq_iff.mp (by decide))
          (by decide) spells fits
      exact ⟨named, by decide⟩
    | keyBits => rfl
  · have read : ContextFormat.parse "fixed:0" = .ok (.fixed 0) := by decide
    cases read.symm.trans (ContextFormat.parse_eq_ok.mpr spells.1)
    exact spells.2 rfl

end KeyEnvelope.Settings
