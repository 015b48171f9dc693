import KeyEnvelope.Proofs.Settings.Environment

/-!
# Variables that are passed over

A variable is heeded if its value is the form of a text that spells what its field holds
(`Variable.Heeded`).  A value that is not the form of a text is taken for none
(`ofEnvironment_readable`), so where settings are read, exactly the variables with such a value
are passed over: their fields hold the defaults (`heeded_iff_of_ofEnvironment`).
-/

namespace KeyEnvelope.Settings

variable {environment : Environment} {settings : Settings}

/-- The value of a variable is the form of a text. -/
def Variable.Readable (name : Variable) (environment : Environment) : Prop :=
  ∀ bytes, environment name = some bytes → ∃ text, bytes = Utf8.encode text

/-- A variable that is set has determined the value of its field. -/
def Variable.Heeded (name : Variable) (environment : Environment) (value : name.Value) : Prop :=
  ∀ bytes, environment name = some bytes →
    ∃ text, bytes = Utf8.encode text ∧ name.Spells text value

/-- A variable that is set and readable has a text, and any other has none. -/
theorem textOf?_eq_none {name : Variable} :
    textOf? environment name = none ↔ ∀ text, environment name ≠ some (Utf8.encode text) := by
  simp only [Option.eq_none_iff_forall_ne_some, ne_eq, textOf?_eq_some]

/-- What is not text makes no difference to the settings, nor to a failure. -/
theorem ofEnvironment_readable (environment : Environment) :
    ofEnvironment environment = ofEnvironment (.ofTexts (textOf? environment)) := by
  simp only [ofEnvironment_eq, textOf?_ofTexts]

/-- Where settings are read, the readable variables are heeded. -/
theorem heeded_iff_readable (read : ofEnvironment environment = .ok settings) (name : Variable) :
    name.Heeded environment (name.field settings) ↔ name.Readable environment := by
  refine ⟨fun heeded bytes set => ?_, fun readable bytes set => ?_⟩
  · obtain ⟨text, spelled, -⟩ := heeded bytes set
    exact ⟨text, spelled⟩
  · obtain ⟨text, rfl⟩ := readable bytes set
    have determined := ofEnvironment_eq_ok.mp read name
    rw [textOf?_eq_some.mpr set] at determined
    exact ⟨text, rfl, determined⟩

/-- Where settings are read, a variable without a text leaves the default. -/
theorem field_eq_fallback (read : ofEnvironment environment = .ok settings) {name : Variable}
    (none : ∀ text, environment name ≠ some (Utf8.encode text)) :
    name.field settings = name.fallback := by
  have determined := ofEnvironment_eq_ok.mp read name
  rwa [textOf?_eq_none.mpr none] at determined

/-- All variables of an environment are heeded exactly if no settings are read, or each value is
the form of a text.  Where settings are read, a variable is heeded exactly if its own value is,
and one whose value is not leaves the default: such a value counts as none. -/
theorem heeded_iff_of_ofEnvironment (environment : Environment) :
    ((∀ settings, ofEnvironment environment = .ok settings →
        ∀ name : Variable, name.Heeded environment (name.field settings)) ↔
      (∃ cause, ofEnvironment environment = .error cause) ∨
        ∀ name : Variable, name.Readable environment) ∧
    (∀ settings, ofEnvironment environment = .ok settings → ∀ name : Variable,
      (name.Heeded environment (name.field settings) ↔ name.Readable environment) ∧
      ((∀ text, environment name ≠ some (Utf8.encode text)) →
        name.field settings = name.fallback)) ∧
    ofEnvironment environment = ofEnvironment (.ofTexts (textOf? environment)) := by
  refine ⟨⟨fun heeds => ?_, fun either settings read name => ?_⟩,
    fun settings read name => ⟨heeded_iff_readable read name, field_eq_fallback read⟩,
    ofEnvironment_readable environment⟩
  · cases outcome : ofEnvironment environment with
    | error cause => exact .inl ⟨cause, rfl⟩
    | ok settings =>
      exact .inr fun name => (heeded_iff_readable outcome name).mp (heeds settings outcome name)
  · obtain ⟨cause, failed⟩ | readable := either
    · cases failed.symm.trans read
    · exact (heeded_iff_readable read name).mpr (readable name)

/-! ## A name that is no text -/

/-- A key name with a byte that no text has, and a key size. -/
def spoiledName : Environment
  | .keyName => some [107, 255]
  | .contextFormat => none
  | .keyBits => some [49, 50, 56]

theorem ofEnvironment_spoiledName :
    ofEnvironment spoiledName = .ok ⟨"shared-key", .fixed 105, 128⟩ := by
  decide +kernel

theorem not_readable_spoiledName : ¬ Variable.keyName.Readable spoiledName := by
  intro readable
  obtain ⟨text, spelled⟩ := readable [107, 255] rfl
  have broken : (Utf8.decode [107, 255]).toOption = none := by decide +kernel
  rw [spelled, Utf8.decode_encode] at broken
  cases broken

/-- Beside a name that is no text the key size is heeded, and the name is the default. -/
theorem heeded_beside_spoiled_name :
    Variable.keyBits.Heeded spoiledName (128 : Nat) ∧
      ¬ Variable.keyName.Heeded spoiledName "shared-key" ∧
      ∃ settings, ofEnvironment spoiledName = .ok settings ∧
        settings.defaultKeyName = "shared-key" := by
  obtain ⟨-, read, -⟩ := heeded_iff_of_ofEnvironment spoiledName
  have each := read _ ofEnvironment_spoiledName
  have bits : Variable.keyBits.Readable spoiledName := by
    rintro _ ⟨⟩
    exact ⟨"128", by decide +kernel⟩
  have name_unread : ∀ text, spoiledName .keyName ≠ some (Utf8.encode text) := by
    intro text set
    refine not_readable_spoiledName fun bytes same => ⟨text, ?_⟩
    exact Option.some.inj (same.symm.trans set)
  exact ⟨(each .keyBits).1.mpr bits, fun heeded => not_readable_spoiledName
    ((each .keyName).1.mp heeded), _, ofEnvironment_spoiledName, (each .keyName).2 name_unread⟩

/-- A variable that is set can be passed over: settings are read, and its field holds the default
of a variable that is not set. -/
theorem not_heeded_of_ofEnvironment :
    ¬ ∀ (environment : Environment) (settings : Settings),
      ofEnvironment environment = .ok settings →
      ∀ name : Variable, name.Heeded environment (name.field settings) := by
  intro heeds
  have heeded := heeds spoiledName _ ofEnvironment_spoiledName .keyName
  obtain ⟨text, spelled, -⟩ := heeded [107, 255] rfl
  exact not_readable_spoiledName fun bytes set => ⟨text, (Option.some.inj set).symm.trans spelled⟩

end KeyEnvelope.Settings
