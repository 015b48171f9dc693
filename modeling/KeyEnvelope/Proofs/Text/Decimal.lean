import KeyEnvelope.Text.Decimal

/-!
# Reading decimal numbers back

Digits are read as the number they spell, if it does not exceed the bound
(`readDigits_eq_ok`), and nothing is read but digits behind an optional plus sign
(`read_eq_ok`).  A number that is written down is read back (`read_toString`).
-/

namespace KeyEnvelope.Decimal

variable {bound value n : Nat} {text : List Char}

theorem digit?_of_isDigit {c : Char} (digit : c.isDigit) :
    digit? c = some (c.toNat - '0'.toNat) := by
  unfold digit?
  simp only [Char.isDigit, Bool.and_eq_true, decide_eq_true_eq] at digit
  exact if_pos digit

theorem isDigit_of_digit? {c : Char} {d : Nat} (read : digit? c = some d) : c.isDigit := by
  unfold digit? at read
  split at read
  next digit =>
    simp only [Char.isDigit, Bool.and_eq_true, decide_eq_true_eq]
    exact digit
  next => cases read

theorem any_isNone_digit? (text : List Char) :
    text.any (fun c => (digit? c).isNone) = false ↔ ∀ c ∈ text, c.isDigit := by
  rw [List.any_eq_false]
  refine forall₂_congr fun c _ => ⟨fun read => ?_, fun digit => ?_⟩
  · cases value : digit? c with
    | none => exact absurd (value ▸ rfl) read
    | some d => exact isDigit_of_digit? value
  · rw [digit?_of_isDigit digit]
    exact Bool.false_ne_true

theorem le_ofDigitChars (text : List Char) (value : Nat) :
    value ≤ Nat.ofDigitChars 10 text value := by
  induction text generalizing value with
  | nil => exact Nat.le_refl _
  | cons c text ih =>
    rw [Nat.ofDigitChars_cons]
    have step := ih (10 * value + (c.toNat - '0'.toNat))
    omega

/-- What is read is the number that the digits spell, and it is in the bound. -/
theorem readDigits_eq_ok : readDigits bound value text = .ok n ↔
    (∀ c ∈ text, c.isDigit) ∧ Nat.ofDigitChars 10 text value = n ∧ (text = [] ∨ n ≤ bound) := by
  induction text generalizing value with
  | nil => simp [readDigits]
  | cons c text ih =>
    rw [readDigits, Nat.ofDigitChars_cons]
    cases digit : digit? c with
    | none =>
      refine ⟨fun failed => (by cases failed), fun spelled => ?_⟩
      rw [digit?_of_isDigit (spelled.1 c (List.mem_cons_self ..))] at digit
      cases digit
    | some d =>
      have is_digit := isDigit_of_digit? digit
      rw [digit?_of_isDigit is_digit] at digit
      cases digit
      dsimp only
      rw [Nat.mul_comm value]
      split
      next past =>
        refine ⟨fun failed => (by cases failed), fun spelled => ?_⟩
        have grown := le_ofDigitChars text (10 * value + (c.toNat - '0'.toNat))
        have small := spelled.2.2.resolve_left (List.cons_ne_nil _ _)
        omega
      next inside =>
        rw [ih]
        refine ⟨fun spelled => ⟨?_, spelled.2.1, .inr ?_⟩, fun spelled => ⟨?_, spelled.2.1, ?_⟩⟩
        · intro c' member
          rcases List.mem_cons.mp member with rfl | member
          · exact is_digit
          · exact spelled.1 c' member
        · rcases spelled.2.2 with rfl | small
          · rw [← spelled.2.1, Nat.ofDigitChars_nil]
            omega
          · exact small
        · exact fun c' member => spelled.1 c' (List.mem_cons_of_mem _ member)
        · exact .inr (spelled.2.2.resolve_left (List.cons_ne_nil _ _))

/-! ## Whole texts -/

/-- A text spells a number by its digits, at least one of them, behind an optional plus
sign. -/
def Spells (text : List Char) (n : Nat) : Prop :=
  ∃ digits, (text = digits ∨ text = '+' :: digits) ∧ digits ≠ [] ∧
    (∀ c ∈ digits, c.isDigit) ∧ Nat.ofDigitChars 10 digits 0 = n

theorem Spells.mem (spells : Spells text n) {c : Char} (member : c ∈ text) :
    c = '+' ∨ c.isDigit := by
  obtain ⟨digits, rfl | rfl, -, all, -⟩ := spells
  · exact .inr (all c member)
  · rcases List.mem_cons.mp member with sign | member
    · exact .inl sign
    · exact .inr (all c member)

/-- A text without a sign spells a number by its digits alone. -/
theorem spells_iff_of_isDigit (nonempty : text ≠ []) (digits : ∀ c ∈ text, c.isDigit) :
    Spells text n ↔ Nat.ofDigitChars 10 text 0 = n := by
  refine ⟨fun spells => ?_, fun value => ⟨text, .inl rfl, nonempty, digits, value⟩⟩
  obtain ⟨unsigned, rfl | rfl, -, -, value⟩ := spells
  · exact value
  · have sign : ¬ '+'.isDigit := by decide
    exact absurd (digits '+' List.mem_cons_self) sign

theorem readDigits_eq_ok_of_ne_nil {digits : List Char} (nonempty : digits ≠ []) :
    readDigits bound 0 digits = .ok n ↔
      ((∀ c ∈ digits, c.isDigit) ∧ Nat.ofDigitChars 10 digits 0 = n) ∧ n ≤ bound := by
  rw [readDigits_eq_ok, or_iff_right nonempty, and_assoc]

/-- A text is read as a number exactly if it spells the number and that is in the bound. -/
theorem read_eq_ok : read bound text = .ok n ↔ Spells text n ∧ n ≤ bound := by
  have sign : ¬ '+'.isDigit := by decide
  refine ⟨fun reads => ?_, fun both => ?_⟩
  · unfold read at reads
    split at reads
    next => cases reads
    next => cases reads
    next digits nonempty =>
      obtain ⟨spelled, fits⟩ := (readDigits_eq_ok_of_ne_nil nonempty).mp reads
      exact ⟨⟨digits, .inr rfl, nonempty, spelled⟩, fits⟩
    next nonempty _ _ =>
      obtain ⟨spelled, fits⟩ := (readDigits_eq_ok_of_ne_nil nonempty).mp reads
      exact ⟨⟨text, .inl rfl, nonempty, spelled⟩, fits⟩
  · obtain ⟨⟨digits, rfl | rfl, nonempty, spelled⟩, fits⟩ := both
    all_goals
      have reads := (readDigits_eq_ok_of_ne_nil nonempty).mpr ⟨spelled, fits⟩
      unfold read
    · split
      next => exact absurd rfl nonempty
      next => exact absurd (spelled.1 '+' List.mem_cons_self) sign
      next => exact absurd (spelled.1 '+' List.mem_cons_self) sign
      next => exact reads
    · split
      next same => cases same
      next same => exact absurd (List.cons.inj same).2 nonempty
      next same => exact (List.cons.inj same).2 ▸ reads
      next unsigned => exact absurd rfl (unsigned digits)

theorem spells_toString (n : Nat) : Spells (toString n).toList n := by
  have digits : ∀ c ∈ Nat.toDigits 10 n, c.isDigit := fun c member =>
    Nat.isDigit_of_mem_toDigits (by decide) (by decide) member
  rw [Nat.toString_eq_ofList_toDigits, String.toList_ofList]
  exact ⟨_, .inl rfl, Nat.toDigits_ne_nil, digits, Nat.ofDigitChars_ten_toDigits⟩

/-- A number that is written down is read back, if it is in the bound. -/
theorem read_toString (fits : n ≤ bound) : read bound (toString n).toList = .ok n :=
  read_eq_ok.mpr ⟨spells_toString n, fits⟩

/-- Numbers that are written the same are the same. -/
theorem toString_inj {m n : Nat} : toString m = toString n ↔ m = n := by
  refine ⟨fun same => ?_, congrArg toString⟩
  have first : read (max m n) (toString m).toList = .ok m := read_toString (Nat.le_max_left m n)
  rw [same, read_toString (Nat.le_max_right m n)] at first
  exact (Except.ok.inj first).symm

theorem notMem_toString {c : Char} (unsigned : c ≠ '+') (noDigit : ¬ c.isDigit) (n : Nat) :
    c ∉ (toString n).toList := fun member =>
  ((spells_toString n).mem member).elim unsigned noDigit

end KeyEnvelope.Decimal
