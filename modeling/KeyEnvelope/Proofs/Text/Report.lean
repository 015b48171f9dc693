import KeyEnvelope.Text.Blank
import KeyEnvelope.Proofs.Text.Decimal
import KeyEnvelope.Proofs.Text.Faults

/-!
# What a report shows of a text

Most of what can be wrong with a text is a byte at a place, and the report shows both
(`Base64.Shows`).  Nothing of the text is shown only where it merely ends too early: symbols,
and behind them no more than padding where padding may stand (`Base64.EndsEarly`).  So the
reports on two texts of one length are the same exactly if both are cut short or the same
byte is wrong at the same place (`Base64.Faulty.eq_iff_alike`), and no two reports are worded
alike.
-/

namespace KeyEnvelope.Base64

variable {text : Bytes} {byte : UInt8} {offset : Nat} {defect : Malformed}

/-! ## Bytes and places -/

/-- The byte and the place that a report shows. -/
def Malformed.shown? : Malformed → Option (UInt8 × Nat)
  | .symbol byte offset => some (byte, offset)
  | .lastSymbol byte offset => some (byte, offset)
  | .length _ => none
  | .padding => none

/-- A byte at a place is what is wrong with a text. -/
def Shows (text : Bytes) (byte : UInt8) (offset : Nat) : Prop :=
  ∃ defect, Faulty text defect ∧ defect.shown? = some (byte, offset)

/-- A text ends within a group of symbols, or within the padding behind them. -/
def EndsEarly (text : Bytes) : Prop :=
  text.length % 4 ≠ 0 ∧ ∃ clean padding, Splits text clean padding ∧
    (padding = [] ∨ Pads clean.length padding)

/-- What two texts have wrong with them looks the same. -/
def Alike (text other : Bytes) : Prop :=
  (EndsEarly text ∧ EndsEarly other) ∨
    ∃ byte offset, Shows text byte offset ∧ Shows other byte offset

/-- The byte that is shown stands at the place that is shown. -/
theorem Shows.getElem? (shows : Shows text byte offset) : text[offset]? = some byte := by
  obtain ⟨defect, faulty, shown⟩ := shows
  cases faulty with
  | stray stray =>
    cases shown
    rw [stray.whole, List.getElem?_append_right (Nat.le_refl _), Nat.sub_self]
    rfl
  | symbol settled splits unpadded =>
    cases shown
    rw [splits.whole, List.getElem?_append_right (Nat.le_refl _), Nat.sub_self]
    rfl
  | length splits single => cases shown
  | padding splits pads short => cases shown
  | lastSymbol splits pads full valued spare =>
    cases shown
    rw [splits.whole, List.append_assoc, List.getElem?_append_right (Nat.le_refl _), Nat.sub_self]
    rfl

theorem EndsEarly.exists_faulty (cut : EndsEarly text) :
    ∃ defect, Faulty text defect ∧ defect.shown? = none := by
  obtain ⟨short, clean, padding, splits, rfl | pads⟩ := cut
  · obtain rfl : text = clean := splits.whole.trans (List.append_nil clean)
    by_cases single : text.length % 4 = 1
    · exact ⟨_, .length splits single, rfl⟩
    · refine ⟨_, .padding splits ⟨by omega, ?_, nofun⟩ short, rfl⟩
      rw [List.length_nil]
      omega
  · exact ⟨_, .padding splits pads short, rfl⟩

/-- A report shows nothing of a text exactly if the text is cut short. -/
theorem Faulty.shown?_eq_none_iff (faulty : Faulty text defect) :
    defect.shown? = none ↔ EndsEarly text := by
  refine ⟨fun hidden => ?_, fun cut => ?_⟩
  · cases faulty with
    | stray => cases hidden
    | symbol => cases hidden
    | length splits single => exact ⟨by omega, text, [], splits, .inl rfl⟩
    | padding splits pads short => exact ⟨short, _, _, splits, .inr pads⟩
    | lastSymbol => cases hidden
  · obtain ⟨other, faulty', hidden⟩ := cut.exists_faulty
    rw [faulty.unique faulty']
    exact hidden

theorem Faulty.value?_eq_none (faulty : Faulty text (.symbol byte offset)) :
    value? byte = none := by
  cases faulty with
  | stray stray => exact stray.foreign
  | symbol settled splits unpadded => exact splits.ended byte rfl

theorem Faulty.value?_ne_none (faulty : Faulty text (.lastSymbol byte offset)) :
    value? byte ≠ none := by
  cases faulty with
  | lastSymbol splits pads full valued spare => exact valued ▸ Option.some_ne_none _

theorem Faulty.eq_length {count : Nat} (faulty : Faulty text (.length count)) :
    count = text.length ∧ text.length % 4 = 1 := by
  cases faulty with
  | length splits single => exact ⟨rfl, single⟩

theorem Faulty.length_mod_ne (faulty : Faulty text .padding) : text.length % 4 ≠ 1 := by
  cases faulty with
  | padding splits pads short =>
    have late := pads.late
    have room := pads.room
    have total := splits.length_eq
    omega

/-- What a report shows tells the reports on texts of one length apart. -/
theorem Faulty.eq_of_shown?_eq {other : Bytes} {defect' : Malformed} (faulty : Faulty text defect)
    (faulty' : Faulty other defect') (length : text.length = other.length)
    (same : defect.shown? = defect'.shown?) : defect = defect' := by
  cases defect with
  | symbol byte offset =>
    cases defect' with
    | symbol => cases same; rfl
    | lastSymbol => cases same; exact absurd faulty.value?_eq_none faulty'.value?_ne_none
    | length => cases same
    | padding => cases same
  | lastSymbol byte offset =>
    cases defect' with
    | symbol => cases same; exact absurd faulty'.value?_eq_none faulty.value?_ne_none
    | lastSymbol => cases same; rfl
    | length => cases same
    | padding => cases same
  | length count =>
    cases defect' with
    | symbol => cases same
    | lastSymbol => cases same
    | length => rw [faulty.eq_length.1, faulty'.eq_length.1, length]
    | padding => exact absurd (length ▸ faulty.eq_length.2) faulty'.length_mod_ne
  | padding =>
    cases defect' with
    | symbol => cases same
    | lastSymbol => cases same
    | length => exact absurd (length ▸ faulty'.eq_length.2) faulty.length_mod_ne
    | padding => rfl

theorem Faulty.eq_iff_alike {other : Bytes} {defect' : Malformed} (faulty : Faulty text defect)
    (faulty' : Faulty other defect') (length : text.length = other.length) :
    defect = defect' ↔ Alike text other := by
  refine ⟨fun same => ?_, fun alike => faulty.eq_of_shown?_eq faulty' length ?_⟩
  · subst same
    cases shown : defect.shown? with
    | none => exact .inl ⟨faulty.shown?_eq_none_iff.mp shown, faulty'.shown?_eq_none_iff.mp shown⟩
    | some place =>
      exact .inr ⟨place.1, place.2, ⟨defect, faulty, shown⟩, ⟨defect, faulty', shown⟩⟩
  · obtain ⟨cut, cut'⟩ | ⟨byte, offset, ⟨found, faulty₁, shown⟩, found', faulty₂, shown'⟩ := alike
    · rw [faulty.shown?_eq_none_iff.mpr cut, faulty'.shown?_eq_none_iff.mpr cut']
    · rw [faulty.unique faulty₁, faulty'.unique faulty₂, shown, shown']

/-! ## The wording of a report -/

theorem Malformed.eq_of_wording_eq {lead : String} {m n m' n' : Nat}
    (same : lead ++ toString m ++ ", offset " ++ toString n ++ "." =
      lead ++ toString m' ++ ", offset " ++ toString n' ++ ".") : m = m' ∧ n = n' := by
  have parts (m n : Nat) : Text.cut? ','
      ((toString m).toList ++ ',' :: (" offset ".toList ++ ((toString n).toList ++ ['.']))) =
        some ((toString m).toList, " offset ".toList ++ ((toString n).toList ++ ['.'])) :=
    Text.cut?_eq_some_iff.mpr ⟨rfl, Decimal.notMem_toString (by decide) (by decide) m⟩
  have letters := congrArg String.toList same
  simp only [String.toList_append, List.append_assoc, List.append_cancel_left_eq] at letters
  have cut := (parts m n).symm.trans ((congrArg (Text.cut? ',') letters).trans (parts m' n'))
  obtain ⟨first, second⟩ := Prod.mk.inj (Option.some.inj cut)
  have second := List.append_cancel_right (List.append_cancel_left second)
  exact ⟨Decimal.toString_inj.mp (String.toList_inj.mp first),
    Decimal.toString_inj.mp (String.toList_inj.mp second)⟩

/-- The ninth character of a report tells what kind of report it is. -/
theorem Malformed.getElem?_message (defect : Malformed) : defect.message.toList[8]? =
    some (match defect with
      | .symbol _ _ => 's'
      | .length _ => 'i'
      | .padding => 'p'
      | .lastSymbol _ _ => 'l') := by
  have leads {lead : String} (rest : String) (inside : 8 < lead.toList.length) :
      (lead ++ rest).toList[8]? = lead.toList[8]? := by
    rw [String.toList_append, List.getElem?_append_left inside]
  cases defect with
  | symbol byte offset =>
    change ("Invalid symbol " ++ toString byte.toNat ++ ", offset " ++ toString offset ++
      ".").toList[8]? = _
    rw [String.append_assoc, String.append_assoc, String.append_assoc, leads _ (by decide)]
    rfl
  | length count => exact (leads (toString count) (by decide)).trans rfl
  | padding => rfl
  | lastSymbol byte offset =>
    change ("Invalid last symbol " ++ toString byte.toNat ++ ", offset " ++ toString offset ++
      ".").toList[8]? = _
    rw [String.append_assoc, String.append_assoc, String.append_assoc, leads _ (by decide)]
    rfl

/-- No two reports are worded alike. -/
theorem Malformed.message_inj {defect' : Malformed} :
    defect.message = defect'.message ↔ defect = defect' := by
  refine ⟨fun same => ?_, congrArg message⟩
  have kind := getElem?_message defect
  rw [same, getElem?_message defect', Option.some.injEq] at kind
  cases defect <;> cases defect' <;> simp at kind
  case symbol.symbol =>
    obtain ⟨byte, rfl⟩ := eq_of_wording_eq same
    rw [UInt8.toNat_inj.mp byte]
  case length.length =>
    exact congrArg length (Decimal.toString_inj.mp ((String.append_right_inj _).mp same))
  case padding.padding => rfl
  case lastSymbol.lastSymbol =>
    obtain ⟨byte, rfl⟩ := eq_of_wording_eq same
    rw [UInt8.toNat_inj.mp byte]

end KeyEnvelope.Base64
