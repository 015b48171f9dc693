import Mathlib.Data.List.DropRight
import KeyEnvelope.Text.Blank

/-!
# What is left of a text without its white space

What is left of a text lies between white space and white space, and neither begins nor
ends with any (`Strips`).  Stripping finds it, and there is nothing else that is left of
the text in this sense (`trim_eq_iff`).
-/

namespace KeyEnvelope.Text

/-- What is left of a text without the white space around it: neither its first nor its
last character is blank. -/
structure Strips (text core : List Char) : Prop where
  around : ∃ before after, text = before ++ core ++ after ∧ before.all isBlank ∧ after.all isBlank
  head : ∀ c ∈ core.head?, ¬ isBlank c
  last : ∀ c ∈ core.getLast?, ¬ isBlank c

variable {text core : List Char}

theorem trim_eq_rdropWhile (text : List Char) :
    trim text = (text.dropWhile isBlank).rdropWhile isBlank := rfl

theorem dropWhile_isBlank_of_head (head : ∀ c ∈ text.head?, ¬ isBlank c) :
    text.dropWhile isBlank = text := by
  cases text with
  | nil => rfl
  | cons c text => exact List.dropWhile_cons_of_neg (head c rfl)

theorem strips_trim (text : List Char) : Strips text (trim text) where
  around := by
    refine ⟨text.takeWhile isBlank, (text.dropWhile isBlank).rtakeWhile isBlank, ?_, ?_, ?_⟩
    · rw [trim_eq_rdropWhile, List.append_assoc, List.rdropWhile_append_rtakeWhile,
        List.takeWhile_append_dropWhile]
    · exact List.all_takeWhile
    · exact List.all_eq_true.mpr fun c member => List.mem_rtakeWhile_imp member
  head := by
    intro c first
    obtain ⟨rest, whole⟩ := List.rdropWhile_prefix isBlank (text.dropWhile isBlank)
    have leads : c ∈ (text.dropWhile isBlank).head? :=
      whole ▸ List.mem_head?_append_of_mem_head? first
    have stops := List.head?_dropWhile_not isBlank text
    rw [Option.mem_def.mp leads] at stops
    simpa using stops
  last := by
    intro c final
    obtain ⟨nonempty, rfl⟩ := List.mem_getLast?_eq_getLast final
    exact List.rdropWhile_last_not isBlank _ nonempty

theorem trim_of_strips (strips : Strips text core) : trim text = core := by
  obtain ⟨before, after, rfl, blank_before, blank_after⟩ := strips.around
  have reversed : ∀ c ∈ core.reverse.head?, ¬ isBlank c := by
    rw [List.head?_reverse]
    exact strips.last
  have tail : trim (core ++ after) = core := by
    cases core with
    | nil =>
      have gone : after.dropWhile isBlank = [] :=
        List.dropWhile_eq_nil_iff.mpr (List.all_eq_true.mp blank_after)
      rw [trim_eq_rdropWhile, List.nil_append, gone, List.rdropWhile_nil]
    | cons c core =>
      have kept : (c :: core ++ after).dropWhile isBlank = c :: core ++ after :=
        dropWhile_isBlank_of_head strips.head
      rw [trim, kept, List.reverse_append,
        List.dropWhile_append_of_pos fun d member =>
          List.all_eq_true.mp blank_after d (List.mem_reverse.mp member),
        dropWhile_isBlank_of_head reversed, List.reverse_reverse]
  rw [List.append_assoc, trim,
    List.dropWhile_append_of_pos (List.all_eq_true.mp blank_before)]
  exact tail

/-- Stripping gives the one text that is left without the white space around. -/
theorem trim_eq_iff : trim text = core ↔ Strips text core :=
  ⟨fun left => left ▸ strips_trim text, trim_of_strips⟩

/-! ## Texts between white space -/

theorem not_isBlank_of_isDigit {c : Char} (digit : c.isDigit) : ¬ isBlank c := by
  simp only [Char.isDigit, Bool.and_eq_true, decide_eq_true_eq, UInt32.le_iff_toNat_le] at digit
  have low : 48 ≤ c.toNat := digit.1
  have high : c.toNat ≤ 57 := digit.2
  simp only [isBlank, Bool.or_eq_true, Bool.and_eq_true, decide_eq_true_eq]
  omega

/-- A text without white space is what is left of it between white space and white space. -/
theorem trim_surrounded {before core after : List Char} (front : before.all isBlank)
    (back : after.all isBlank) (inside : ∀ c ∈ core, ¬ isBlank c) :
    trim (before ++ core ++ after) = core := by
  refine trim_of_strips ⟨⟨before, after, rfl, front, back⟩, fun c first => ?_, fun c final => ?_⟩
  · exact inside c (List.mem_of_mem_head? first)
  · exact inside c (List.mem_of_getLast? final)

theorem trim_of_not_isBlank {text : List Char} (inside : ∀ c ∈ text, ¬ isBlank c) :
    trim text = text := by
  have alone := @trim_surrounded [] text [] rfl rfl inside
  rwa [List.nil_append, List.append_nil] at alone

/-- What is left of the end of a stripped text lies behind white space only. -/
theorem exists_blank_append_trim {text lead rest : List Char}
    (stripped : Strips text (lead ++ rest)) :
    ∃ blank, blank.all isBlank ∧ rest = blank ++ trim rest := by
  obtain ⟨before, after, parts, front, back⟩ := (strips_trim rest).around
  -- White space behind what is left would be the end of the stripped text.
  have none : after = [] := by
    cases final : after.getLast? with
    | none => exact List.getLast?_eq_none_iff.mp final
    | some c =>
      have last : c ∈ (lead ++ rest).getLast? := by
        rw [parts, List.getLast?_append, List.getLast?_append, final]
        rfl
      have blank := List.all_eq_true.mp back c (List.mem_of_getLast? final)
      exact absurd blank (stripped.last c last)
  rw [none, List.append_nil] at parts
  exact ⟨before, front, parts⟩

end KeyEnvelope.Text
