/-!
# White space around a text

The characters with the Unicode property `White_Space`, and texts stripped of them at
both ends, as settings and range requests are before they are read.
-/

namespace KeyEnvelope.Text

/-- The characters with the Unicode property `White_Space`. -/
def isBlank (c : Char) : Bool :=
  let n := c.toNat
  (0x9 ≤ n && n ≤ 0xd) || n = 0x20 || n = 0x85 || n = 0xa0 || n = 0x1680 ||
    (0x2000 ≤ n && n ≤ 0x200a) || n = 0x2028 || n = 0x2029 || n = 0x202f || n = 0x205f ||
    n = 0x3000

/-- A text without the white space at its beginning and end. -/
def trim (text : List Char) : List Char :=
  ((text.dropWhile isBlank).reverse.dropWhile isBlank).reverse

/-- What follows a given beginning of a text. -/
def after? : (lead text : List Char) → Option (List Char)
  | [], text => some text
  | _ :: _, [] => none
  | c :: lead, d :: text => if c = d then after? lead text else none

/-- A text before and after the first occurrence of a character. -/
def cut? (mark : Char) : (text : List Char) → Option (List Char × List Char)
  | [] => none
  | c :: text =>
    if c = mark then some ([], text)
    else (cut? mark text).map fun (before, rest) => (c :: before, rest)

theorem after?_eq_some_iff {lead text rest : List Char} :
    after? lead text = some rest ↔ text = lead ++ rest := by
  induction lead generalizing text with
  | nil => simp [after?]
  | cons c lead ih =>
    cases text with
    | nil => simp [after?]
    | cons d text => by_cases h : c = d <;> simp [after?, h, ih, eq_comm]

theorem cut?_eq_some_iff {mark : Char} {text before rest : List Char} :
    cut? mark text = some (before, rest) ↔ text = before ++ mark :: rest ∧ mark ∉ before := by
  induction text generalizing before with
  | nil => simp [cut?]
  | cons c text ih =>
    by_cases h : c = mark
    · cases before with
      | nil => simp [cut?, h, eq_comm]
      | cons d before =>
        simp only [cut?, if_pos h, Option.some.injEq, Prod.mk.injEq, List.nil_eq, reduceCtorEq,
          false_and, List.cons_append, List.cons.injEq, List.mem_cons, not_or, false_iff]
        intro both
        rcases both with ⟨⟨rfl, _⟩, hne, _⟩
        exact hne h.symm
    · cases before with
      | nil => simp [cut?, h]
      | cons d before =>
        simp only [cut?, if_neg h, Option.map_eq_some_iff, Prod.mk.injEq, Prod.exists,
          List.cons.injEq, List.cons_append, List.mem_cons, not_or]
        refine ⟨fun cut => ?_, fun whole => ?_⟩
        · rcases cut with ⟨_, _, hcut, ⟨rfl, rfl⟩, rfl⟩
          rcases ih.mp hcut with ⟨rfl, hmem⟩
          exact ⟨⟨rfl, rfl⟩, Ne.symm h, hmem⟩
        · rcases whole with ⟨⟨rfl, rfl⟩, _, hmem⟩
          exact ⟨before, rest, ih.mpr ⟨rfl, hmem⟩, ⟨rfl, rfl⟩, rfl⟩

end KeyEnvelope.Text
