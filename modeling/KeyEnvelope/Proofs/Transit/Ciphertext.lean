import KeyEnvelope.Transit.Ciphertext
import KeyEnvelope.Proofs.Outcome
import KeyEnvelope.Proofs.Text.Decimal

/-!
# Reading wrapped texts back

What is read as a wrapped text is the scheme, a spelling of its version and the payload
(`parse_eq_ok`).  So the written form of a wrapped text is read back, if the version is one
that a wrapped text can name (`parse_render`), and other texts only where they differ in
how the version is spelled.
-/

namespace KeyEnvelope.TransitCiphertext

variable {part : List Char} {version : Nat} {text : String} {ciphertext : TransitCiphertext}

theorem parseVersion_eq_ok : parseVersion part = .ok version ↔
    ∃ numeral, part = 'v' :: numeral ∧ Decimal.Spells numeral version ∧ version ≤ maxVersion := by
  refine ⟨fun parsed => ?_, fun spelled => ?_⟩
  · unfold parseVersion at parsed
    split at parsed
    next numeral =>
      exact ⟨numeral, rfl, Decimal.read_eq_ok.mp (Outcome.mapError_eq_ok.mp parsed)⟩
    next => cases parsed
  · obtain ⟨numeral, rfl, spelled⟩ := spelled
    exact Outcome.mapError_eq_ok.mpr (Decimal.read_eq_ok.mpr spelled)

theorem colon_notMem_of_spells {numeral : List Char} (spells : Decimal.Spells numeral version) :
    ':' ∉ 'v' :: numeral := by
  intro member
  rcases List.mem_cons.mp member with mark | member
  · exact absurd mark (by decide)
  · rcases spells.mem member with sign | digit
    · exact absurd sign (by decide)
    · exact absurd digit (by decide)

/-- A text that has two colons is read by what stands before them and between them. -/
theorem parse_of_cut {lead rest middle payload : List Char}
    (first : Text.cut? ':' text.toList = some (lead, rest))
    (second : Text.cut? ':' rest = some (middle, payload)) :
    parse text = if lead ≠ scheme then .error (.scheme (String.ofList lead))
      else (parseVersion middle).map (⟨·, payload⟩) := by
  unfold parse
  rw [first]
  dsimp only
  rw [second]
  dsimp only
  split
  next => rfl
  next => cases parseVersion middle <;> rfl

theorem parse_cases (text : String) : parse text = .error .malformedCiphertext ∨
    ∃ lead rest middle payload, Text.cut? ':' text.toList = some (lead, rest) ∧
      Text.cut? ':' rest = some (middle, payload) := by
  cases first : Text.cut? ':' text.toList with
  | none =>
    refine .inl ?_
    unfold parse
    rw [first]
    rfl
  | some parts =>
    obtain ⟨lead, rest⟩ := parts
    cases second : Text.cut? ':' rest with
    | none =>
      refine .inl ?_
      unfold parse
      rw [first]
      dsimp only
      rw [second]
      rfl
    | some parts => exact .inr ⟨lead, rest, parts.1, parts.2, rfl, second⟩

theorem toList_append_parts (numeral payload : List Char) :
    ("vault:v" ++ String.ofList numeral ++ ":" ++ String.ofList payload).toList =
      scheme ++ ':' :: ('v' :: numeral ++ ':' :: payload) := by
  simp [scheme]

/-- What is read as a wrapped text is the scheme, a spelling of the version and the
payload. -/
theorem parse_eq_ok : parse text = .ok ciphertext ↔ ∃ numeral,
    text = "vault:v" ++ String.ofList numeral ++ ":" ++ String.ofList ciphertext.payload ∧
      Decimal.Spells numeral ciphertext.version ∧ ciphertext.version ≤ maxVersion := by
  refine ⟨fun parsed => ?_, fun spelled => ?_⟩
  · rcases parse_cases text with malformed | ⟨lead, rest, middle, payload, first, second⟩
    · cases malformed.symm.trans parsed
    · rw [parse_of_cut first second] at parsed
      split at parsed
      next => cases parsed
      next same =>
        cases read : parseVersion middle with
        | error cause =>
          rw [read] at parsed
          cases parsed
        | ok version =>
          rw [read] at parsed
          cases parsed
          obtain ⟨numeral, rfl, spells⟩ := parseVersion_eq_ok.mp read
          refine ⟨numeral, String.toList_inj.mp ?_, spells⟩
          rw [toList_append_parts, (Text.cut?_eq_some_iff.mp first).1,
            (Text.cut?_eq_some_iff.mp second).1, not_not.mp same]
  · obtain ⟨numeral, rfl, spells, fits⟩ := spelled
    have first := Text.cut?_eq_some_iff.mpr
      ⟨toList_append_parts numeral ciphertext.payload, by decide⟩
    have second := Text.cut?_eq_some_iff.mpr
      ⟨(rfl : _ = 'v' :: numeral ++ ':' :: ciphertext.payload), colon_notMem_of_spells spells⟩
    rw [parse_of_cut first second, if_neg (not_not.mpr rfl),
      parseVersion_eq_ok.mpr ⟨numeral, rfl, spells, fits⟩]
    rfl

theorem render_eq (ciphertext : TransitCiphertext) : ciphertext.render =
    "vault:v" ++ toString ciphertext.version ++ ":" ++ String.ofList ciphertext.payload := by
  rw [← String.toList_inj, render, String.toList_ofList]
  simp [scheme]

/-- What is written is read back, up to the largest version. -/
theorem parse_render (fits : ciphertext.version ≤ maxVersion) :
    parse ciphertext.render = .ok ciphertext := by
  refine parse_eq_ok.mpr
    ⟨(toString ciphertext.version).toList, ?_, Decimal.spells_toString _, fits⟩
  rw [render_eq, String.ofList_toList]

/-- A text is not read for its parts, its scheme or its version. -/
theorem parse_eq_error {cause : KeyManagementError} (failed : parse text = .error cause) :
    cause = .malformedCiphertext ∨ (∃ found, cause = .scheme found) ∨
      ∃ found, cause = .versionText found := by
  rcases parse_cases text with malformed | ⟨lead, rest, middle, payload, first, second⟩
  · cases malformed.symm.trans failed
    exact .inl rfl
  · rw [parse_of_cut first second] at failed
    split at failed
    next =>
      cases failed
      exact .inr (.inl ⟨_, rfl⟩)
    next =>
      unfold parseVersion at failed
      split at failed
      next numeral =>
        cases read : Decimal.read maxVersion numeral with
        | ok version =>
          rw [read] at failed
          cases failed
        | error defect =>
          rw [read] at failed
          cases failed
          exact .inr (.inr ⟨_, rfl⟩)
      next =>
        cases failed
        exact .inr (.inr ⟨_, rfl⟩)

end KeyEnvelope.TransitCiphertext
