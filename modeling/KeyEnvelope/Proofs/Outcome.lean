import Mathlib.Data.List.Forall2

/-!
# Outcomes one after the other

Computations without state succeed together exactly if each of them does.  A list of
them is taken element by element (`mapM_eq_ok`), so what reads a list back is known as
soon as it is known what reads one element back.
-/

namespace KeyEnvelope.Outcome

variable {ε ε' α β : Type}

theorem bind_eq_ok {first : Except ε α} {rest : α → Except ε β} {b : β} :
    first >>= rest = .ok b ↔ ∃ a, first = .ok a ∧ rest a = .ok b := by
  cases first with
  | ok a =>
    refine ⟨fun rest_ok => ⟨a, rfl, rest_ok⟩, fun both => ?_⟩
    obtain ⟨a', same, rest_ok⟩ := both
    cases same
    exact rest_ok
  | error e =>
    refine ⟨fun failed => (by cases failed), fun both => ?_⟩
    obtain ⟨a, same, -⟩ := both
    cases same

theorem bind_eq_error {first : Except ε α} {rest : α → Except ε β} {e : ε} :
    first >>= rest = .error e ↔
      first = .error e ∨ ∃ a, first = .ok a ∧ rest a = .error e := by
  cases first with
  | ok a =>
    refine ⟨fun failed => .inr ⟨a, rfl, failed⟩, fun either => ?_⟩
    obtain failed | ⟨a', same, failed⟩ := either
    · cases failed
    · cases same
      exact failed
  | error e' =>
    refine ⟨fun same => .inl (by cases same; rfl), fun either => ?_⟩
    obtain same | ⟨a, other, -⟩ := either
    · cases same
      rfl
    · cases other

/-- What comes after a check succeeds only if the check is passed. -/
theorem check_eq_ok {p : Prop} [Decidable p] {e : ε} {rest : Unit → Except ε α} {a : α} :
    (if p then throw e >>= rest else rest ()) = .ok a ↔ ¬ p ∧ rest () = .ok a := by
  split
  next refused => exact ⟨fun failed => (by cases failed), fun both => absurd refused both.1⟩
  next passed => exact ⟨fun rest_ok => ⟨passed, rest_ok⟩, fun both => both.2⟩

theorem mapError_eq_ok {group : ε → ε'} {outcome : Except ε α} {a : α} :
    outcome.mapError group = .ok a ↔ outcome = .ok a := by
  cases outcome with
  | ok a' => exact ⟨fun same => (by cases same; rfl), fun same => (by cases same; rfl)⟩
  | error e => exact ⟨fun failed => (by cases failed), fun failed => (by cases failed)⟩

theorem mapError_eq_error {group : ε → ε'} {outcome : Except ε α} {e' : ε'} :
    outcome.mapError group = .error e' ↔ ∃ e, outcome = .error e ∧ group e = e' := by
  cases outcome with
  | ok a =>
    refine ⟨fun failed => (by cases failed), fun failed => ?_⟩
    obtain ⟨e, same, -⟩ := failed
    cases same
  | error e =>
    refine ⟨fun same => ⟨e, rfl, Except.error.inj same⟩, fun failed => ?_⟩
    obtain ⟨e₁, same, rfl⟩ := failed
    cases same
    rfl

/-- A list of computations succeeds exactly if each does, with their results in order. -/
theorem mapM_eq_ok {f : α → Except ε β} {items : List α} {results : List β} :
    items.mapM f = .ok results ↔
      List.Forall₂ (fun item result => f item = .ok result) items results := by
  induction items generalizing results with
  | nil =>
    rw [List.mapM_nil, List.forall₂_nil_left_iff]
    exact ⟨fun same => (Except.ok.inj same).symm, fun empty => empty ▸ rfl⟩
  | cons item items ih =>
    simp only [List.mapM_cons, bind_eq_ok, ih, List.forall₂_cons_left_iff]
    refine ⟨fun steps => ?_, fun parts => ?_⟩
    · obtain ⟨result, first, rest, others, same⟩ := steps
      exact ⟨result, rest, first, others, (Except.ok.inj same).symm⟩
    · obtain ⟨result, rest, first, others, rfl⟩ := parts
      exact ⟨result, first, rest, others, rfl⟩

theorem exists_of_mapM_eq_ok {f : α → Except ε β} {items : List α} {results : List β}
    (succeeded : items.mapM f = .ok results) {item : α} (member : item ∈ items) :
    ∃ result ∈ results, f item = .ok result := by
  have each := mapM_eq_ok.mp succeeded
  clear succeeded
  induction each with
  | nil => cases member
  | cons first _ ih =>
    rcases List.mem_cons.mp member with rfl | member
    · exact ⟨_, List.mem_cons_self, first⟩
    · obtain ⟨result, found, same⟩ := ih member
      exact ⟨result, List.mem_cons_of_mem _ found, same⟩

theorem exists_mapM_eq_ok {f : α → Except ε β} {items : List α}
    (each : ∀ item ∈ items, ∃ result, f item = .ok result) :
    ∃ results, items.mapM f = .ok results := by
  induction items with
  | nil => exact ⟨[], rfl⟩
  | cons item items ih =>
    obtain ⟨result, first⟩ := each item List.mem_cons_self
    obtain ⟨results, others⟩ := ih fun other member => each other (List.mem_cons_of_mem _ member)
    exact ⟨result :: results, mapM_eq_ok.mpr (.cons first (mapM_eq_ok.mp others))⟩

/-- A list of computations fails exactly as the first of them that does. -/
theorem mapM_eq_error_iff {f : α → Except ε β} {items : List α} {e : ε} :
    items.mapM f = .error e ↔ ∃ before item after, items = before ++ item :: after ∧
      (∀ earlier ∈ before, ∃ result, f earlier = .ok result) ∧ f item = .error e := by
  induction items with
  | nil =>
    refine ⟨fun failed => (by cases failed), fun parts => ?_⟩
    obtain ⟨before, item, after, split, -⟩ := parts
    cases (List.append_eq_nil_iff.mp split.symm).2
  | cons item items ih =>
    rw [List.mapM_cons, bind_eq_error]
    refine ⟨fun either => ?_, fun parts => ?_⟩
    · obtain first | ⟨result, first, rest⟩ := either
      · exact ⟨[], item, items, rfl, nofun, first⟩
      · obtain later | ⟨results, -, none⟩ := bind_eq_error.mp rest
        · obtain ⟨before, other, after, rfl, succeeded, failed⟩ := ih.mp later
          exact ⟨item :: before, other, after, rfl,
            List.forall_mem_cons.mpr ⟨⟨result, first⟩, succeeded⟩, failed⟩
        · cases none
    · obtain ⟨_ | ⟨earlier, before⟩, other, after, split, succeeded, failed⟩ := parts
      · cases split
        exact .inl failed
      · cases split
        obtain ⟨⟨result, first⟩, succeeded⟩ := List.forall_mem_cons.mp succeeded
        refine .inr ⟨result, first, bind_eq_error.mpr (.inl ?_)⟩
        exact ih.mpr ⟨before, other, after, rfl, succeeded, failed⟩

theorem mapM_eq_error {f : α → Except ε β} {items : List α} {e : ε}
    (failed : items.mapM f = .error e) : ∃ item ∈ items, f item = .error e := by
  obtain ⟨before, item, after, rfl, -, failed⟩ := mapM_eq_error_iff.mp failed
  exact ⟨item, List.mem_append_right before List.mem_cons_self, failed⟩

end KeyEnvelope.Outcome
