import KeyEnvelope.KeyService

/-!
# Steps of services

A sequence of steps succeeds exactly if its first step does and the rest does from the
state that the first one leaves.  A computation without state is a step that changes
nothing, and a step on a part of a state changes that part only.
-/

namespace KeyEnvelope

variable {ε ε' σ τ α β : Type}

theorem bind_eq_ok {first : EStateM ε σ α} {rest : α → EStateM ε σ β} {s s' : σ} {b : β} :
    (first >>= rest) s = .ok b s' ↔
      ∃ a middle, first s = .ok a middle ∧ rest a middle = .ok b s' := by
  change EStateM.bind first rest s = _ ↔ _
  unfold EStateM.bind
  cases first s with
  | ok a middle =>
    refine ⟨fun rest_ok => ⟨a, middle, rfl, rest_ok⟩, fun both => ?_⟩
    rcases both with ⟨a', middle', same, rest_ok⟩
    cases same
    exact rest_ok
  | error e middle =>
    refine ⟨fun failed => (by cases failed), fun both => ?_⟩
    rcases both with ⟨a', middle', same, -⟩
    cases same

theorem bind_of_ok {first : EStateM ε σ α} {rest : α → EStateM ε σ β} {s middle : σ} {a : α}
    (succeeded : first s = .ok a middle) : (first >>= rest) s = rest a middle := by
  change EStateM.bind first rest s = _
  unfold EStateM.bind
  rw [succeeded]

theorem bind_of_error {first : EStateM ε σ α} {rest : α → EStateM ε σ β} {s s' : σ} {e : ε}
    (failed : first s = .error e s') : (first >>= rest) s = .error e s' := by
  change EStateM.bind first rest s = _
  unfold EStateM.bind
  rw [failed]

theorem attempt_eq_ok {group : ε → EnvelopeError} {outcome : Except ε α} {s s' : σ} {a : α} :
    attempt group outcome s = .ok a s' ↔ outcome = .ok a ∧ s' = s := by
  cases outcome with
  | ok a' =>
    refine ⟨fun same => (by cases same; exact ⟨rfl, rfl⟩), fun both => ?_⟩
    rcases both with ⟨same, rfl⟩
    cases same
    rfl
  | error cause => exact ⟨fun failed => (by cases failed), fun both => (by cases both.1)⟩

theorem attempt_eq_error {group : ε → EnvelopeError} {outcome : Except ε α} {s s' : σ}
    {e : EnvelopeError} :
    attempt group outcome s = .error e s' ↔
      ∃ cause, outcome = .error cause ∧ e = group cause ∧ s' = s := by
  cases outcome with
  | ok a => exact ⟨fun succeeded => (by cases succeeded), fun some => (by cases some.choose_spec.1)⟩
  | error cause =>
    refine ⟨fun same => (by cases same; exact ⟨cause, rfl, rfl, rfl⟩), fun some => ?_⟩
    rcases some with ⟨cause', same, rfl, rfl⟩
    cases same
    rfl

/-- The state in which steps end. -/
def finalState : EStateM.Result ε σ α → σ
  | .ok _ s => s
  | .error _ s => s

theorem finalState_attempt (group : ε → EnvelopeError) (outcome : Except ε α) (s : σ) :
    finalState (attempt group outcome s) = s := by
  cases outcome <;> rfl

/-- Steps for the items of a list succeed exactly if the first does and the others do
from the state that it leaves. -/
theorem mapM_cons_eq_ok {step : α → EStateM ε σ β} {item : α} {items : List α} {results : List β}
    {s s' : σ} :
    (item :: items).mapM step s = .ok results s' ↔ ∃ result middle others,
      step item s = .ok result middle ∧ items.mapM step middle = .ok others s' ∧
        results = result :: others := by
  rw [List.mapM_cons, bind_eq_ok]
  refine exists_congr fun result => exists_congr fun middle => ?_
  rw [bind_eq_ok]
  refine ⟨fun steps => ?_, fun steps => ?_⟩
  · obtain ⟨first, others, _, rest, same⟩ := steps
    cases same
    exact ⟨others, first, rest, rfl⟩
  · obtain ⟨others, first, rest, rfl⟩ := steps
    exact ⟨first, others, s', rest, rfl⟩

/-- The outcome of a step on a part of a state, seen from the whole state. -/
def onPart (whole : σ → τ) (raise : ε → ε') : EStateM.Result ε σ α → EStateM.Result ε' τ α
  | .ok a s => .ok a (whole s)
  | .error e s => .error (raise e) (whole s)

theorem onPart_eq_ok {whole : σ → τ} {raise : ε → ε'} {outcome : EStateM.Result ε σ α} {a : α}
    {t : τ} : onPart whole raise outcome = .ok a t ↔ ∃ s, outcome = .ok a s ∧ t = whole s := by
  cases outcome with
  | ok a' s =>
    refine ⟨fun same => (by cases same; exact ⟨s, rfl, rfl⟩), fun part => ?_⟩
    rcases part with ⟨s', same, rfl⟩
    cases same
    rfl
  | error e s =>
    refine ⟨fun failed => (by cases failed), fun part => ?_⟩
    rcases part with ⟨s', same, -⟩
    cases same

theorem onPart_eq_error {whole : σ → τ} {raise : ε → ε'} {outcome : EStateM.Result ε σ α}
    {e' : ε'} {t : τ} :
    onPart whole raise outcome = .error e' t ↔
      ∃ e s, outcome = .error e s ∧ e' = raise e ∧ t = whole s := by
  cases outcome with
  | ok a s =>
    refine ⟨fun succeeded => (by cases succeeded), fun part => ?_⟩
    rcases part with ⟨e, s', same, -⟩
    cases same
  | error e s =>
    refine ⟨fun same => (by cases same; exact ⟨e, s, rfl, rfl, rfl⟩), fun part => ?_⟩
    rcases part with ⟨e₁, s', same, rfl, rfl⟩
    cases same
    rfl

end KeyEnvelope
