import KeyEnvelope.Proofs.Reader.Interruption
import KeyEnvelope.Proofs.Reader.Skipping

/-!
# Where a skip lands

Over a reader that fails only to be asked again, a skip passes over the pending bytes and then
over as many more as it says, hands out no byte behind these, and the reader goes on from there
(`LandsAt`).  Only the number of the bytes and what is pending decide where that is
(`lands_of_skip`): two skips land where one by their sum does, and no cut into pieces and no
interruption shows.
-/

namespace KeyEnvelope.SkippingReader

open Reader (Patient Takes GivesRetried)

variable {ρ : Type} [Reader ρ] {kept : ρ → Prop} {left : ρ → Bytes} {r : SkippingReader ρ}

/-! ## Skips -/

/-- A reader was brought from `r` to stand behind the first `count` of these bytes: nothing is
pending, no other bytes were taken off the inner reader, and the rest of them is given out. -/
structure LandsAt (bytes : Bytes) (count : Nat) (r landed : SkippingReader ρ) : Prop where
  none_pending : landed.pending = 0
  taken : ∃ sizes, Takes bytes count r.inner landed.inner sizes
  rest : GivesRetried landed (bytes.drop count)

theorem LandsAt.trans {bytes : Bytes} {a b : Nat} {r first second : SkippingReader ρ}
    (there : LandsAt bytes a r first) (further : LandsAt (bytes.drop a) b first second) :
    LandsAt bytes (a + b) r second := by
  rcases there.taken with ⟨sizes, taken⟩
  rcases further.taken with ⟨later, taken'⟩
  refine ⟨further.none_pending, ⟨sizes ++ later, taken.trans taken'⟩, ?_⟩
  rw [← List.drop_drop]
  exact further.rest

theorem exists_skip_of_patient (inner : Patient kept left) (start : kept r.inner) (n : Nat) :
    ∃ landed, r.skip n =
        .ok (min n ((left r.inner).length - min r.pending (left r.inner).length)) landed ∧
      LandsAt (left r.inner) (r.pending + n) r landed ∧ kept landed.inner ∧
      left landed.inner = (left r.inner).drop (r.pending + n) := by
  rcases discardPending_of_patient inner start with
    ⟨ready, discarded, none_pending, start', rest, sizes, taken⟩
  rcases inner.discard n start' with ⟨last, moved, start'', rest', later, taken'⟩
  rw [rest] at moved rest' taken'
  rw [List.drop_drop] at rest'
  have passed : min n ((left r.inner).drop r.pending).length =
      min n ((left r.inner).length - min r.pending (left r.inner).length) := by
    rw [List.length_drop]
    omega
  rw [passed] at moved
  refine ⟨{ ready with inner := last }, ?_, ?_, start'', rest'⟩
  · simp only [skip, discarded, moved]
  · refine ⟨none_pending, ⟨sizes ++ later, taken.trans taken'⟩, ?_⟩
    have behind : (left last).drop ready.pending = (left r.inner).drop (r.pending + n) := by
      rw [none_pending, List.drop_zero, rest']
    rw [← behind]
    exact (patient inner).givesRetried (r := { ready with inner := last }) start''

/-- A skip says how many bytes it passed over behind the pending ones, lands right behind them
and was sparing on the way; two skips land where one by their sum does, and pass over as many
bytes together.  A reader with the same bytes to come and as many pending lands at the same
place, whatever pieces the bytes come in and wherever it is interrupted. -/
theorem lands_of_skip (inner : Patient kept left) (r : SkippingReader ρ) (start : kept r.inner) :
    (∀ n, ∃ landed,
      r.skip n =
        .ok (min n ((left r.inner).length - min r.pending (left r.inner).length)) landed ∧
      LandsAt (left r.inner) (r.pending + n) r landed) ∧
    (∀ a b, ∃ passed later first second once,
      r.skip a = .ok passed first ∧ first.skip b = .ok later second ∧
      r.skip (a + b) = .ok (passed + later) once ∧
      LandsAt (left r.inner) (r.pending + (a + b)) r second ∧
      LandsAt (left r.inner) (r.pending + (a + b)) r once) ∧
    ∀ {σ : Type} [Reader σ] {kept' : σ → Prop} {left' : σ → Bytes}, Patient kept' left' →
      ∀ other : SkippingReader σ, kept' other.inner → left' other.inner = left r.inner →
        other.pending = r.pending → ∀ n, ∃ passed landed landed',
          r.skip n = .ok passed landed ∧ other.skip n = .ok passed landed' ∧
          LandsAt (left r.inner) (r.pending + n) r landed ∧
          LandsAt (left r.inner) (r.pending + n) other landed' := by
  refine ⟨fun n => ?_, fun a b => ?_, ?_⟩
  · rcases exists_skip_of_patient inner start n with ⟨landed, skipped, lands, -⟩
    exact ⟨landed, skipped, lands⟩
  · rcases exists_skip_of_patient inner start a with ⟨first, skipped, lands, start', rest⟩
    rcases exists_skip_of_patient inner start' b with ⟨second, further, lands', -⟩
    rcases exists_skip_of_patient inner start (a + b) with ⟨once, whole, lands_once, -⟩
    rw [lands.none_pending, Nat.zero_add, rest] at lands'
    rw [lands.none_pending, rest, List.length_drop] at further
    refine ⟨_, _, first, second, once, skipped, further, ?_, ?_, lands_once⟩
    · rw [whole]
      congr 1
      omega
    · rw [← Nat.add_assoc]
      exact lands.trans lands'
  · intro σ _ kept' left' inner' other start' same_left same_pending n
    rcases exists_skip_of_patient inner start n with ⟨landed, skipped, lands, -⟩
    rcases exists_skip_of_patient inner' start' n with ⟨landed', skipped', lands', -⟩
    rw [same_left, same_pending] at skipped' lands'
    exact ⟨_, landed, landed', skipped, skipped', lands, lands'⟩

/-- Three bytes pending, with interruptions before and behind them: a skip inside the data with
its requests, one in two steps past its end, and the same data in one piece. -/
theorem lands_of_skip_past_end :
    let interruption : Piece := .failure ⟨.interrupted, ""⟩
    let source : Source :=
      ⟨[.data [1, 2], interruption, .data [3, 4, 5], interruption, .data [6]], []⟩
    let reader := fromOffset source 19
    (∃ landed, reader.skip 2 = .ok 2 landed ∧ LandsAt [1, 2, 3, 4, 5, 6] 5 reader landed ∧
      ∃ sizes, landed.inner.requests = sizes.reverse ∧ Reader.Sparing 5 source sizes) ∧
    (∃ passed later first second, reader.skip 1 = .ok passed first ∧
      first.skip 9 = .ok later second ∧ passed + later = 3 ∧
      LandsAt [1, 2, 3, 4, 5, 6] 13 reader second) ∧
    ∃ landed, (fromOffset (⟨[.data [1, 2, 3, 4, 5, 6]], []⟩ : Source) 19).skip 2 =
      .ok 2 landed := by
  intro interruption source reader
  have retriable : Script.Retriable source.pieces := by
    simp [source, interruption, Script.Retriable, Script.Filled]
  have whole : Script.Retriable [.data [1, 2, 3, 4, 5, 6]] := by
    simp [Script.Retriable, Script.Filled]
  rcases lands_of_skip ScriptedReader.patient reader retriable with ⟨skips, adds, alike⟩
  rcases skips 2 with ⟨landed, skipped, lands⟩
  rcases skips (1 + 9) with ⟨last, skipped_ten, -⟩
  rcases adds 1 9 with ⟨passed, later, first, second, once, one, nine, both, lands', -⟩
  rcases alike ScriptedReader.patient (fromOffset (⟨[.data [1, 2, 3, 4, 5, 6]], []⟩ : Source) 19)
    whole rfl rfl 2 with ⟨_, _, landed', skipped', other, -⟩
  rcases lands.taken with ⟨sizes, taken⟩
  have recorded : landed.inner.requests = sizes.reverse := by
    rw [taken.recorded Source.requests Source.records]
    exact List.append_nil _
  refine ⟨⟨landed, skipped, lands, sizes, recorded, taken.sparing⟩,
    ⟨passed, later, first, second, one, nine, ?_, lands'⟩, ?_⟩
  · rw [both] at skipped_ten
    exact (EStateM.Result.ok.inj skipped_ten).1
  · rw [skipped] at skipped'
    cases skipped'
    exact ⟨landed', other⟩

end KeyEnvelope.SkippingReader
