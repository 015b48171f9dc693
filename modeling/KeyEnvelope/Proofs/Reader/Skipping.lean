import KeyEnvelope.Proofs.Reader.Discard
import KeyEnvelope.Proofs.Reader.Interruption

/-!
# What a skipping reader gives

A skipping reader has left the content of the inner script behind the pending bytes
and behind the bytes that failing attempts to discard them lose (`account`).  Over a
reader that fails only to be asked again no attempt fails, and nothing is lost (`patient`).
On a script without failures every request succeeds (`steady_account`, `answers`), and
after one nothing is pending; a skip passes over as many of the bytes as it says
(`skip_of_steady`).
-/

namespace KeyEnvelope.SkippingReader

/-! ## One request -/

section Request

variable {ρ : Type} [Reader ρ] {n : Nat} {r r' : SkippingReader ρ} {data : Bytes}
  {error : StreamError}

theorem discardPending_eq_ok (h : r.discardPending = .ok () r') :
    (r.pending = 0 ∧ r' = r) ∨
      ∃ missing, r'.pending = 0 ∧ 0 < r.pending ∧
        Reader.discardLoop (min r.pending Reader.maxDiscardRequest) r.pending r.inner =
          .ok missing r'.inner := by
  unfold discardPending at h
  split at h
  next none_pending => cases h; exact .inl ⟨none_pending, rfl⟩
  next some_pending =>
    split at h <;> cases h
    next discarded =>
      unfold Reader.discard at discarded
      split at discarded <;> cases discarded
      next missing loop => exact .inr ⟨missing, rfl, Nat.pos_of_ne_zero some_pending, loop⟩

theorem discardPending_eq_error (h : r.discardPending = .error error r') :
    r'.pending = r.pending ∧
      Reader.discardLoop (min r.pending Reader.maxDiscardRequest) r.pending r.inner =
        .error error r'.inner := by
  unfold discardPending at h
  split at h
  next => cases h
  next =>
    split at h <;> cases h
    next discarded =>
      unfold Reader.discard at discarded
      split at discarded <;> cases discarded
      next loop => exact ⟨rfl, loop⟩

theorem read_eq_ok (h : Reader.read n r = .ok data r') :
    ∃ ready, r.discardPending = .ok () ready ∧
      Reader.read n ready.inner = .ok data r'.inner ∧ r'.pending = ready.pending := by
  change SkippingReader.read n r = .ok data r' at h
  unfold SkippingReader.read at h
  split at h
  next => cases h
  next ready discarded =>
    split at h <;> cases h
    next read => exact ⟨ready, discarded, read, rfl⟩

theorem read_eq_error (h : Reader.read n r = .error error r') :
    r.discardPending = .error error r' ∨
      ∃ ready, r.discardPending = .ok () ready ∧
        Reader.read n ready.inner = .error error r'.inner ∧ r'.pending = ready.pending := by
  change SkippingReader.read n r = .error error r' at h
  unfold SkippingReader.read at h
  split at h
  next discarded => cases h; exact .inl discarded
  next ready discarded =>
    split at h <;> cases h
    next read => exact .inr ⟨ready, discarded, read, rfl⟩

theorem pending_of_read_ok (h : Reader.read n r = .ok data r') : r'.pending = 0 := by
  rcases read_eq_ok h with ⟨ready, discarded, -, pending⟩
  rcases discardPending_eq_ok discarded with ⟨none_pending, rfl⟩ | ⟨_, done, _⟩
  · exact pending.trans none_pending
  · exact pending.trans done

end Request

/-! ## Over a reader that fails only to be asked again -/

section Patient

open Reader (Patient Takes)

variable {ρ : Type} [Reader ρ] {kept : ρ → Prop} {left : ρ → Bytes} {r : SkippingReader ρ}

theorem discardPending_of_patient (patient : Patient kept left) (start : kept r.inner) :
    ∃ ready, r.discardPending = .ok () ready ∧ ready.pending = 0 ∧ kept ready.inner ∧
      left ready.inner = (left r.inner).drop r.pending ∧
      ∃ sizes, Takes (left r.inner) r.pending r.inner ready.inner sizes := by
  by_cases none_pending : r.pending = 0
  · refine ⟨r, ?_, none_pending, start, ?_, [], ?_⟩
    · rw [discardPending, if_pos none_pending]
    · rw [none_pending, List.drop_zero]
    · rw [none_pending]
      exact .refl ..
  · rcases patient.discard r.pending start with ⟨inner, discarded, start', rest, taken⟩
    refine ⟨{ r with inner, pending := 0 }, ?_, rfl, start', rest, taken⟩
    rw [discardPending, if_neg none_pending, discarded]

/-- Once the pending bytes are discarded, what lay behind them is left. -/
theorem left_of_discardPending {ready : SkippingReader ρ} (patient : Patient kept left)
    (start : kept r.inner) (discarded : r.discardPending = .ok () ready) :
    ready.pending = 0 ∧ kept ready.inner ∧ left ready.inner = (left r.inner).drop r.pending := by
  rcases discardPending_of_patient patient start with ⟨ready', same, none_pending, start', rest, -⟩
  rw [discarded] at same
  cases same
  exact ⟨none_pending, start', rest⟩

/-- A skipping reader over a patient one gives what lies behind the pending bytes, and fails
only to be asked again. -/
theorem patient (inner : Patient kept left) :
    Patient (fun r : SkippingReader ρ => kept r.inner)
      (fun r => (left r.inner).drop r.pending) where
  ok := by
    intro n r r' data start read
    rcases read_eq_ok read with ⟨ready, discarded, inner_read, pending⟩
    rcases left_of_discardPending inner start discarded with ⟨none_pending, start', rest⟩
    rcases inner.ok start' inner_read with ⟨start'', step⟩
    refine ⟨start'', ?_⟩
    rw [pending, none_pending, List.drop_zero, ← rest, step]
  error := by
    intro n r r' error start read
    rcases read_eq_error read with discarded | ⟨ready, discarded, inner_read, pending⟩
    · rcases discardPending_of_patient inner start with ⟨ready, done, -⟩
      cases discarded.symm.trans done
    · rcases left_of_discardPending inner start discarded with ⟨none_pending, start', rest⟩
      rcases inner.error start' inner_read with ⟨start'', step⟩
      refine ⟨start'', ?_⟩
      rw [pending, none_pending, List.drop_zero, ← rest, step]
  ended := by
    intro n r r' start positive read
    rcases read_eq_ok read with ⟨ready, discarded, inner_read, -⟩
    rcases left_of_discardPending inner start discarded with ⟨-, start', rest⟩
    rw [← rest, inner.ended start' positive inner_read]
  interrupted := by
    intro n r r' error start read
    rcases read_eq_error read with discarded | ⟨ready, discarded, inner_read, -⟩
    · rcases discardPending_of_patient inner start with ⟨ready, done, -⟩
      cases discarded.symm.trans done
    · exact inner.interrupted (left_of_discardPending inner start discarded).2.1 inner_read

end Patient

/-! ## The bytes left -/

variable {ρ : Type} [ScriptedReader ρ] {n : Nat} {r r' : SkippingReader ρ} {data : Bytes}
  {error : StreamError}

open ScriptedReader (script)

/-- The bytes that a skipping reader still gives out. -/
def left (r : SkippingReader ρ) : Bytes :=
  (script r.inner).content.drop (r.pending + (script r.inner).lost r.pending r.pending)

theorem left_of_pending_eq_zero (none_pending : r.pending = 0) :
    left r = (script r.inner).content := by
  rw [left, none_pending, Script.lost_zero, List.drop_zero]

section Closed

variable {kept : Script → Prop}
  (closed : ∀ {n s outcome s'}, kept s → Script.answer n s = (outcome, s') → kept s')

include closed

/-- Once nothing is pending, the content of the inner script is what is left. -/
theorem ready_of_discardPending (filled : (script r.inner).Filled) (start : kept (script r.inner))
    (h : r.discardPending = .ok () r') :
    kept (script r'.inner) ∧ r'.pending = 0 ∧ left r = (script r'.inner).content := by
  rcases discardPending_eq_ok h with ⟨none_pending, rfl⟩ | ⟨missing, done, positive, loop⟩
  · exact ⟨start, none_pending, left_of_pending_eq_zero none_pending⟩
  · have start' := Reader.script_of_discardLoop closed
      (min r.pending Reader.maxDiscardRequest) r.pending r.inner start
    rw [loop] at start'
    refine ⟨start', done, ?_⟩
    have size_pos : 0 < min r.pending Reader.maxDiscardRequest :=
      Nat.lt_min.mpr ⟨positive, by decide⟩
    obtain ⟨gone, content, total, ended, lost⟩ :=
      Reader.content_of_discardLoop_ok r.pending size_pos filled loop
    rw [left, lost, Nat.add_zero, content]
    rcases Nat.eq_zero_or_pos missing with zero | some_missing
    · have all_gone : gone.length = r.pending := by omega
      rw [← all_gone, List.drop_left]
    · rw [ended (by omega), Script.content_nil, List.append_nil,
        List.drop_of_length_le (by omega)]

/-- An attempt to discard that fails changes nothing of what is left. -/
theorem left_of_discardPending_error (start : kept (script r.inner))
    (h : r.discardPending = .error error r') :
    kept (script r'.inner) ∧ left r = left r' := by
  rcases discardPending_eq_error h with ⟨still_pending, loop⟩
  have start' := Reader.script_of_discardLoop closed
    (min r.pending Reader.maxDiscardRequest) r.pending r.inner start
  rw [loop] at start'
  refine ⟨start', ?_⟩
  obtain ⟨gone, content, lost⟩ :=
    Reader.content_of_discardLoop_error r.pending (Nat.le_refl _) loop
  have behind : r.pending + (0 + gone.length + (script r'.inner).lost r.pending r.pending) =
      gone.length + (r.pending + (script r'.inner).lost r.pending r.pending) := by omega
  rw [left, left, still_pending, lost, content, Nat.sub_self, behind, List.drop_length_add_append]

/-- A skipping reader on a script without empty pieces gives out what is left of it,
whatever failures the script holds. -/
theorem account (filled : ∀ {s}, kept s → s.Filled) :
    Reader.Account (fun r : SkippingReader ρ => kept (script r.inner)) left where
  ok := by
    intro n r r' data start read
    rcases read_eq_ok read with ⟨ready, discarded, inner_read, pending⟩
    obtain ⟨start', none_pending, same⟩ :=
      ready_of_discardPending closed (filled start) start discarded
    have answered := ScriptedReader.answer_of_ok inner_read
    rw [same, left_of_pending_eq_zero (pending.trans none_pending)]
    exact ⟨closed start' answered, Script.content_of_answer_ok answered⟩
  error := by
    intro n r r' error start read
    rcases read_eq_error read with discarded | ⟨ready, discarded, inner_read, pending⟩
    · exact left_of_discardPending_error closed start discarded
    · obtain ⟨start', none_pending, same⟩ :=
        ready_of_discardPending closed (filled start) start discarded
      have answered := ScriptedReader.answer_of_error inner_read
      rw [same, left_of_pending_eq_zero (pending.trans none_pending)]
      exact ⟨closed start' answered, Script.content_of_answer_error answered⟩
  ended := by
    intro n r r' start positive read
    rcases read_eq_ok read with ⟨ready, discarded, inner_read, pending⟩
    obtain ⟨start', none_pending, same⟩ :=
      ready_of_discardPending closed (filled start) start discarded
    have answered := ScriptedReader.answer_of_ok inner_read
    rw [same, ((filled start').eq_nil_of_answer positive answered).1, Script.content_nil]

end Closed

/-! ## Without failures -/

/-- A skipping reader on a script without failures gives out what lies behind the
pending bytes. -/
theorem steady_account :
    Reader.Account (fun r : SkippingReader ρ => (script r.inner).Steady)
      (fun r => (script r.inner).content.drop r.pending) :=
  (patient ScriptedReader.steady_patient).toAccount

/-- On a script without failures nothing stays pending. -/
theorem discardPending_of_steady (steady : (script r.inner).Steady) :
    ∃ ready, r.discardPending = .ok () ready ∧ (script ready.inner).Steady ∧ ready.pending = 0 ∧
      (script ready.inner).content = (script r.inner).content.drop r.pending := by
  rcases discardPending_of_patient ScriptedReader.steady_patient steady with
    ⟨ready, discarded, none_pending, steady', content, -⟩
  exact ⟨ready, discarded, steady', none_pending, content⟩

/-- On a script without failures no request fails. -/
theorem answers : Reader.Answers (fun r : SkippingReader ρ => (script r.inner).Steady) := by
  intro n r steady
  obtain ⟨ready, done, steady', -⟩ := discardPending_of_steady steady
  cases read : Reader.read n r with
  | ok data r' => exact ⟨data, r', rfl⟩
  | error error r' =>
    rcases read_eq_error read with discarded | ⟨_, discarded, inner_read, _⟩
    · cases discarded.symm.trans done
    · cases discarded.symm.trans done
      rcases ScriptedReader.answers n _ steady' with ⟨data, last, inner_ok⟩
      cases inner_read.symm.trans inner_ok

/-- On a script without failures a skipping reader gives what lies behind the pending bytes. -/
theorem gives_of_steady (steady : (script r.inner).Steady) :
    Reader.Gives r ((script r.inner).content.drop r.pending) :=
  steady_account.gives answers steady

/-- On a script without failures a reader skips `n` of the bytes that it gives, or all of
them. -/
theorem skip_of_steady (n : Nat) (steady : (script r.inner).Steady) :
    ∃ skipped,
      r.skip n = .ok (min n ((script r.inner).content.drop r.pending).length) skipped ∧
      (script skipped.inner).Steady ∧ skipped.pending = 0 ∧
      (script skipped.inner).content = ((script r.inner).content.drop r.pending).drop n := by
  obtain ⟨ready, discarded, steady', none_pending, content⟩ := discardPending_of_steady steady
  obtain ⟨inner, moved, steady'', left, -⟩ := ScriptedReader.steady_patient.discard n steady'
  rw [content] at moved left
  refine ⟨{ ready with inner }, ?_, steady'', none_pending, left⟩
  rw [skip, discarded]
  dsimp only
  rw [moved]

/-- On a script without failures a request uses up what is pending and what it
returns. -/
theorem length_content_of_read_ok (steady : (script r.inner).Steady)
    (h : Reader.read n r = .ok data r') :
    (script r.inner).content.length ≤
      r.pending + data.length + (script r'.inner).content.length := by
  rcases steady_account.ok steady h with ⟨-, step⟩
  rw [pending_of_read_ok h, List.drop_zero] at step
  have length := congrArg List.length step
  rw [List.length_drop, List.length_append] at length
  omega

/-- Under a limit, requests use up no more than what is pending and the limit together,
however much there is. -/
theorem length_content_of_requests (sizes : List Nat) {r : LimitedReader (SkippingReader ρ)}
    (steady : (script r.inner.inner).Steady) :
    (script r.inner.inner).content.length ≤ r.inner.pending + r.limit +
      (script (Reader.requests sizes r).2.inner.inner).content.length := by
  induction sizes generalizing r with
  | nil => exact Nat.le_add_left ..
  | cons n sizes ih =>
    rcases LimitedReader.answers answers n r steady with ⟨data, r', read⟩
    have run : (Reader.requests (n :: sizes) r).2 = (Reader.requests sizes r').2 := by
      rw [Reader.requests, read]
    obtain ⟨steady', -⟩ := (LimitedReader.account steady_account).ok steady read
    have rest := ih steady'
    rw [run]
    rcases LimitedReader.read_eq_ok read with ⟨_, -, rfl⟩ | ⟨_, inner_read, limit⟩
    · exact rest
    · have step := length_content_of_read_ok steady inner_read
      have within := Reader.length_le inner_read
      rw [pending_of_read_ok inner_read, limit] at rest
      omega

end KeyEnvelope.SkippingReader
