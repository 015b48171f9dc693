import KeyEnvelope.Reader.Limited
import KeyEnvelope.Proofs.Reader.Script

/-!
# Runs of requests

A run asks a reader for bytes again and again, and does not stop at a failure
(`requests`); draining a reader stops at the first request that returns nothing or
fails (`drain`).  An account of a reader says which bytes it still has to give: what a
request returns stands at their front, a failure costs none of them, and an empty
answer to a real request means that none are left.  Under an account the sizes of the
requests do not show in the bytes of a run (`Account.gives`).
-/

namespace KeyEnvelope.Reader

variable {ρ : Type} [Reader ρ]

/-- Requests of the given sizes one after the other, whether or not they fail: the
outcome of each, and the reader after the last. -/
def requests : (sizes : List Nat) → (r : ρ) → List (Except StreamError Bytes) × ρ
  | [], r => ([], r)
  | n :: sizes, r =>
    match read n r with
    | .ok data r' =>
      let (outcomes, last) := requests sizes r'
      (.ok data :: outcomes, last)
    | .error error r' =>
      let (outcomes, last) := requests sizes r'
      (.error error :: outcomes, last)

/-- The bytes that the successful requests of a run returned, in order. -/
def delivered : (outcomes : List (Except StreamError Bytes)) → Bytes
  | [] => []
  | .ok data :: outcomes => data ++ delivered outcomes
  | .error _ :: outcomes => delivered outcomes

/-- All bytes that requests of the given sizes return up to the first one that returns
none, together with the failure that ended the reading, if one did. -/
def drain (sizes : Nat → Nat) (r : ρ) : (Bytes × Option StreamError) × ρ :=
  match _h : read (sizes 0) r with
  | .ok [] r' => (([], none), r')
  | .ok (byte :: data) r' =>
    let ((rest, failure), last) := drain (fun i => sizes (i + 1)) r'
    ((byte :: data ++ rest, failure), last)
  | .error error r' => (([], some error), r')
termination_by remaining r
decreasing_by
  have taken := remaining_of_ok _h
  rw [List.length_cons] at taken
  omega

/-! ## Accounts -/

/-- The readers that `kept` holds of have the bytes `left` still to give. -/
structure Account (kept : ρ → Prop) (left : ρ → Bytes) : Prop where
  ok {n : Nat} {r r' : ρ} {data : Bytes} : kept r → read n r = .ok data r' →
    kept r' ∧ left r = data ++ left r'
  error {n : Nat} {r r' : ρ} {error : StreamError} : kept r → read n r = .error error r' →
    kept r' ∧ left r = left r'
  ended {n : Nat} {r r' : ρ} : kept r → 0 < n → read n r = .ok [] r' → left r = []

/-- The readers that `kept` holds of answer every request without a failure. -/
def Answers (kept : ρ → Prop) : Prop :=
  ∀ n r, kept r → ∃ data r', read n r = .ok data r'

variable {kept : ρ → Prop} {left : ρ → Bytes}

/-- What a run delivers and what is left after it are what was left before it. -/
theorem Account.requests (account : Account kept left) (sizes : List Nat) {r : ρ}
    (start : kept r) :
    kept (requests sizes r).2 ∧
      left r = delivered (requests sizes r).1 ++ left (requests sizes r).2 := by
  induction sizes generalizing r with
  | nil => exact ⟨start, rfl⟩
  | cons n sizes ih =>
    rw [Reader.requests]
    split
    next data r' read =>
      obtain ⟨start', step⟩ := account.ok start read
      obtain ⟨last, run⟩ := ih start'
      exact ⟨last, by rw [step, run, delivered, List.append_assoc]⟩
    next error r' read =>
      obtain ⟨start', step⟩ := account.error start read
      obtain ⟨last, run⟩ := ih start'
      exact ⟨last, by rw [step, run, delivered]⟩

/-- Some run delivers all that is left: one that asks often enough for a byte. -/
theorem Account.exists_delivered_eq (account : Account kept left) {r : ρ} (start : kept r) :
    ∃ sizes, delivered (Reader.requests sizes r).1 = left r := by
  -- A byte and a failure both use up something of the reader, so the asking ends.
  induction bound : remaining r using Nat.strongRecOn generalizing r with
  | ind bound_r ih =>
    subst bound
    cases read : Reader.read 1 r with
    | ok data r' =>
      obtain ⟨start', step⟩ := account.ok start read
      cases data with
      | nil => exact ⟨[], (account.ended start Nat.one_pos read).symm⟩
      | cons byte data =>
        have less := remaining_of_ok read
        rw [List.length_cons] at less
        obtain ⟨sizes, all⟩ := ih (remaining r') (by omega) start' rfl
        exact ⟨1 :: sizes, by simp only [Reader.requests, read, delivered, all, step]⟩
    | error error r' =>
      obtain ⟨start', step⟩ := account.error start read
      obtain ⟨sizes, all⟩ := ih (remaining r') (remaining_of_error read) start' rfl
      exact ⟨1 :: sizes, by simp only [Reader.requests, read, delivered, all, step]⟩

/-- Every run delivers a prefix of these bytes exactly if what is left is one. -/
theorem Account.delivered_prefix_iff (account : Account kept left) {r : ρ} (start : kept r)
    (bytes : Bytes) :
    (∀ sizes, delivered (Reader.requests sizes r).1 <+: bytes) ↔ left r <+: bytes := by
  refine ⟨fun all => ?_, fun within sizes => ?_⟩
  · obtain ⟨sizes, whole⟩ := account.exists_delivered_eq start
    exact whole ▸ all sizes
  · obtain ⟨-, step⟩ := account.requests sizes start
    exact List.IsPrefix.trans ⟨_, step.symm⟩ within

/-- Draining a reader that does not fail yields exactly what is left. -/
theorem Account.drain (account : Account kept left) (answers : Answers kept)
    {sizes : Nat → Nat} (positive : ∀ i, 0 < sizes i) {r : ρ} (start : kept r) :
    (drain sizes r).1 = (left r, none) := by
  fun_induction Reader.drain sizes r with
  | case1 sizes r r' read => rw [account.ended start (positive 0) read]
  | case2 sizes r byte data r' read rest failure last run ih =>
    obtain ⟨start', step⟩ := account.ok start read
    have tail : (rest, failure) = (left r', none) := by
      have tail := ih (fun i => positive (i + 1)) start'
      rwa [run] at tail
    cases tail
    rw [step]
  | case3 sizes r error r' read =>
    rcases answers (sizes 0) _ start with ⟨data, r'', answered⟩
    rw [read] at answered
    cases answered

/-- However it is asked, a reader gives these bytes: it delivers them in order, without a
failure, and all of them to requests of which each asks for something. -/
structure Gives (r : ρ) (bytes : Bytes) : Prop where
  part : ∀ sizes, delivered (Reader.requests sizes r).1 <+: bytes
  answers : ∀ sizes error, .error error ∉ (Reader.requests sizes r).1
  whole : ∀ sizes, (∀ i, 0 < sizes i) → (Reader.drain sizes r).1 = (bytes, none)

theorem Account.error_notMem_requests (account : Account kept left) (answers : Answers kept)
    (sizes : List Nat) {r : ρ} (start : kept r) (error : StreamError) :
    .error error ∉ (Reader.requests sizes r).1 := by
  induction sizes generalizing r with
  | nil => exact List.not_mem_nil
  | cons n sizes ih =>
    obtain ⟨data, r', read⟩ := answers n r start
    rw [Reader.requests, read]
    exact List.not_mem_cons_of_ne_of_not_mem nofun (ih (account.ok start read).1)

/-- A reader that does not fail gives what is left. -/
theorem Account.gives (account : Account kept left) (answers : Answers kept) {r : ρ}
    (start : kept r) : Gives r (left r) where
  part := (account.delivered_prefix_iff start _).mpr (List.prefix_refl _)
  answers := fun sizes => account.error_notMem_requests answers sizes start
  whole := fun _ positive => account.drain answers positive start

end KeyEnvelope.Reader

namespace KeyEnvelope.ScriptedReader

variable {ρ : Type} [ScriptedReader ρ]

/-- A scripted reader has left the content of its script. -/
theorem account {kept : Script → Prop}
    (closed : ∀ {n s outcome s'}, kept s → Script.answer n s = (outcome, s') → kept s')
    (filled : ∀ {s}, kept s → s.Filled) :
    Reader.Account (fun r : ρ => kept (script r)) (fun r => (script r).content) where
  ok := fun start read =>
    ⟨closed start (answer_of_ok read), Script.content_of_answer_ok (answer_of_ok read)⟩
  error := fun start read =>
    ⟨closed start (answer_of_error read), Script.content_of_answer_error (answer_of_error read)⟩
  ended := by
    intro n r r' start positive read
    rw [((filled start).eq_nil_of_answer positive (answer_of_ok read)).1, Script.content_nil]

/-- On a script without failures no request fails. -/
theorem answers : Reader.Answers (fun r : ρ => (script r).Steady) := by
  intro n r steady
  cases read : Reader.read n r with
  | ok data r' => exact ⟨data, r', rfl⟩
  | error error r' =>
    rcases steady.answer_eq_ok n with ⟨data, script', answered⟩
    rw [answer_of_error read] at answered
    cases answered

end KeyEnvelope.ScriptedReader

namespace KeyEnvelope.LimitedReader

variable {ρ : Type} [Reader ρ] {n : Nat} {r r' : LimitedReader ρ} {data : Bytes}
  {error : StreamError}

theorem read_eq_ok (h : Reader.read n r = .ok data r') :
    (r.limit = 0 ∧ data = [] ∧ r' = r) ∨
      (0 < r.limit ∧ Reader.read (min n r.limit) r.inner = .ok data r'.inner ∧
        r'.limit = r.limit - data.length) := by
  change LimitedReader.read n r = .ok data r' at h
  unfold LimitedReader.read at h
  split at h
  next zero => cases h; exact .inl ⟨zero, rfl, rfl⟩
  next positive =>
    split at h <;> cases h
    next read => exact .inr ⟨Nat.pos_of_ne_zero positive, read, rfl⟩

theorem read_eq_error (h : Reader.read n r = .error error r') :
    Reader.read (min n r.limit) r.inner = .error error r'.inner ∧ r'.limit = r.limit := by
  change LimitedReader.read n r = .error error r' at h
  unfold LimitedReader.read at h
  split at h
  next => cases h
  next =>
    split at h <;> cases h
    next read => exact ⟨read, rfl⟩

/-- A limited reader has left what the inner one has, up to the limit. -/
theorem account {kept : ρ → Prop} {left : ρ → Bytes} (inner : Reader.Account kept left) :
    Reader.Account (fun r : LimitedReader ρ => kept r.inner)
      (fun r => (left r.inner).take r.limit) where
  ok := by
    intro n r r' data start read
    rcases read_eq_ok read with ⟨zero, rfl, rfl⟩ | ⟨_, inner_read, limit⟩
    · exact ⟨start, rfl⟩
    · obtain ⟨start', step⟩ := inner.ok start inner_read
      have within : data.length ≤ r.limit :=
        Nat.le_trans (Reader.length_le inner_read) (Nat.min_le_right ..)
      rw [step, limit, List.take_append, List.take_of_length_le within]
      exact ⟨start', rfl⟩
  error := by
    intro n r r' error start read
    rcases read_eq_error read with ⟨inner_read, limit⟩
    obtain ⟨start', step⟩ := inner.error start inner_read
    rw [step, limit]
    exact ⟨start', rfl⟩
  ended := by
    intro n r r' start positive read
    rcases read_eq_ok read with ⟨zero, _, _⟩ | ⟨limit_pos, inner_read, _⟩
    · rw [zero, List.take_zero]
    · rw [inner.ended start (Nat.lt_min.mpr ⟨positive, limit_pos⟩) inner_read, List.take_nil]

/-- Where the inner reader answers every request, so does a limited one. -/
theorem answers {kept : ρ → Prop} (inner : Reader.Answers kept) :
    Reader.Answers (fun r : LimitedReader ρ => kept r.inner) := by
  intro n r start
  cases read : Reader.read n r with
  | ok data r' => exact ⟨data, r', rfl⟩
  | error error r' =>
    obtain ⟨data, last, answered⟩ := inner (min n r.limit) r.inner start
    rw [(read_eq_error read).1] at answered
    cases answered

end KeyEnvelope.LimitedReader
