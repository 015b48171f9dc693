import KeyEnvelope.Proofs.Reader.Counter
import KeyEnvelope.Proofs.Reader.Run

/-!
# Interruptions

A failure of kind `interrupted` asks for another try, and whoever discards bytes or reads a
stream to its end tries again at once.  On a reader with no other failures (`Patient`) a
discarding comes through, whatever pieces the bytes arrive in and wherever the interruptions
stand (`Patient.discard`): it takes off the bytes it is to take off, or all there are, and asks
for no more on the way (`Takes`).  Reading to the end gives all that is left
(`Patient.givesRetried`).
-/

namespace KeyEnvelope.Reader

variable {ρ : Type} [Reader ρ]

/-! ## Requests -/

@[simp] theorem delivered_append (outcomes later : List (Except StreamError Bytes)) :
    delivered (outcomes ++ later) = delivered outcomes ++ delivered later := by
  induction outcomes with
  | nil => rfl
  | cons outcome outcomes ih => cases outcome <;> simp [delivered, ih]

/-- What a run delivers is taken off the bound of the reader. -/
theorem remaining_requests (sizes : List Nat) (r : ρ) :
    remaining (requests sizes r).2 + (delivered (requests sizes r).1).length ≤ remaining r := by
  induction sizes generalizing r with
  | nil => simp [requests, delivered]
  | cons n sizes ih =>
    rw [requests]
    split
    next data r' read =>
      have first := remaining_of_ok read
      have rest := ih r'
      simp only [delivered, List.length_append]
      omega
    next error r' read =>
      have first := remaining_of_error read
      have rest := ih r'
      simp only [delivered]
      omega

/-- A record of the sizes of all requests made on a reader, the last one first. -/
def Records (log : ρ → List Nat) : Prop :=
  ∀ n r, log (requests [n] r).2 = n :: log r

/-- Every record shows the requests of a run. -/
theorem Records.requests {log : ρ → List Nat} (records : Records log) (sizes : List Nat) (r : ρ) :
    log (requests sizes r).2 = sizes.reverse ++ log r := by
  induction sizes generalizing r with
  | nil => rfl
  | cons n sizes ih =>
    have first := requests_append [n] sizes r
    rw [List.singleton_append] at first
    rw [first, ih, records n r, List.reverse_cons, List.append_assoc, List.singleton_append]

/-- Requests of the given sizes ask each for something, and for no more than the largest request
of a discarding and than what is still to be discarded of `count` bytes after the requests
before. -/
def Sparing (count : Nat) (r : ρ) (sizes : List Nat) : Prop :=
  ∀ before size after, sizes = before ++ size :: after →
    0 < size ∧ size ≤ min maxDiscardRequest (count - (delivered (requests before r).1).length)

namespace Sparing

variable {size count n : Nat} {sizes : List Nat} {r r' : ρ} {data : Bytes} {error : StreamError}

theorem nil : Sparing count r [] := by
  intro before size after split
  cases before <;> cases split

theorem cons_of_ok (positive : 0 < n) (within : n ≤ min maxDiscardRequest count)
    (read : read n r = .ok data r') (rest : Sparing (count - data.length) r' sizes) :
    Sparing count r (n :: sizes) := by
  intro before size after split
  rcases List.cons_eq_append_iff.mp split with ⟨rfl, same⟩ | ⟨before', rfl, split'⟩
  · cases same
    exact ⟨positive, by simpa [requests, delivered] using within⟩
  · have later := rest before' size after split'
    simp only [requests, read, delivered, List.length_append]
    rwa [Nat.sub_sub] at later

theorem cons_of_error (positive : 0 < n) (within : n ≤ min maxDiscardRequest count)
    (read : read n r = .error error r') (rest : Sparing count r' sizes) :
    Sparing count r (n :: sizes) := by
  intro before size after split
  rcases List.cons_eq_append_iff.mp split with ⟨rfl, same⟩ | ⟨before', rfl, split'⟩
  · cases same
    exact ⟨positive, by simpa [requests, delivered] using within⟩
  · have later := rest before' size after split'
    simpa only [requests, read, delivered] using later

/-- Discarding `a` bytes and then `b` bytes asks for no more than discarding `a + b` bytes. -/
theorem append {a b : Nat} {later : List Nat} (first : Sparing a r sizes)
    (reached : (delivered (requests sizes r).1).length ≤ a)
    (second : Sparing b (requests sizes r).2 later) : Sparing (a + b) r (sizes ++ later) := by
  intro before size after split
  rcases List.append_eq_append_iff.mp split with ⟨gone, rfl, split'⟩ | ⟨rest, rfl, split'⟩
  · have bound := second gone size after split'
    simp only [requests_append, delivered_append, List.length_append]
    omega
  · cases rest with
    | nil =>
      rw [List.append_nil] at reached second
      have bound := second [] size after split'.symm
      simp only [requests, delivered, List.length_nil] at bound
      omega
    | cons size' rest =>
      rcases List.cons.inj split' with ⟨rfl, -⟩
      have bound := first before size rest rfl
      omega

end Sparing

/-- A discarding that comes through made some requests and no others, and was sparing with
them. -/
theorem exists_requests_of_discardLoop {size count missing : Nat} {r r' : ρ} (positive : 0 < size)
    (small : size ≤ maxDiscardRequest) (h : discardLoop size count r = .ok missing r') :
    ∃ sizes, (requests sizes r).2 = r' ∧ Sparing count r sizes := by
  fun_induction discardLoop size count r with
  | case1 r => cases h; exact ⟨[], rfl, .nil⟩
  | case2 count r nonzero r₁ read =>
    cases h
    exact ⟨[min missing size], by simp [requests, read],
      .cons_of_ok (by omega) (by omega) read .nil⟩
  | case3 count r nonzero byte data r₁ read ih =>
    rcases ih h with ⟨sizes, last, sparing⟩
    exact ⟨min count size :: sizes, by simp [requests, read, last],
      .cons_of_ok (by omega) (by omega) read sparing⟩
  | case4 count r nonzero error r₁ read _ ih =>
    rcases ih h with ⟨sizes, last, sparing⟩
    exact ⟨min count size :: sizes, by simp [requests, read, last],
      .cons_of_error (by omega) (by omega) read sparing⟩
  | case5 => cases h

/-- The requests of some sizes lead from one reader to another and hand out the first `n` of
these bytes, or all if there are fewer; none of them asks for more than that. -/
structure Takes (bytes : Bytes) (n : Nat) (r r' : ρ) (sizes : List Nat) : Prop where
  last : (Reader.requests sizes r).2 = r'
  handed : delivered (Reader.requests sizes r).1 = bytes.take n
  length : (delivered (Reader.requests sizes r).1).length = min bytes.length n
  sparing : Sparing n r sizes
  recorded : ∀ log, Records log → log r' = sizes.reverse ++ log r

theorem Takes.refl (bytes : Bytes) (r : ρ) : Takes bytes 0 r r [] :=
  ⟨rfl, rfl, (Nat.min_zero _).symm, .nil, fun _ _ => rfl⟩

theorem Takes.trans {bytes : Bytes} {a b : Nat} {r r' r'' : ρ} {sizes later : List Nat}
    (first : Takes bytes a r r' sizes) (second : Takes (bytes.drop a) b r' r'' later) :
    Takes bytes (a + b) r r'' (sizes ++ later) := by
  rcases first with ⟨rfl, handed, length, sparing, recorded⟩
  have whole : delivered (requests (sizes ++ later) r).1 = bytes.take (a + b) := by
    rw [requests_append, delivered_append, handed, second.handed, List.take_add]
  refine ⟨?_, whole, ?_, sparing.append (by omega) second.sparing, fun log records => ?_⟩
  · rw [requests_append, second.last]
  · rw [whole, List.length_take, Nat.min_comm]
  · rw [second.recorded log records, recorded log records, List.reverse_append,
      List.append_assoc]

/-! ## Readers that fail only to be asked again -/

/-- The readers that `kept` holds of have the bytes `left` still to give, in pieces that are not
empty, and all their failures ask for another try. -/
structure Patient (kept : ρ → Prop) (left : ρ → Bytes) : Prop extends Account kept left where
  interrupted {n : Nat} {r r' : ρ} {error : StreamError} : kept r →
    read n r = .error error r' → error.kind = .interrupted

variable {kept : ρ → Prop} {left : ρ → Bytes}

theorem Patient.discardLoop (patient : Patient kept left) {size : Nat} (positive : 0 < size)
    (count : Nat) {r : ρ} (start : kept r) :
    ∃ r', discardLoop size count r = .ok (count - (left r).length) r' ∧ kept r' ∧
      left r' = (left r).drop count := by
  fun_induction Reader.discardLoop size count r with
  | case1 r => exact ⟨r, by simp, start, rfl⟩
  | case2 count r nonzero r₁ read =>
    rcases patient.ok start read with ⟨start', step⟩
    have nothing := patient.ended start (by omega) read
    rw [nothing, List.nil_append] at step
    exact ⟨r₁, by simp [nothing], start', by simp [nothing, ← step]⟩
  | case3 count r nonzero byte data r₁ read ih =>
    rcases patient.ok start read with ⟨start', step⟩
    have within := length_le read
    rcases ih start' with ⟨r', loop, start'', rest⟩
    refine ⟨r', ?_, start'', ?_⟩
    · rw [loop, step, List.length_append, Nat.sub_sub]
    · have past : (byte :: data).drop count = [] := List.drop_of_length_le (by omega)
      rw [rest, step, List.drop_append, past, List.nil_append]
  | case4 count r nonzero error r₁ read _ ih =>
    rcases patient.error start read with ⟨start', step⟩
    rcases ih start' with ⟨r', loop, start'', rest⟩
    exact ⟨r', by rw [loop, step], start'', by rw [rest, step]⟩
  | case5 count r nonzero error r₁ read other =>
    exact absurd (patient.interrupted start read) other

/-- Discarding takes off the next `n` bytes, or all there are, and says how many. -/
theorem Patient.discard (patient : Patient kept left) (n : Nat) {r : ρ} (start : kept r) :
    ∃ r', discard n r = .ok (min n (left r).length) r' ∧ kept r' ∧ left r' = (left r).drop n ∧
      ∃ sizes, Takes (left r) n r r' sizes := by
  rcases Nat.eq_zero_or_pos n with rfl | positive
  · exact ⟨r, by simp [Reader.discard, Reader.discardLoop], start, rfl, [], .refl ..⟩
  · have size_pos : 0 < min n maxDiscardRequest := Nat.lt_min.mpr ⟨positive, by decide⟩
    rcases patient.discardLoop size_pos n start with ⟨r', loop, start', rest⟩
    have passed : n - (n - (left r).length) = min n (left r).length := by omega
    refine ⟨r', by simp only [Reader.discard, loop, passed], start', rest, ?_⟩
    rcases exists_requests_of_discardLoop size_pos (by omega) loop with ⟨sizes, rfl, sparing⟩
    -- What the requests have handed out is what is no longer left.
    rcases patient.requests sizes start with ⟨-, split⟩
    rw [rest] at split
    have handed : delivered (requests sizes r).1 = (left r).take n :=
      List.append_cancel_right (split.symm.trans (List.take_append_drop n (left r)).symm)
    refine ⟨sizes, rfl, handed, ?_, sparing, fun log records => records.requests sizes r⟩
    rw [handed, List.length_take, Nat.min_comm]

/-- Collecting bytes through interruptions yields what is left, as far as it is asked for. -/
theorem Patient.collect (patient : Patient kept left) {size : Nat} (positive : 0 < size)
    (count : Nat) {r : ρ} (start : kept r) :
    (collect size count r).1 = ((left r).take count, none) := by
  fun_induction Reader.collect size count r with
  | case1 r => simp
  | case2 count r nonzero r' read => simp [patient.ended start (by omega) read]
  | case3 count r nonzero byte data r' read rest failure last run ih =>
    rcases patient.ok start read with ⟨start', step⟩
    have within : (byte :: data).length ≤ count := by
      have := length_le read
      omega
    have tail := ih start'
    rw [run] at tail
    cases tail
    rw [step, List.take_append, List.take_of_length_le within]
  | case4 count r nonzero error r' read _ ih =>
    rcases patient.error start read with ⟨start', step⟩
    rw [ih start', step]
  | case5 count r nonzero error r' read other =>
    exact absurd (patient.interrupted start read) other

theorem Patient.kind_of_mem_requests (patient : Patient kept left) (sizes : List Nat) {r : ρ}
    (start : kept r) {error : StreamError} (member : .error error ∈ (requests sizes r).1) :
    error.kind = .interrupted := by
  induction sizes generalizing r with
  | nil => cases member
  | cons n sizes ih =>
    rw [Reader.requests] at member
    split at member
    next data r' read =>
      rcases List.mem_cons.mp member with same | member
      · cases same
      · exact ih (patient.ok start read).1 member
    next error' r' read =>
      rcases List.mem_cons.mp member with same | member
      · cases same
        exact patient.interrupted start read
      · exact ih (patient.error start read).1 member

/-- However it is asked, a reader gives these bytes: it delivers them in order, fails only to
be asked again, and gives all of them to whoever does that. -/
structure GivesRetried (r : ρ) (bytes : Bytes) : Prop where
  part : ∀ sizes, delivered (Reader.requests sizes r).1 <+: bytes
  interrupted : ∀ sizes error, .error error ∈ (Reader.requests sizes r).1 →
    error.kind = .interrupted
  collected : ∀ size count, 0 < size → (Reader.collect size count r).1 = (bytes.take count, none)
  whole : (readToEnd r).1 = (bytes, none)

/-- A reader that fails only to be asked again gives what is left. -/
theorem Patient.givesRetried (patient : Patient kept left) {r : ρ} (start : kept r) :
    GivesRetried r (left r) where
  part := (patient.delivered_prefix_iff start _).mpr (List.prefix_refl _)
  interrupted := fun sizes _ member => patient.kind_of_mem_requests sizes start member
  collected := fun _ count positive => patient.collect positive count start
  whole := by
    -- Some run delivers all that is left, so that is no more than the bound of the reader.
    rcases patient.exists_delivered_eq start with ⟨sizes, all⟩
    have bound := remaining_requests sizes r
    rw [all] at bound
    rw [readToEnd, patient.collect (by decide) _ start, List.take_of_length_le (by omega)]

end KeyEnvelope.Reader

namespace KeyEnvelope

/-! ## Interruptions in a script -/

/-- No piece of data is empty, and every failure asks for another try. -/
def Script.Retriable (script : Script) : Prop :=
  Filled script ∧ ∀ error, .failure error ∈ script → error.kind = .interrupted

namespace Script.Retriable

variable {n : Nat} {script script' : Script}

theorem of_answer {outcome : Except StreamError Bytes} (retriable : Retriable script)
    (answered : answer n script = (outcome, script')) : Retriable script' :=
  ⟨retriable.1.of_answer answered, fun error member =>
    retriable.2 error (failure_mem_of_answer answered member)⟩

theorem kind_of_answer {error : StreamError} (retriable : Retriable script)
    (answered : answer n script = (.error error, script')) : error.kind = .interrupted := by
  cases script with
  | nil => cases answered
  | cons piece script =>
    cases piece with
    | data bytes => cases answered
    | failure error' => cases answered; exact retriable.2 _ (List.mem_cons_self ..)

end Script.Retriable

/-- A scripted reader whose failures ask for another try gives the content of its script. -/
theorem ScriptedReader.patient {ρ : Type} [ScriptedReader ρ] :
    Reader.Patient (fun r : ρ => (script r).Retriable) (fun r => (script r).content) where
  toAccount := account Script.Retriable.of_answer And.left
  interrupted := fun retriable read => retriable.kind_of_answer (answer_of_error read)

/-- A scripted reader without failures is asked again for nothing. -/
theorem ScriptedReader.steady_patient {ρ : Type} [ScriptedReader ρ] :
    Reader.Patient (fun r : ρ => (script r).Steady) (fun r => (script r).content) where
  toAccount := account Script.Steady.of_answer And.left
  interrupted := by
    intro n r r' error steady read
    obtain ⟨data, last, answered⟩ := answers n r steady
    cases read.symm.trans answered

theorem Source.records : Reader.Records Source.requests := by
  intro n source
  rw [requests_requests, List.reverse_singleton, List.singleton_append]

end KeyEnvelope
