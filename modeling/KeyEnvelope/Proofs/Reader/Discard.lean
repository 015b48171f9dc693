import KeyEnvelope.Reader.Skipping
import KeyEnvelope.Proofs.Reader.Script

/-!
# Discarding along a script

Discarding `count` bytes of a scripted reader takes exactly those bytes off its
content, or all of it if there are fewer.  A failure that does not ask for another try
ends the attempt where it stands, and what the attempt had discarded stays discarded;
`Script.lost` adds up these bytes over all attempts that are made until one of them
comes through.
-/

namespace KeyEnvelope

namespace Script

/-- The bytes that attempts to discard `pending` bytes use up before a failure ends
them; the attempt under way still has `awaited` bytes to discard. -/
def lost (pending : Nat) : (awaited : Nat) → Script → Nat
  | _, [] => 0
  | awaited, piece :: script =>
    if awaited = 0 then 0
    else
      match piece with
      | .data bytes => lost pending (awaited - bytes.length) script
      | .failure error =>
        if error.kind = .interrupted then lost pending awaited script
        else pending - awaited + lost pending pending script

@[simp] theorem lost_nil (pending awaited : Nat) : lost pending awaited [] = 0 := rfl

@[simp] theorem lost_zero (pending : Nat) (script : Script) : lost pending 0 script = 0 := by
  cases script <;> simp [lost]

variable {pending awaited n : Nat} {script script' : Script} {data : Bytes} {error : StreamError}

theorem lost_of_answer_ok (within : n ≤ awaited)
    (answered : answer n script = (.ok data, script')) :
    lost pending awaited script = lost pending (awaited - data.length) script' := by
  rcases Nat.eq_zero_or_pos awaited with rfl | positive
  · rw [Nat.zero_sub, lost_zero, lost_zero]
  · cases script with
    | nil => cases answered; rfl
    | cons piece script =>
      cases piece with
      | failure error => cases answered
      | data bytes =>
        cases answered
        rw [lost, if_neg (by omega)]
        split
        next used =>
          have past := List.drop_eq_nil_iff.mp (List.isEmpty_iff.mp used)
          rw [List.take_of_length_le past]
        next left =>
          have inside : n < bytes.length := by
            rw [List.isEmpty_iff, List.drop_eq_nil_iff] at left
            omega
          have taken : (bytes.take n).length = n := by
            rw [List.length_take, Nat.min_eq_left (by omega)]
          rw [taken, lost]
          split
          next reached =>
            have none_left : awaited - bytes.length = 0 := by omega
            rw [none_left, lost_zero]
          next =>
            have same : awaited - n - (bytes.drop n).length = awaited - bytes.length := by
              rw [List.length_drop]
              omega
            simp only [same]

theorem lost_of_answer_interrupted (interrupted : error.kind = .interrupted)
    (answered : answer n script = (.error error, script')) :
    lost pending awaited script = lost pending awaited script' := by
  cases script with
  | nil => cases answered
  | cons piece script =>
    cases piece with
    | data bytes => cases answered
    | failure error =>
      cases answered
      rcases Nat.eq_zero_or_pos awaited with rfl | positive
      · rw [lost_zero, lost_zero]
      · rw [lost, if_neg (by omega)]
        exact if_pos interrupted

theorem lost_of_answer_failed (failed : error.kind ≠ .interrupted) (positive : awaited ≠ 0)
    (answered : answer n script = (.error error, script')) :
    lost pending awaited script = pending - awaited + lost pending pending script' := by
  cases script with
  | nil => cases answered
  | cons piece script =>
    cases piece with
    | data bytes => cases answered
    | failure error => cases answered; simp only [lost, if_neg positive, if_neg failed]

/-- A failure of a script is its first piece or a failure of the rest. -/
theorem forall_failure_cons {piece : Piece} {P : Script → StreamError → Prop} :
    (∀ before error after, piece :: script = before ++ .failure error :: after → P before error) ↔
      (∀ error, piece = .failure error → P [] error) ∧
        ∀ before error after, script = before ++ .failure error :: after →
          P (piece :: before) error := by
  refine ⟨fun all => ⟨?_, ?_⟩, fun both before error after split => ?_⟩
  · intro error first
    exact all [] error script (by rw [first, List.nil_append])
  · intro before error after split
    exact all (piece :: before) error after (by rw [split, List.cons_append])
  · rcases List.cons_eq_append_iff.mp split with ⟨rfl, same⟩ | ⟨before', rfl, split'⟩
    · exact both.1 error (List.cons.inj same).1.symm
    · exact both.2 before' error after split'

/-- No bytes are lost exactly if every failure that is not retried at once and strikes
before the last byte that is to be discarded strikes before the first. -/
theorem lost_eq_zero_iff (filled : Filled script) (within : awaited ≤ pending) :
    lost pending awaited script = 0 ↔
      ∀ before error after, script = before ++ .failure error :: after →
        error.kind ≠ .interrupted → (content before).length < awaited →
        awaited = pending ∧ content before = [] := by
  induction script generalizing awaited with
  | nil => simp
  | cons piece script ih =>
    have rest := fun awaited (within : awaited ≤ pending) => ih filled.tail within
    rw [forall_failure_cons (P := fun before error => error.kind ≠ .interrupted →
      (content before).length < awaited → awaited = pending ∧ content before = [])]
    rcases Nat.eq_zero_or_pos awaited with rfl | positive
    · simp
    cases piece with
    | data bytes =>
      have some_bytes := List.length_pos_iff.mpr (filled bytes (List.mem_cons_self ..))
      rw [lost, if_neg (by omega), rest _ (by omega)]
      refine ⟨fun none_inside => ⟨nofun, ?_⟩, fun none_inside => ?_⟩
      · intro before error after split failed inside
        rw [content_data, List.length_append] at inside
        have := none_inside before error after split failed (by omega)
        omega
      · intro before error after split failed inside
        have whole : (content (.data bytes :: before)).length < awaited := by
          rw [content_data, List.length_append]
          omega
        have nothing := (none_inside.2 before error after split failed whole).2
        rw [content_data, List.append_eq_nil_iff] at nothing
        rw [nothing.1] at some_bytes
        cases some_bytes
    | failure error =>
      rw [lost, if_neg (by omega)]
      split
      next interrupted =>
        rw [rest _ within]
        refine ⟨fun none_inside => ⟨?_, none_inside⟩, And.right⟩
        intro error' same failed
        cases same
        exact absurd interrupted failed
      next failed =>
        -- The next attempt starts over with the full count, whatever this one still awaited.
        rw [Nat.add_eq_zero_iff, rest _ (Nat.le_refl _)]
        refine ⟨fun both => ?_, fun none_inside => ?_⟩
        · have same : awaited = pending := by omega
          refine ⟨fun _ _ _ _ => ⟨same, rfl⟩, ?_⟩
          rw [same]
          exact both.2
        · have same : awaited = pending := (none_inside.1 error rfl failed positive).1
          rw [same] at none_inside
          exact ⟨by omega, none_inside.2⟩

/-- A keystream changes nothing of what is lost. -/
theorem lost_underKeystream (cipher : Block → Block) (iv : Block) (position : Nat) :
    lost pending awaited (script.underKeystream cipher iv position) =
      lost pending awaited script := by
  induction script generalizing position awaited with
  | nil => rfl
  | cons piece script ih =>
    cases piece with
    | data bytes => simp only [Script.underKeystream, lost, Counter.length_apply, ih]
    | failure error => simp only [Script.underKeystream, lost, ih]

end Script

namespace Reader

variable {ρ : Type} [ScriptedReader ρ] {size count : Nat} {r r' : ρ} {error : StreamError}

open ScriptedReader (script)

/-- What every request keeps of a script, discarding keeps. -/
theorem script_of_discardLoop {kept : Script → Prop}
    (closed : ∀ {n s outcome s'}, kept s → Script.answer n s = (outcome, s') → kept s')
    (size count : Nat) (r : ρ) (start : kept (script r)) :
    match discardLoop size count r with
    | .ok _ r' => kept (script r')
    | .error _ r' => kept (script r') := by
  fun_induction discardLoop size count r with
  | case1 r => exact start
  | case2 count r _ r' h => exact closed start (ScriptedReader.answer_of_ok h)
  | case3 count r _ byte data r' h ih =>
    exact ih (closed start (ScriptedReader.answer_of_ok h))
  | case4 count r _ error r' h _ ih =>
    exact ih (closed start (ScriptedReader.answer_of_error h))
  | case5 count r _ error r' h _ => exact closed start (ScriptedReader.answer_of_error h)

/-- A discarding that comes through takes off `count` bytes, or all there are. -/
theorem content_of_discardLoop_ok (pending : Nat) {missing : Nat} (positive : 0 < size)
    (filled : (script r).Filled) (h : discardLoop size count r = .ok missing r') :
    ∃ gone, (script r).content = gone ++ (script r').content ∧ gone.length + missing = count ∧
      (missing ≠ 0 → script r' = []) ∧ (script r).lost pending count = 0 := by
  fun_induction discardLoop size count r with
  | case1 r => cases h; exact ⟨[], rfl, rfl, fun h => absurd rfl h, Script.lost_zero ..⟩
  | case2 count r nonzero r₁ read =>
    cases h
    have answered := ScriptedReader.answer_of_ok read
    have ended := filled.eq_nil_of_answer (by omega) answered
    refine ⟨[], Script.content_of_answer_ok answered, Nat.zero_add _, fun _ => ended.2, ?_⟩
    rw [ended.1, Script.lost_nil]
  | case3 count r nonzero byte data r₁ read ih =>
    have answered := ScriptedReader.answer_of_ok read
    have length := length_le read
    obtain ⟨gone, content, total, ended, lost⟩ := ih (filled.of_answer answered) h
    refine ⟨byte :: data ++ gone, ?_, ?_, ended, ?_⟩
    · rw [Script.content_of_answer_ok answered, content, List.append_assoc]
    · rw [List.length_append]
      omega
    · rw [Script.lost_of_answer_ok (by omega) answered, lost]
  | case4 count r nonzero error r₁ read interrupted ih =>
    have answered := ScriptedReader.answer_of_error read
    obtain ⟨gone, content, total, ended, lost⟩ := ih (filled.of_answer answered) h
    refine ⟨gone, ?_, total, ended, ?_⟩
    · rw [Script.content_of_answer_error answered, content]
    · rw [Script.lost_of_answer_interrupted interrupted answered, lost]
  | case5 => cases h

/-- A discarding that fails has taken off fewer than `count` bytes, and these are lost. -/
theorem content_of_discardLoop_error (pending : Nat)
    (within : count ≤ pending) (h : discardLoop size count r = .error error r') :
    ∃ gone, (script r).content = gone ++ (script r').content ∧
      (script r).lost pending count =
        pending - count + gone.length + (script r').lost pending pending := by
  fun_induction discardLoop size count r with
  | case1 r => cases h
  | case2 => cases h
  | case3 count r nonzero byte data r₁ read ih =>
    have answered := ScriptedReader.answer_of_ok read
    have length := length_le read
    obtain ⟨gone, content, lost⟩ := ih (by omega) h
    refine ⟨byte :: data ++ gone, ?_, ?_⟩
    · rw [Script.content_of_answer_ok answered, content, List.append_assoc]
    · rw [Script.lost_of_answer_ok (by omega) answered, lost, List.length_append]
      omega
  | case4 count r nonzero e r₁ read interrupted ih =>
    have answered := ScriptedReader.answer_of_error read
    obtain ⟨gone, content, lost⟩ := ih within h
    refine ⟨gone, ?_, ?_⟩
    · rw [Script.content_of_answer_error answered, content]
    · rw [Script.lost_of_answer_interrupted interrupted answered, lost]
  | case5 count r nonzero e r₁ read failed =>
    cases h
    have answered := ScriptedReader.answer_of_error read
    refine ⟨[], Script.content_of_answer_error answered, ?_⟩
    rw [Script.lost_of_answer_failed failed nonzero answered, List.length_nil, Nat.add_zero]

end Reader

end KeyEnvelope
