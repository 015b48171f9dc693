import KeyEnvelope.Reader.Counter
import KeyEnvelope.Proofs.Keystream

/-!
# Scripts of readers

A script lists what arrives on a reader: pieces of data and failures.  A scripted
reader answers each request from the first piece of its script, as a source does, and
a reader under a keystream does so with the script of the inner reader put under the
keystream piece by piece.  What is proved of scripted readers therefore holds of a
source and of a source that is encrypted or decrypted on the way.
-/

namespace KeyEnvelope

/-- What arrives on a reader, in order. -/
abbrev Script := List Piece

/-- The bytes of a piece; a failure has none. -/
def Piece.bytes : Piece → Bytes
  | .data bytes => bytes
  | .failure _ => []

namespace Script

/-- All bytes of a script, whatever failures stand between them. -/
def content (script : Script) : Bytes :=
  script.flatMap Piece.bytes

/-- Every piece of data holds a byte. -/
def Filled (script : Script) : Prop :=
  ∀ bytes, .data bytes ∈ script → bytes ≠ []

/-- Nothing but pieces of data, and none of them empty. -/
def Steady (script : Script) : Prop :=
  Filled script ∧ ∀ error, .failure error ∉ script

/-- The answer to a request for at most `n` bytes, and the script after it. -/
def answer (n : Nat) : Script → Except StreamError Bytes × Script
  | [] => (.ok [], [])
  | .failure error :: script => (.error error, script)
  | .data bytes :: script =>
    (.ok (bytes.take n),
      if (bytes.drop n).isEmpty then script else .data (bytes.drop n) :: script)

@[simp] theorem content_nil : content [] = [] := rfl

@[simp] theorem content_data (bytes : Bytes) (script : Script) :
    content (.data bytes :: script) = bytes ++ content script := rfl

@[simp] theorem content_failure (error : StreamError) (script : Script) :
    content (.failure error :: script) = content script := rfl

theorem Filled.tail {piece : Piece} {script : Script} (filled : Filled (piece :: script)) :
    Filled script :=
  fun bytes member => filled bytes (List.mem_cons_of_mem _ member)

/-! ## Answers -/

variable {n : Nat} {script script' : Script} {data : Bytes} {error : StreamError}

theorem content_of_answer_ok (answered : answer n script = (.ok data, script')) :
    content script = data ++ content script' := by
  cases script with
  | nil => cases answered; rfl
  | cons piece script =>
    cases piece with
    | failure error => cases answered
    | data bytes =>
      cases answered
      split
      next used =>
        have past := List.drop_eq_nil_iff.mp (List.isEmpty_iff.mp used)
        rw [content_data, List.take_of_length_le past]
      next => rw [content_data, content_data, ← List.append_assoc, List.take_append_drop]

theorem content_of_answer_error (answered : answer n script = (.error error, script')) :
    content script = content script' := by
  cases script with
  | nil => cases answered
  | cons piece script =>
    cases piece with
    | failure error => cases answered; rfl
    | data bytes => cases answered

theorem Filled.of_answer {outcome : Except StreamError Bytes} (filled : Filled script)
    (answered : answer n script = (outcome, script')) : Filled script' := by
  cases script with
  | nil => cases answered; exact filled
  | cons piece script =>
    cases piece with
    | failure error => cases answered; exact filled.tail
    | data bytes =>
      rcases Prod.mk.inj answered with ⟨-, rfl⟩
      split
      next => exact filled.tail
      next left =>
        intro bytes' member
        rcases List.mem_cons.mp member with same | member
        · cases same
          exact fun empty => left (by rw [empty]; rfl)
        · exact filled.tail bytes' member

/-- A request brings no failure that was not to come before. -/
theorem failure_mem_of_answer {outcome : Except StreamError Bytes}
    (answered : answer n script = (outcome, script')) (member : .failure error ∈ script') :
    .failure error ∈ script := by
  cases script with
  | nil => cases answered; cases member
  | cons piece script =>
    cases piece with
    | failure error' => cases answered; exact List.mem_cons_of_mem _ member
    | data bytes =>
      rcases Prod.mk.inj answered with ⟨-, rfl⟩
      split at member
      next => exact List.mem_cons_of_mem _ member
      next =>
        rcases List.mem_cons.mp member with same | member
        · cases same
        · exact List.mem_cons_of_mem _ member

theorem Steady.of_answer {outcome : Except StreamError Bytes} (steady : Steady script)
    (answered : answer n script = (outcome, script')) : Steady script' :=
  ⟨steady.1.of_answer answered, fun error member =>
    steady.2 error (failure_mem_of_answer answered member)⟩

/-- A script without failures answers every request. -/
theorem Steady.answer_eq_ok (steady : Steady script) (n : Nat) :
    ∃ data script', answer n script = (.ok data, script') := by
  cases script with
  | nil => exact ⟨[], [], rfl⟩
  | cons piece script =>
    cases piece with
    | failure error => exact absurd (List.mem_cons_self ..) (steady.2 error)
    | data bytes => exact ⟨_, _, rfl⟩

/-- Where no piece is empty, an empty answer to a real request means the end. -/
theorem Filled.eq_nil_of_answer (filled : Filled script) (positive : 0 < n)
    (answered : answer n script = (.ok [], script')) : script = [] ∧ script' = [] := by
  cases script with
  | nil => cases answered; exact ⟨rfl, rfl⟩
  | cons piece script =>
    cases piece with
    | failure error => cases answered
    | data bytes =>
      have taken : bytes.take n = [] := Except.ok.inj (Prod.mk.inj answered).1
      rcases List.take_eq_nil_iff.mp taken with zero | empty
      · omega
      · exact absurd empty (filled bytes (List.mem_cons_self ..))

/-! ## Scripts under a keystream -/

/-- A script whose data is encrypted or decrypted from a stream position on. -/
def underKeystream (cipher : Block → Block) (iv : Block) : (position : Nat) → Script → Script
  | _, [] => []
  | position, .failure error :: script =>
    .failure error :: underKeystream cipher iv position script
  | position, .data bytes :: script =>
    .data (Counter.apply cipher iv position bytes) ::
      underKeystream cipher iv (position + bytes.length) script

variable (cipher : Block → Block) (iv : Block)

theorem content_underKeystream (position : Nat) (script : Script) :
    content (underKeystream cipher iv position script) =
      Counter.apply cipher iv position (content script) := by
  induction script generalizing position with
  | nil => rfl
  | cons piece script ih =>
    cases piece with
    | failure error => exact ih position
    | data bytes =>
      rw [underKeystream, content_data, content_data, ih, Counter.apply_append]

theorem Filled.underKeystream {script : Script} (filled : Filled script) (position : Nat) :
    Filled (script.underKeystream cipher iv position) := by
  induction script generalizing position with
  | nil => exact filled
  | cons piece script ih =>
    intro bytes member
    cases piece with
    | failure error =>
      rcases List.mem_cons.mp member with same | member
      · cases same
      · exact ih filled.tail position bytes member
    | data inner =>
      rcases List.mem_cons.mp member with same | member
      · cases same
        have inner_ne := filled inner (List.mem_cons_self ..)
        rwa [← List.length_pos_iff, Counter.length_apply, List.length_pos_iff]
      · exact ih filled.tail _ bytes member

theorem failure_mem_underKeystream {script : Script} {error : StreamError} (position : Nat) :
    .failure error ∈ script.underKeystream cipher iv position ↔ .failure error ∈ script := by
  induction script generalizing position with
  | nil => rfl
  | cons piece script ih =>
    cases piece <;> simp only [Script.underKeystream, List.mem_cons, reduceCtorEq, false_or, ih]

theorem Steady.underKeystream {script : Script} (steady : Steady script) (position : Nat) :
    Steady (script.underKeystream cipher iv position) :=
  ⟨steady.1.underKeystream cipher iv position, fun error member =>
    steady.2 error ((failure_mem_underKeystream cipher iv position).mp member)⟩

/-- A request on a script under a keystream is one on the script itself, its bytes
put under the keystream. -/
theorem answer_underKeystream (position : Nat) (script : Script) :
    answer n (script.underKeystream cipher iv position) =
      match answer n script with
      | (.ok data, script') =>
        (.ok (Counter.apply cipher iv position data),
          script'.underKeystream cipher iv (position + data.length))
      | (.error error, script') => (.error error, script'.underKeystream cipher iv position) := by
  cases script with
  | nil => rfl
  | cons piece script =>
    cases piece with
    | failure error => rfl
    | data bytes =>
      simp only [Script.underKeystream, answer, Counter.take_apply, Counter.drop_apply]
      by_cases used : bytes.drop n = []
      · have whole : bytes.take n = bytes := List.take_of_length_le (List.drop_eq_nil_iff.mp used)
        simp [used, whole]
      · have cut : (bytes.take n).length + (bytes.drop n).length = bytes.length := by
          rw [← List.length_append, List.take_append_drop]
        have left :
            Counter.apply cipher iv (position + (bytes.take n).length) (bytes.drop n) ≠ [] := by
          rwa [← List.length_pos_iff, Counter.length_apply, List.length_pos_iff]
        simp only [List.isEmpty_iff, used, left, if_false, Script.underKeystream, Nat.add_assoc,
          cut]

end Script

/-! ## Scripted readers -/

/-- Readers that answer from a script. -/
class ScriptedReader (ρ : Type) extends Reader ρ where
  /-- What is still to arrive. -/
  script : ρ → Script
  answer_of_ok {n : Nat} {r r' : ρ} {data : Bytes} : Reader.read n r = .ok data r' →
    Script.answer n (script r) = (.ok data, script r')
  answer_of_error {n : Nat} {r r' : ρ} {error : StreamError} : Reader.read n r = .error error r' →
    Script.answer n (script r) = (.error error, script r')

/-- A source delivers these bytes, in pieces that are not empty, and does not fail. -/
structure Source.Delivers (source : Source) (bytes : Bytes) : Prop where
  steady : Script.Steady source.pieces
  content : Script.content source.pieces = bytes

instance : ScriptedReader Source where
  script := Source.pieces
  answer_of_ok := by
    intro n source source' data h
    change Source.read n source = .ok data source' at h
    unfold Source.read at h
    split at h <;> cases h
    next ended => rw [ended]; rfl
    next arrived => rw [arrived]; rfl
  answer_of_error := by
    intro n source source' error h
    change Source.read n source = .error error source' at h
    unfold Source.read at h
    split at h <;> cases h
    next arrived => rw [arrived]; rfl

instance {ρ : Type} [ScriptedReader ρ] : ScriptedReader (CounterReader ρ) where
  script r :=
    (ScriptedReader.script r.inner).underKeystream (Aes.encryptBlock r.schedule) r.iv r.position
  answer_of_ok := by
    intro n r r' data h
    change CounterReader.read n r = .ok data r' at h
    unfold CounterReader.read at h
    split at h
    next inner_read =>
      cases h
      rw [Script.answer_underKeystream, ScriptedReader.answer_of_ok inner_read]
    next => cases h
  answer_of_error := by
    intro n r r' error h
    change CounterReader.read n r = .error error r' at h
    unfold CounterReader.read at h
    split at h
    next => cases h
    next inner_read =>
      cases h
      rw [Script.answer_underKeystream, ScriptedReader.answer_of_error inner_read]

@[simp] theorem Source.script_eq (source : Source) : ScriptedReader.script source = source.pieces :=
  rfl

/-- What arrives under a keystream is what arrives on the inner reader, encrypted or
decrypted. -/
theorem CounterReader.content_script {ρ : Type} [ScriptedReader ρ] (r : CounterReader ρ) :
    (ScriptedReader.script r).content =
      Counter.apply (Aes.encryptBlock r.schedule) r.iv r.position
        (ScriptedReader.script r.inner).content :=
  Script.content_underKeystream ..

end KeyEnvelope
