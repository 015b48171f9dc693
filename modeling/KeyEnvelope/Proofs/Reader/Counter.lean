import KeyEnvelope.Proofs.Engine.Opening
import KeyEnvelope.Proofs.Reader.Run

/-!
# Runs through counter mode

A run of a reader in counter mode makes the requests of the same run on the inner reader,
passes its failures on and puts its bytes under the keystream, each at the position that it
has among the bytes handed out so far (`CounterReader.requests_eq`).  How the bytes are cut
into requests and pieces therefore shows in nothing but the cuts, and a second reader under
the same keystream undoes the first (`CounterReader.transforms_by_position`).
-/

namespace KeyEnvelope

/-! ## Runs and scripts -/

namespace Reader

variable {ρ : Type} [Reader ρ]

theorem requests_append (sizes later : List Nat) (r : ρ) :
    requests (sizes ++ later) r =
      ((requests sizes r).1 ++ (requests later (requests sizes r).2).1,
        (requests later (requests sizes r).2).2) := by
  induction sizes generalizing r with
  | nil => rfl
  | cons n sizes ih =>
    rw [List.cons_append, requests, requests]
    split
    next data r' _ => rw [ih r']; rfl
    next error r' _ => rw [ih r']; rfl

end Reader

namespace ScriptedReader

variable {ρ : Type} [ScriptedReader ρ]

/-- What a run delivers and what is still to arrive after it are what was to arrive before. -/
theorem content_requests (sizes : List Nat) (r : ρ) :
    (script r).content = Reader.delivered (Reader.requests sizes r).1 ++
      (script (Reader.requests sizes r).2).content := by
  induction sizes generalizing r with
  | nil => rfl
  | cons n sizes ih =>
    rw [Reader.requests]
    split
    next data r' read =>
      rw [Script.content_of_answer_ok (answer_of_ok read), ih r']
      exact (List.append_assoc ..).symm
    next error r' read =>
      rw [Script.content_of_answer_error (answer_of_error read), ih r']
      rfl

/-- A request for more than the first piece holds uses it up. -/
theorem exists_request_tail {r : ρ} {piece : Piece} {rest : Script}
    (arrives : script r = piece :: rest) : ∃ n, script (Reader.requests [n] r).2 = rest := by
  have used : (Script.answer (piece.bytes.length + 1) (piece :: rest)).2 = rest := by
    cases piece with
    | failure error => rfl
    | data bytes =>
      have past : bytes.drop (bytes.length + 1) = [] := List.drop_of_length_le (Nat.le_succ _)
      simp only [Script.answer, Piece.bytes, past, List.isEmpty_nil, if_true]
  refine ⟨piece.bytes.length + 1, ?_⟩
  rw [Reader.requests]
  split
  next data r' read =>
    rw [← arrives, answer_of_ok read] at used
    exact used
  next error r' read =>
    rw [← arrives, answer_of_error read] at used
    exact used

/-- Some run uses up all that is to arrive. -/
theorem exists_requests_nil (r : ρ) :
    ∃ sizes, script (Reader.requests sizes r).2 = [] := by
  induction arrives : script r generalizing r with
  | nil => exact ⟨[], arrives⟩
  | cons piece rest ih =>
    obtain ⟨n, used⟩ := exists_request_tail arrives
    obtain ⟨sizes, ended⟩ := ih _ used
    exact ⟨[n] ++ sizes, by rw [Reader.requests_append, ended]⟩

end ScriptedReader

namespace Source

variable {n : Nat} {source source' : Source} {data : Bytes} {error : StreamError}

theorem requests_of_ok (read : Reader.read n source = .ok data source') :
    source'.requests = n :: source.requests := by
  change Source.read n source = .ok data source' at read
  unfold Source.read at read
  split at read <;> cases read <;> rfl

theorem requests_of_error (read : Reader.read n source = .error error source') :
    source'.requests = n :: source.requests := by
  change Source.read n source = .error error source' at read
  unfold Source.read at read
  split at read <;> cases read
  rfl

/-- A source keeps the sizes of all requests of a run, the last one first. -/
theorem requests_requests (sizes : List Nat) (source : Source) :
    (Reader.requests sizes source).2.requests = sizes.reverse ++ source.requests := by
  induction sizes generalizing source with
  | nil => rfl
  | cons n sizes ih =>
    rw [Reader.requests, List.reverse_cons, List.append_assoc, List.singleton_append]
    split
    next data source' read => rw [ih source', requests_of_ok read]
    next error source' read => rw [ih source', requests_of_error read]

end Source

/-! ## Outcomes under a keystream -/

namespace Reader

/-- The outcomes of a run with their bytes put under a keystream from a position on.  A failure
stays as it is and moves nothing. -/
def underKeystream (cipher : Block → Block) (iv : Block) :
    (position : Nat) → List (Except StreamError Bytes) → List (Except StreamError Bytes)
  | _, [] => []
  | position, .ok data :: outcomes =>
    .ok (Counter.apply cipher iv position data) ::
      underKeystream cipher iv (position + data.length) outcomes
  | position, .error error :: outcomes =>
    .error error :: underKeystream cipher iv position outcomes

variable (cipher : Block → Block) (iv : Block)

theorem delivered_underKeystream (position : Nat) (outcomes : List (Except StreamError Bytes)) :
    delivered (underKeystream cipher iv position outcomes) =
      Counter.apply cipher iv position (delivered outcomes) := by
  fun_induction underKeystream cipher iv position outcomes with
  | case1 => rfl
  | case2 position data outcomes ih => rw [delivered, delivered, ih, Counter.apply_append]
  | case3 position error outcomes ih => rw [delivered, delivered, ih]

/-- The same keystream twice changes nothing. -/
theorem underKeystream_underKeystream (position : Nat)
    (outcomes : List (Except StreamError Bytes)) :
    underKeystream cipher iv position (underKeystream cipher iv position outcomes) = outcomes := by
  induction outcomes generalizing position with
  | nil => rfl
  | cons outcome outcomes ih =>
    cases outcome with
    | ok data =>
      simp only [underKeystream, Counter.length_apply, Counter.apply_apply, ih]
    | error error => simp only [underKeystream, ih]

/-- The outcomes of a run with their bytes put under a keystream that is made block by block,
and where it stands after the last. -/
def underCursor : Counter.Cursor → List (Except StreamError Bytes) →
    List (Except StreamError Bytes) × Counter.Cursor
  | cursor, [] => ([], cursor)
  | cursor, .ok data :: outcomes =>
    let (text, cursor) := cursor.apply cipher data
    let (rest, last) := underCursor cursor outcomes
    (.ok text :: rest, last)
  | cursor, .error error :: outcomes =>
    let (rest, last) := underCursor cursor outcomes
    (.error error :: rest, last)

/-- Blocks made one after the other stay in step with the positions. -/
theorem underCursor_ofPosition (position : Nat) (outcomes : List (Except StreamError Bytes)) :
    underCursor cipher (.ofPosition cipher iv position) outcomes =
      (underKeystream cipher iv position outcomes,
        .ofPosition cipher iv (position + (delivered outcomes).length)) := by
  induction outcomes generalizing position with
  | nil => rfl
  | cons outcome outcomes ih =>
    cases outcome with
    | ok data =>
      simp only [underCursor, Counter.Cursor.apply_ofPosition, ih, underKeystream, delivered,
        List.length_append, Nat.add_assoc]
    | error error => simp only [underCursor, ih, underKeystream, delivered]

end Reader

namespace CounterReader

variable {ρ : Type}

theorem startAtBytes_eq_ok {inner : ρ} {key iv : Bytes} {stream : CounterReader ρ} :
    startAtBytes inner key iv = .ok stream ↔
      Aes.IsKeyLength key.length ∧ iv.length = 16 ∧
        stream = ⟨inner, Aes.Schedule.ofKey key, Block.ofBytes iv, 0⟩ := by
  rw [← checkKeyLength_eq_ok]
  unfold startAtBytes start Block.ofBytes?
  cases checkKeyLength key.length with
  | error cause => exact ⟨nofun, nofun⟩
  | ok _ =>
    by_cases size : iv.length = 16
    · rw [if_pos size]
      exact ⟨fun same => ⟨rfl, size, (Except.ok.inj same).symm⟩, fun all => by rw [all.2.2]; rfl⟩
    · rw [if_neg size]
      exact ⟨nofun, fun all => absurd all.2.1 size⟩

section Requests

variable [Reader ρ] {n : Nat} {r r' : CounterReader ρ} {error : StreamError}

/-- A request that fails, fails on the inner reader and moves nothing. -/
theorem read_eq_error (h : Reader.read n r = .error error r') :
    Reader.read n r.inner = .error error r'.inner ∧ r'.position = r.position := by
  change CounterReader.read n r = .error error r' at h
  unfold CounterReader.read at h
  split at h <;> cases h
  next read => exact ⟨read, rfl⟩

/-- A run of a reader in counter mode is the same run of the inner reader with its outcomes
under the keystream, and moves by the bytes delivered. -/
theorem requests_eq (sizes : List Nat) (r : CounterReader ρ) :
    Reader.requests sizes r =
      (Reader.underKeystream (Aes.encryptBlock r.schedule) r.iv r.position
          (Reader.requests sizes r.inner).1,
        { r with
          inner := (Reader.requests sizes r.inner).2
          position :=
            r.position + (Reader.delivered (Reader.requests sizes r.inner).1).length }) := by
  induction sizes generalizing r with
  | nil => rfl
  | cons n sizes ih =>
    have step : Reader.read n r = CounterReader.read n r := rfl
    rw [Reader.requests, Reader.requests, step, CounterReader.read]
    cases Reader.read n r.inner with
    | ok data inner =>
      simp only [ih, Reader.underKeystream, Reader.delivered, List.length_append, Nat.add_assoc]
    | error error inner =>
      simp only [ih, Reader.underKeystream, Reader.delivered]

end Requests

/-! ## Runs over a source -/

open Reader (requests delivered underKeystream)

/-- What a run of requests on a stream does that puts a source under a keystream. -/
structure TransformsRun (cipher : Block → Block) (iv : Block) (source : Source)
    (stream : CounterReader Source) (sizes : List Nat) : Prop where
  /-- It leaves the source as the same run on the source itself does. -/
  inner : (requests sizes stream).2.inner = (requests sizes source).2
  /-- The source is asked once for each request, and for as many bytes. -/
  asked : (requests sizes stream).2.inner.requests = sizes.reverse ++ source.requests
  /-- Every request returns what the source returns to it, under the keystream. -/
  outcomes : (requests sizes stream).1 = underKeystream cipher iv 0 (requests sizes source).1
  /-- The same comes of a keystream whose blocks are made one after the other, with the rest of
  a block kept from one request to the next; a failure uses up nothing of it. -/
  blocks : Reader.underCursor cipher ⟨iv, []⟩ (requests sizes source).1 =
    ((requests sizes stream).1,
      .ofPosition cipher iv (delivered (requests sizes source).1).length)
  bytes : delivered (requests sizes stream).1 =
    Bytes.xor (delivered (requests sizes source).1)
      (Counter.keystream cipher iv 0 (delivered (requests sizes source).1).length)
  length : (delivered (requests sizes stream).1).length =
    (delivered (requests sizes source).1).length
  /-- The keystream has moved by the bytes that the source has handed out. -/
  position : (requests sizes stream).2.position = (delivered (requests sizes source).1).length
  /-- If the next request fails, then the source fails it, and the keystream stays. -/
  failed : ∀ n error after, Reader.read n (requests sizes stream).2 = .error error after →
    Reader.read n (requests sizes source).2 = .error error after.inner ∧
      after.position = (requests sizes stream).2.position

/-- However it is asked, a stream over a source delivers these bytes in order, and all of
them once the source is used up. -/
structure Yields (stream : CounterReader Source) (bytes : Bytes) : Prop where
  part : ∀ sizes, delivered (requests sizes stream).1 <+: bytes
  whole : ∀ sizes, (requests sizes stream).2.inner.pieces = [] →
    delivered (requests sizes stream).1 = bytes
  ends : ∃ sizes, (requests sizes stream).2.inner.pieces = []

variable (schedule : Aes.Schedule) (iv : Block) (source : Source)

theorem transformsRun_begun (sizes : List Nat) :
    TransformsRun (Aes.encryptBlock schedule) iv source ⟨source, schedule, iv, 0⟩ sizes := by
  have run := requests_eq sizes (⟨source, schedule, iv, 0⟩ : CounterReader Source)
  have bytes : delivered (requests sizes (⟨source, schedule, iv, 0⟩ : CounterReader Source)).1 =
      Counter.apply (Aes.encryptBlock schedule) iv 0 (delivered (requests sizes source).1) := by
    rw [run, Reader.delivered_underKeystream]
  exact {
    inner := by rw [run]
    asked := by rw [run, Source.requests_requests]
    outcomes := by rw [run]
    blocks := by
      rw [run, ← Counter.Cursor.ofPosition_zero (Aes.encryptBlock schedule) iv,
        Reader.underCursor_ofPosition, Nat.zero_add]
    bytes := bytes
    length := by rw [bytes, Counter.length_apply]
    position := by rw [run, Nat.zero_add]
    failed := by
      intro n error after read
      rw [run] at read ⊢
      exact read_eq_error read }

theorem yields_begun :
    Yields ⟨source, schedule, iv, 0⟩
      (Counter.apply (Aes.encryptBlock schedule) iv 0 (Script.content source.pieces)) := by
  have run := transformsRun_begun schedule iv source
  have whole : ∀ sizes, delivered (requests sizes source).1 ++
      Script.content (requests sizes source).2.pieces = Script.content source.pieces :=
    fun sizes => (ScriptedReader.content_requests sizes source).symm
  refine ⟨fun sizes => ?_, fun sizes used => ?_, ?_⟩
  · rw [(run sizes).bytes, ← whole sizes]
    exact ⟨_, (Counter.apply_append ..).symm⟩
  · rw [(run sizes).inner] at used
    rw [(run sizes).bytes, ← whole sizes, used, Script.content_nil, List.append_nil]
    rfl
  · obtain ⟨sizes, used⟩ := ScriptedReader.exists_requests_nil source
    exact ⟨sizes, by rw [(run sizes).inner]; exact used⟩

/-- A reader in counter mode puts each byte of its source under the keystream byte of its
position, whatever the pieces of the source, the requests and the failures between them; and
a second one with the same key and counter block gives the bytes back, whether it reads
from the first or from what the first delivered, cut anew. -/
theorem transforms_by_position {key iv : Bytes} (fits : Aes.IsKeyLength key.length)
    (oneBlock : iv.length = 16) (source : Source) :
    ∃ stream, startAtBytes source key iv = .ok stream ∧
      (∀ sizes, TransformsRun (cipherOf key) (Block.ofBytes iv) source stream sizes) ∧
      Yields stream
        (Counter.apply (cipherOf key) (Block.ofBytes iv) 0 (Script.content source.pieces)) ∧
      (∃ twice, startAtBytes stream key iv = .ok twice ∧
        ∀ sizes, (requests sizes twice).1 = (requests sizes source).1) ∧
      ∀ sizes (again : Source), Script.content again.pieces = delivered (requests sizes stream).1 →
        ∃ back, startAtBytes again key iv = .ok back ∧
          Yields back (delivered (requests sizes source).1) := by
  have starts : ∀ {ρ : Type} (inner : ρ), startAtBytes inner key iv =
      .ok ⟨inner, Aes.Schedule.ofKey key, Block.ofBytes iv, 0⟩ :=
    fun inner => startAtBytes_eq_ok.mpr ⟨fits, oneBlock, rfl⟩
  refine ⟨_, starts source, transformsRun_begun _ _ source, yields_begun .., ⟨_, starts _, ?_⟩, ?_⟩
  · intro sizes
    rw [requests_eq, requests_eq, Reader.underKeystream_underKeystream]
  · intro sizes again cut
    refine ⟨_, starts again, ?_⟩
    have back := yields_begun (Aes.Schedule.ofKey key) (Block.ofBytes iv) again
    rwa [cut, requests_eq, Reader.delivered_underKeystream, Counter.apply_apply] at back

/-- Two pieces, one of them empty, a failure and a third piece, under the last counter block
before the counter begins anew. -/
theorem transforms_by_position_past_failure :
    ∃ stream,
      startAtBytes (⟨[.data [1, 2, 3], .data [], .failure .endOfStream, .data [4]], []⟩ : Source)
        (List.replicate 16 7) (List.replicate 16 255) = .ok stream ∧
      (requests [2, 0, 9, 9, 9, 9] stream).1 =
        underKeystream (cipherOf (List.replicate 16 7)) (Block.ofBytes (List.replicate 16 255)) 0
          [.ok [1, 2], .ok [], .ok [3], .ok [], .error .endOfStream, .ok [4]] ∧
      (requests [2, 0, 9, 9, 9, 9] stream).2.position = 4 ∧
      ∃ back, startAtBytes
          (⟨[.data (delivered (requests [2, 0, 9, 9, 9, 9] stream).1)], []⟩ : Source)
          (List.replicate 16 7) (List.replicate 16 255) = .ok back ∧
        Yields back [1, 2, 3, 4] := by
  obtain ⟨stream, started, run, -, -, again⟩ :=
    @transforms_by_position (List.replicate 16 7) (List.replicate 16 255) (by decide) (by decide)
      ⟨[.data [1, 2, 3], .data [], .failure .endOfStream, .data [4]], []⟩
  refine ⟨stream, started, (run _).outcomes, (run _).position, ?_⟩
  exact again [2, 0, 9, 9, 9, 9] _ (List.append_nil _)

end CounterReader

end KeyEnvelope
