import KeyEnvelope.Proofs.Engine.Survivors
import KeyEnvelope.Proofs.Wrapper.Inverse

/-!
# One pair, one call, one fetch

Of the wrappers, the first that supports any of the stored keys is used, with the first of
the keys that it supports (`selectKey_eq_some`), and no other pair is tried.  Its key is
unwrapped before the ciphertext is fetched, and all that can fail after that is a key that
no cipher has (`usesPair_of_firstPair`).  What else is true of decrypting depends on what
the wrapper does: that a key service is asked once at most, and that nothing fails after
the fetch, are laws of wrappers (`DataKeyWrapper.Lawful`), which those of this library obey
(`KeyWrapper.lawful`).
-/

namespace KeyEnvelope

/-! ## Laws of wrappers -/

/-- From one state of a key service to another nothing was asked, or, for a key that is
wrapped, to unwrap one text. -/
def StoredKey.AsksAtMostOnce (key : StoredKey) (service service' : RecordedService) : Prop :=
  service' = service ∨ ∃ record name ciphertext, key = .wrapped record ∧
    service' = service.after (.unwrap name ciphertext)

/-- A wrapper, with a key service among what it asks, that unwraps keys of the cipher only,
with one call to the service at most and with none for a key in the clear.  Nothing makes a
wrapper keep to this, so what follows from it is said of lawful wrappers only. -/
structure DataKeyWrapper.Lawful {ω σ : Type} [DataKeyWrapper ω σ] (service : σ → RecordedService)
    (wrapper : ω) : Prop where
  isKeyLength : ∀ {key : StoredKey} {state state' : σ} {parameters : ContentParameters},
    unwrap wrapper key state = .ok parameters state' → Aes.IsKeyLength parameters.key.length
  asks : ∀ (key : StoredKey) (state : σ),
    key.AsksAtMostOnce (service state) (service (finalState (unwrap wrapper key state)))

theorem KeyWrapper.AsksOnce.atMostOnce {wrapper : KeyWrapper} {key : StoredKey}
    {service service' : RecordedService} (asks : wrapper.AsksOnce key service service') :
    key.AsksAtMostOnce service service' := by
  refine asks.imp_right fun asked => ?_
  obtain ⟨keyName, record, ciphertext, -, wrapped, -, after⟩ := asked
  exact ⟨record, keyName, ciphertext, wrapped, after⟩

theorem KeyWrapper.lawful (wrapper : KeyWrapper) :
    DataKeyWrapper.Lawful (fun service : RecordedService => service) wrapper where
  isKeyLength := KeyWrapper.isKeyLength_of_unwrap
  asks key service := (wrapper.asksOnce_unwrap key service).atMostOnce

namespace Engine

open WrapperKind (supports)

open DataKeyWrapper (unwrap Lawful)

variable {ω σ φ ρ : Type} [WrapperKind ω] [DataKeyWrapper ω σ] {wrappers : List ω}
  {keys : List StoredKey} {wrapper : ω} {key : StoredKey}

/-! ## The first pair -/

/-- A wrapper is the first of its list that supports any of the keys, and a key is the first
of its list that this wrapper supports. -/
structure FirstPair (wrappers : List ω) (keys : List StoredKey) (wrapper : ω)
    (key : StoredKey) : Prop where
  supports : supports wrapper key = true
  wrapper_first : ∃ before after, wrappers = before ++ wrapper :: after ∧
    ∀ earlier ∈ before, ∀ key ∈ keys, WrapperKind.supports earlier key = false
  key_first : ∃ before after, keys = before ++ key :: after ∧
    ∀ earlier ∈ before, WrapperKind.supports wrapper earlier = false

theorem find?_supports_eq_some : keys.find? (supports wrapper) = some key ↔
    supports wrapper key = true ∧ ∃ before after, keys = before ++ key :: after ∧
      ∀ earlier ∈ before, supports wrapper earlier = false := by
  simp only [List.find?_eq_some_iff_append, Bool.not_eq_true']

theorem selectKey_eq_some :
    selectKey wrappers keys = some (wrapper, key) ↔ FirstPair wrappers keys wrapper key := by
  unfold selectKey
  simp only [List.findSome?_eq_some_iff, Option.map_eq_none_iff, List.find?_eq_none,
    Bool.not_eq_true]
  refine ⟨fun found => ?_, fun pair => ?_⟩
  · rcases found with ⟨before, candidate, after, listed, chosen, passed⟩
    rcases Option.map_eq_some_iff.mp chosen with ⟨_, first, same⟩
    cases same
    obtain ⟨supports, key_first⟩ := find?_supports_eq_some.mp first
    exact ⟨supports, ⟨before, after, listed, passed⟩, key_first⟩
  · obtain ⟨before, after, listed, passed⟩ := pair.wrapper_first
    have first := find?_supports_eq_some.mpr ⟨pair.supports, pair.key_first⟩
    exact ⟨before, wrapper, after, listed, by rw [first]; rfl, passed⟩

/-! ## Fetches on record -/

/-- A fetch that keeps a record of the ranges that it was asked for, the last one first. -/
def recording (fetch : ByteRange → EStateM StreamError φ ρ) (range : ByteRange) :
    EStateM StreamError (φ × List ByteRange) ρ :=
  fun (place, fetched) => onPart (·, range :: fetched) id (fetch range place)

variable {range : ByteRange} {fetch : ByteRange → EStateM StreamError φ ρ} {place place' : φ}

theorem recording_of_ok {ciphertext : ρ} (fetched : List ByteRange)
    (served : fetch range place = .ok ciphertext place') :
    recording fetch range (place, fetched) = .ok ciphertext (place', range :: fetched) :=
  onPart_eq_ok.mpr ⟨place', served, rfl⟩

theorem recording_of_error {failure : StreamError} (fetched : List ByteRange)
    (failed : fetch range place = .error failure place') :
    recording fetch range (place, fetched) = .error failure (place', range :: fetched) :=
  onPart_eq_error.mpr ⟨failure, place', failed, rfl, rfl⟩

/-! ## Decrypting with the pair -/

/-- How decrypting a range with a pair ends.  If the key is not unwrapped nothing is fetched.
Otherwise the range is fetched once, from the start of its block on, and whatever was
fetched is opened if the key is one of the cipher. -/
structure UsesPair (wrapper : ω) (key : StoredKey) (range : ByteRange)
    (fetch : ByteRange → EStateM StreamError φ ρ) (state : σ) (place : φ)
    (fetched : List ByteRange)
    (outcome : EStateM.Result EnvelopeError (σ × φ × List ByteRange) (RangeReader ρ)) :
    Prop where
  locked : ∀ e state', unwrap wrapper key state = .error e state' →
    outcome = .error e (state', place, fetched)
  unfetched : ∀ parameters state' failure place',
    unwrap wrapper key state = .ok parameters state' →
    fetch range.blockAligned place = .error failure place' →
    outcome = .error (.stream failure) (state', place', range.blockAligned :: fetched)
  opened : ∀ parameters state' ciphertext place',
    unwrap wrapper key state = .ok parameters state' →
    fetch range.blockAligned place = .ok ciphertext place' →
    Aes.IsKeyLength parameters.key.length →
    ∃ reader, openAt parameters range.start ciphertext = .ok reader ∧
      outcome = .ok ⟨reader, range.limit⟩ (state', place', range.blockAligned :: fetched)
  unfit : ∀ parameters state' ciphertext place',
    unwrap wrapper key state = .ok parameters state' →
    fetch range.blockAligned place = .ok ciphertext place' →
    ¬ Aes.IsKeyLength parameters.key.length →
    outcome = .error (.config (.keySize parameters.key.length))
      (state', place', range.blockAligned :: fetched)

theorem decryptWithWrappers_of_none (state : σ × φ) (none : selectKey wrappers keys = none) :
    decryptWithWrappers keys wrappers range fetch state =
      .error (.keyManagement (.noWrapperSupports wrappers.length keys.length)) state := by
  unfold decryptWithWrappers
  rw [none]
  rfl

/-- Without a key that is unwrapped there is nothing to fetch. -/
theorem decryptWithWrappers_of_unwrap_error {state state' : σ} {e : EnvelopeError}
    (selected : selectKey wrappers keys = some (wrapper, key))
    (locked : unwrap wrapper key state = .error e state') :
    decryptWithWrappers keys wrappers range fetch (state, place) = .error e (state', place) := by
  unfold decryptWithWrappers
  rw [selected]
  exact bind_of_error (onService_eq_error.mpr ⟨state', locked, rfl⟩)

theorem usesPair_of_firstPair (range : ByteRange) (fetch : ByteRange → EStateM StreamError φ ρ)
    (state : σ) (place : φ) (fetched : List ByteRange)
    (pair : FirstPair wrappers keys wrapper key) :
    UsesPair wrapper key range fetch state place fetched
      (decryptWithWrappers keys wrappers range (recording fetch) (state, place, fetched)) := by
  have selected := selectKey_eq_some.mpr pair
  constructor
  case locked => exact fun _ _ => decryptWithWrappers_of_unwrap_error selected
  case unfetched =>
    intro parameters state' failure place' unwraps failed
    exact decryptWithWrappers_of_fetch_error selected unwraps (recording_of_error fetched failed)
  case opened =>
    intro parameters state' ciphertext place' unwraps served fits
    exact (decryptsUnder_of_unwrap fits selected unwraps range _ _ _).1 ciphertext
      (recording_of_ok fetched served)
  case unfit =>
    intro parameters state' ciphertext place' unwraps served unfit
    rw [decryptWithWrappers_of_unwrap selected unwraps]
    refine (bind_of_ok (onFetch_eq_ok.mpr ⟨_, recording_of_ok fetched served, rfl⟩)).trans ?_
    rw [openAt_of_not_isKeyLength unfit]
    rfl

namespace UsesPair

variable {state : σ} {fetched : List ByteRange}
  {outcome : EStateM.Result EnvelopeError (σ × φ × List ByteRange) (RangeReader ρ)}

omit [WrapperKind ω] in
/-- Only the unwrapping touches what the wrapper asks. -/
theorem finalState_eq (uses : UsesPair wrapper key range fetch state place fetched outcome) :
    (finalState outcome).1 = finalState (unwrap wrapper key state) := by
  cases unwraps : unwrap wrapper key state with
  | error e state' =>
    rw [uses.locked e state' unwraps]
    rfl
  | ok parameters state' =>
    cases fetching : fetch range.blockAligned place with
    | error failure place' =>
      rw [uses.unfetched parameters state' failure place' unwraps fetching]
      rfl
    | ok ciphertext place' =>
      by_cases fits : Aes.IsKeyLength parameters.key.length
      · obtain ⟨reader, -, ended⟩ :=
          uses.opened parameters state' ciphertext place' unwraps fetching fits
        rw [ended]
        rfl
      · rw [uses.unfit parameters state' ciphertext place' unwraps fetching fits]
        rfl

end UsesPair

/-- If no wrapper supports a key, none is asked and nothing is fetched.  Otherwise the range
is decrypted with the first wrapper that supports any key and the first key that it
supports, and the range is fetched only once that key is unwrapped.  Under the laws of
wrappers a key service is asked once at most, and what is fetched is opened.  The wrappers
that need a key service at most are lawful, and ask it for the text of the key. -/
theorem decryptWithWrappers_one_pair (keys : List StoredKey) (wrappers : List ω)
    (range : ByteRange) (fetch : ByteRange → EStateM StreamError φ ρ) (state : σ) (place : φ)
    (fetched : List ByteRange) :
    let outcome :=
      decryptWithWrappers keys wrappers range (recording fetch) (state, place, fetched)
    ((∀ wrapper ∈ wrappers, ∀ key ∈ keys, supports wrapper key = false) →
      outcome = .error (.keyManagement (.noWrapperSupports wrappers.length keys.length))
        (state, place, fetched)) ∧
    ((∃ wrapper ∈ wrappers, ∃ key ∈ keys, supports wrapper key = true) →
      ∃ wrapper key, FirstPair wrappers keys wrapper key) ∧
    (∀ wrapper key, FirstPair wrappers keys wrapper key →
      UsesPair wrapper key range fetch state place fetched outcome ∧
      (finalState outcome).1 = finalState (unwrap wrapper key state) ∧
      ∀ service : σ → RecordedService, Lawful service wrapper →
        key.AsksAtMostOnce (service state) (service (finalState outcome).1) ∧
        ∀ parameters state' ciphertext place',
          unwrap wrapper key state = .ok parameters state' →
          fetch range.blockAligned place = .ok ciphertext place' →
          ∃ reader, outcome = .ok reader (state', place', range.blockAligned :: fetched)) ∧
    ∀ wrapper : KeyWrapper,
      Lawful (fun service : RecordedService => service) wrapper ∧
      ∀ key service, wrapper.AsksOnce key service (finalState (wrapper.unwrap key service)) := by
  intro outcome
  refine ⟨fun unsupported => ?_, fun supported => ?_, fun wrapper key pair => ?_,
    fun wrapper => ⟨wrapper.lawful, wrapper.asksOnce_unwrap⟩⟩
  · refine decryptWithWrappers_of_none _ (selectKey_eq_none.mpr ?_)
    intro wrapper listed key member
    rw [unsupported wrapper listed key member]
    exact Bool.false_ne_true
  · obtain ⟨wrapper, key, selected⟩ := exists_selectKey supported
    exact ⟨wrapper, key, selectKey_eq_some.mp selected⟩
  · have uses := usesPair_of_firstPair range fetch state place fetched pair
    refine ⟨uses, uses.finalState_eq, fun service lawful => ⟨?_, ?_⟩⟩
    · rw [uses.finalState_eq]
      exact lawful.asks key state
    · intro parameters state' ciphertext place' unwraps served
      obtain ⟨reader, -, ended⟩ :=
        uses.opened parameters state' ciphertext place' unwraps served (lawful.isKeyLength unwraps)
      exact ⟨_, ended⟩

/-- The wrapper in front decides although the other one supports the key in front.  What the
service refuses is not tried with the other pair, and what it does not is fetched from the
second block on. -/
theorem decryptWithWrappers_one_pair_refused :
    let bytes : Bytes := List.replicate 16 7
    let plain : StoredKey := .plain ⟨"AES", bytes, Block.toBytes 0⟩
    let wrapped : StoredKey :=
      .wrapped ⟨"vault-transit", "k", "1", "AES", Utf8.encode "x", Block.toBytes 0⟩
    let wrappers : List KeyWrapper := [.transit "k", .unencrypted]
    let fetch : ByteRange → EStateM StreamError Unit Source := fun _ => pure ⟨[], []⟩
    let answering := fun answer => RecordedService.ofReplies fun _ => answer
    let asked := fun answer => (answering answer).after (.unwrap "k" "x")
    let refusal : EnvelopeError := .keyManagement (.reported "sealed")
    let text := Base64.encodeText bytes
    decryptWithWrappers [plain, wrapped] wrappers ⟨17, none⟩ (recording fetch)
        (answering (.error refusal), (), []) = .error refusal (asked (.error refusal), (), []) ∧
      ∃ reader, decryptWithWrappers [plain, wrapped] wrappers ⟨17, none⟩ (recording fetch)
        (answering (.ok text), (), []) = .ok reader (asked (.ok text), (), [⟨16, none⟩]) := by
  intro bytes plain wrapped wrappers fetch answering asked refusal text
  have pair : FirstPair wrappers [plain, wrapped] (.transit "k") wrapped :=
    ⟨rfl, ⟨[], [.unencrypted], rfl, nofun⟩,
      ⟨[plain], [], rfl, by simp [plain, KeyWrapper.supports]⟩⟩
  have uses := fun answer => (decryptWithWrappers_one_pair [plain, wrapped] wrappers ⟨17, none⟩
    fetch (answering answer) () []).2.2.1 _ _ pair
  have lawful := (decryptWithWrappers_one_pair [plain, wrapped] wrappers ⟨17, none⟩ fetch
    (answering (.ok text)) () []).2.2.2 (.transit "k")
  refine ⟨(uses _).1.locked _ _ ?_, ?_⟩
  · obtain ⟨record, held, stages⟩ :=
      KeyWrapper.unwrapStages_of_supports (answering (.error refusal)) pair.supports
    cases (show StoredKey.wrapped _ = .wrapped record from held)
    exact (stages.asks "x" rfl).refused refusal rfl
  · have unwraps : KeyWrapper.unwrap (.transit "k") wrapped (answering (.ok text)) =
        .ok ⟨bytes, 0⟩ (asked (.ok text)) :=
      KeyWrapper.unwrap_transit_eq_ok.mpr
        ⟨_, "x", rfl, rfl, rfl, rfl, rfl, by decide, rfl⟩
    exact ((uses _).2.2 _ lawful.1).2 _ _ ⟨[], []⟩ () unwraps rfl

end Engine

end KeyEnvelope
