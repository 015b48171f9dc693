import KeyEnvelope.Proofs.Transit.Interval
import KeyEnvelope.Proofs.Transit.Unwrapping

/-!
# The floor of a key

The minimum of a key is a floor: below it no version unwraps, and from it on each one up to
the latest should (`TransitKey.Live`).  The floor is live as long as it does not lie below
the first retained version.  Trimming moves that version up to the floor, but the floor
itself can then be lowered to what has been trimmed, so a key is live exactly if no run
has trimmed what its minimum is now (`live_iff_of_run`).
-/

namespace KeyEnvelope

/-- Every version from the minimum of a key to its latest one is retained. -/
def TransitKey.Live (key : TransitKey) : Prop :=
  ∀ number, key.minimum ≤ number → number ≤ key.latest →
    ∃ version, key.version? number = some version

variable {key : TransitKey} {first : Nat}

namespace TransitKey.Spans

theorem live_iff (spans : key.Spans first) : key.Live ↔ first ≤ key.minimum := by
  refine ⟨fun live => ?_, fun above number allowed known => ?_⟩
  · have retained := live key.minimum (Nat.le_refl _) spans.minimum_le
    exact (spans.exists_version?_iff.mp retained).1
  · exact spans.exists_version?_iff.mpr ⟨Nat.le_trans above allowed, known⟩

/-- A key is live if it retains as many versions as its floor promises. -/
theorem length_iff (spans : key.Spans first) :
    key.latest - key.minimum + 1 ≤ key.latest - first + 1 ↔ first ≤ key.minimum := by
  have below := spans.first_le
  have minimum := spans.minimum_le
  omega

end TransitKey.Spans

/-! ## Stores -/

namespace TransitStore

variable {store : TransitStore} {name : String}

/-- A key is live if versions are only ever missing that it has not had yet. -/
theorem missing_above_latest_iff (found : store.keys[name]? = some key) (spans : key.Spans first)
    (fits : key.latest ≤ TransitCiphertext.maxVersion) :
    (∀ ciphertext number, store.unwrap name ciphertext = .error (.versionMissing name number) →
      key.latest < number) ↔ first ≤ key.minimum := by
  refine ⟨fun above => ?_, fun live ciphertext number failed => ?_⟩
  -- Any text that names the minimum shows whether that version is there.
  · by_contra sunk
    have missing := spans.version?_eq_none_iff.mpr (.inl (Nat.lt_of_not_le sunk))
    have parsed : TransitCiphertext.parse (TransitCiphertext.render ⟨key.minimum, []⟩) =
        .ok ⟨key.minimum, []⟩ :=
      TransitCiphertext.parse_render (Nat.le_trans spans.minimum_le fits)
    have failed := unwrap_of_none found parsed (Nat.le_refl _) missing
    exact absurd (above _ _ failed) (Nat.not_lt.mpr spans.minimum_le)
  · cases refused_of_unwrap failed with
    | missing found' allowed missing =>
      cases found.symm.trans found'
      have outside := spans.version?_eq_none_iff.mp missing
      omega

/-- A version of a key that a run has made is retained exactly if it was never trimmed. -/
theorem first_le_iff_of_run {operations : List Operation} {number : Nat}
    (moved : ∀ number, number < first ↔ number < 1 ∨ Trimmed name number {} operations)
    (positive : 1 ≤ number) : first ≤ number ↔ ¬ Trimmed name number {} operations := by
  rw [← Nat.not_lt, moved, or_iff_right (Nat.not_lt.mpr positive)]

end TransitStore

/-! ## Services -/

namespace TransitClient

open TransitStore (Operation Trimmed rotations)

variable {client : TransitClient} {name : String}

theorem setMinimum_of_some (found : client.store.keys[name]? = some key) (version : Nat) :
    setMinimum name version client =
      if version = 0 ∨ key.latest < version then
        .error (.keyManagement (.minimumOutside version key.latest)) client
      else .ok ()
        { client with store := client.store.put name { key with minimum := version } } := by
  change EStateM.bind (attempt .keyManagement (client.store.setMinimum name version)) _ _ = _
  rw [TransitStore.setMinimum_of_some found]
  split <;> rfl

/-- The floor of a key names live versions exactly if its minimum was never trimmed; and so
long the key retains as many versions as lie above the floor, and no version that the
floor admits is missing when a text is unwrapped.  Setting the minimum succeeds for every
version that the key has had, trimmed or not. -/
theorem live_iff_of_run {operations : List Operation}
    (current : client.store = TransitStore.run {} operations)
    (found : client.store.keys[name]? = some key)
    (few : rotations name {} operations < UInt32.size - 1) :
    (key.Live ↔ ¬ Trimmed name key.minimum {} operations) ∧
      (∃ info, client.store.info? name = some info ∧
        (info.latest - info.minimum + 1 ≤ info.retained ↔
          ¬ Trimmed name key.minimum {} operations)) ∧
      ((∀ ciphertext number client', KeyService.unwrap name ciphertext client =
          .error (.keyManagement (.versionMissing name number)) client' → key.latest < number) ↔
        ¬ Trimmed name key.minimum {} operations) ∧
      ∀ version, if 1 ≤ version ∧ version ≤ key.latest then
          ∃ client' key', setMinimum name version client = .ok () client' ∧
            client'.store.keys[name]? = some key' ∧ key'.minimum = version ∧
            (key'.Live ↔ ¬ Trimmed name version {} operations)
        else setMinimum name version client =
          .error (.keyManagement (.minimumOutside version key.latest)) client := by
  have made := current ▸ found
  obtain ⟨first, spans, moved⟩ := TransitStore.spans_of_run made
  have fits := TransitStore.latest_le_maxVersion made few
  have floor := TransitStore.first_le_iff_of_run moved spans.minimum_pos
  refine ⟨?live, ?retained, ?missing, fun version => ?moves⟩
  case live => rw [spans.live_iff, floor]
  case retained =>
    obtain ⟨createdAt, rotatedAt, told⟩ := TransitStore.info?_of_some found spans
    refine ⟨_, told, ?_⟩
    rw [← floor]
    exact spans.length_iff
  case missing =>
    rw [← floor, ← TransitStore.missing_above_latest_iff found spans fits]
    refine forall₂_congr fun ciphertext number => ⟨fun above failed => ?_, fun above _ failed => ?_⟩
    · exact above client (unwrap_eq_error.mpr ⟨_, failed, rfl, rfl⟩)
    · obtain ⟨cause, failed, same, -⟩ := unwrap_eq_error.mp failed
      cases same
      exact above failed
  case moves =>
    rw [setMinimum_of_some found]
    split
    next inside =>
      have lowered := spans.setMinimum inside.1 inside.2
      refine ⟨_, _, if_neg (by omega), TransitStore.getElem?_put_self .., rfl, ?_⟩
      rw [lowered.live_iff, TransitStore.first_le_iff_of_run moved inside.1]
    next outside => exact if_pos (by omega)

/-- A key that was trimmed to its second version, and whose minimum was left there. -/
theorem live_iff_of_run_trimmed :
    ∃ (client : TransitClient) (key : TransitKey), client.store = TransitStore.run {} [
        .createKey "a" ⟨List.replicate 32 7, rfl⟩ 0, .rotate "a" ⟨List.replicate 32 8, rfl⟩ 1,
        .setMinimum "a" 2, .trim "a"] ∧
      client.store.keys["a"]? = some key ∧ key.minimum = 2 ∧ key.Live := by
  obtain ⟨client, current⟩ := exists_client_of_run [
    .createKey "a" ⟨List.replicate 32 7, rfl⟩ 0, .rotate "a" ⟨List.replicate 32 8, rfl⟩ 1,
    .setMinimum "a" 2, .trim "a"]
  have found : client.store.keys["a"]? = some ⟨[⟨2, ⟨List.replicate 32 8, rfl⟩, 1⟩], 2, 2⟩ := by
    rw [current, TransitStore.key_run, TransitStore.getElem?_empty]
    rfl
  have live := (live_iff_of_run current found
    (Nat.lt_of_le_of_lt (TransitStore.rotations_le_length ..) (by decide))).1
  refine ⟨client, _, current, found, rfl, live.mpr ?_⟩
  simp [TransitStore.trimmed_cons, TransitStore.minimum?, TransitStore.key_step,
    TransitStore.keyStep, TransitKey.create, TransitKey.rotate]

/-- A minimum that is lowered to a trimmed version is below what is retained. -/
theorem not_live_of_run :
    ¬ ∀ (operations : List Operation) (client : TransitClient) (name : String) (key : TransitKey),
      client.store = TransitStore.run {} operations → client.store.keys[name]? = some key →
      rotations name {} operations < UInt32.size - 1 → key.Live := by
  intro live
  obtain ⟨client, current⟩ := exists_client_of_run [
    .createKey "a" ⟨List.replicate 32 7, rfl⟩ 0, .rotate "a" ⟨List.replicate 32 8, rfl⟩ 1,
    .setMinimum "a" 2, .trim "a", .setMinimum "a" 1]
  have found : client.store.keys["a"]? = some ⟨[⟨2, ⟨List.replicate 32 8, rfl⟩, 1⟩], 2, 1⟩ := by
    rw [current, TransitStore.key_run, TransitStore.getElem?_empty]
    rfl
  obtain ⟨version, retained⟩ := live _ client "a" _ current found
    (Nat.lt_of_le_of_lt (TransitStore.rotations_le_length ..) (by decide)) 1 (Nat.le_refl 1)
    (by decide)
  cases retained

end TransitClient

end KeyEnvelope
