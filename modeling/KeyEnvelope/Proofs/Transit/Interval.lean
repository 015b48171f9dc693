import Mathlib.Data.List.Intervals
import KeyEnvelope.Proofs.Transit.Retention

/-!
# The interval of retained versions

The numbers of the versions that a key retains are an interval that ends at the latest
one, and the minimum lies between one and the latest (`TransitKey.Spans`).  Every
operation keeps this up, and a run moves the first retained number up only, to behind
those that it trims (`spans_of_run`).  So nothing that a service looks up of a key that
exists is ever missing (`retained_interval`).
-/

namespace KeyEnvelope

/-! ## One key -/

namespace TransitKey

/-- A key retains the versions from `first` to its latest one, and its minimum is the
number of a version that it has had. -/
structure Spans (key : TransitKey) (first : Nat) : Prop where
  first_pos : 1 ≤ first
  first_le : first ≤ key.latest
  numbers : key.versions.map (·.number) = List.Ico first (key.latest + 1)
  minimum_pos : 1 ≤ key.minimum
  minimum_le : key.minimum ≤ key.latest

variable {key : TransitKey} {first number : Nat}

theorem spans_create (material : SealingKey) (createdAt : Nat) :
    (create material createdAt).Spans 1 where
  first_pos := Nat.le_refl 1
  first_le := Nat.le_refl 1
  numbers := rfl
  minimum_pos := Nat.le_refl 1
  minimum_le := Nat.le_refl 1

namespace Spans

theorem rotate (spans : key.Spans first) (material : SealingKey) (createdAt : Nat) :
    (key.rotate material createdAt).Spans first where
  first_pos := spans.first_pos
  first_le := Nat.le_succ_of_le spans.first_le
  numbers := by
    have below : first ≤ key.latest + 1 := Nat.le_succ_of_le spans.first_le
    unfold TransitKey.rotate
    rw [List.map_append, spans.numbers, List.Ico.succ_top below]
    rfl
  minimum_pos := spans.minimum_pos
  minimum_le := Nat.le_succ_of_le spans.minimum_le

theorem setMinimum (spans : key.Spans first) {version : Nat} (positive : 0 < version)
    (inside : version ≤ key.latest) : Spans { key with minimum := version } first where
  first_pos := spans.first_pos
  first_le := spans.first_le
  numbers := spans.numbers
  minimum_pos := positive
  minimum_le := inside

/-- Trimming cuts the interval off below the minimum. -/
theorem trim (spans : key.Spans first) : key.trim.Spans (max first key.minimum) where
  first_pos := Nat.le_trans spans.first_pos (Nat.le_max_left ..)
  first_le := Nat.max_le.mpr ⟨spans.first_le, spans.minimum_le⟩
  numbers := by
    have cut := List.Ico.filter_le first (key.latest + 1) key.minimum
    rw [← spans.numbers, List.filter_map] at cut
    exact cut
  minimum_pos := spans.minimum_pos
  minimum_le := spans.minimum_le

theorem length_versions (spans : key.Spans first) :
    key.versions.length = key.latest - first + 1 := by
  have length := congrArg List.length spans.numbers
  rw [List.length_map, List.Ico.length] at length
  have below := spans.first_le
  omega

theorem versions_ne_nil (spans : key.Spans first) : key.versions ≠ [] := by
  intro empty
  have length := spans.length_versions
  rw [empty, List.length_nil] at length
  omega

theorem length_versions_sub_trim (spans : key.Spans first) :
    key.versions.length - key.trim.versions.length = key.minimum - first := by
  have minimum := spans.minimum_le
  have below := spans.first_le
  rw [spans.length_versions, spans.trim.length_versions]
  change key.latest - first + 1 - (key.latest - max first key.minimum + 1) = _
  omega

/-- The versions of the interval are the ones that are retained. -/
theorem exists_version?_iff (spans : key.Spans first) :
    (∃ version, key.version? number = some version) ↔ first ≤ number ∧ number ≤ key.latest := by
  have member : number ∈ key.versions.map (·.number) ↔ first ≤ number ∧ number ≤ key.latest := by
    rw [spans.numbers, List.Ico.mem, Nat.lt_succ_iff]
  rw [← member, ← Option.isSome_iff_exists]
  unfold version?
  simp only [List.find?_isSome, List.mem_map, decide_eq_true_eq]

theorem version?_eq_none_iff (spans : key.Spans first) :
    key.version? number = none ↔ number < first ∨ key.latest < number := by
  rw [Option.eq_none_iff_forall_ne_some, ← not_exists, spans.exists_version?_iff]
  omega

end Spans

end TransitKey

/-! ## Runs -/

namespace TransitStore

variable {store : TransitStore} {name : String} {key : TransitKey} {first : Nat}

/-- An operation moves the first retained number to behind what it trims. -/
theorem spans_of_changes {key' : TransitKey} {operation : Operation} (spans : key.Spans first)
    (changes : Changes name key operation key') :
    ∃ first', key'.Spans first' ∧ key.latest ≤ key'.latest ∧
      ∀ number, number < first' ↔
        number < first ∨ operation = .trim name ∧ number < key.minimum := by
  cases changes with
  | kept _ other =>
    refine ⟨first, spans, Nat.le_refl _, fun number => ?_⟩
    rw [or_iff_left fun trims => other trims.1]
  | rotated material createdAt =>
    refine ⟨first, spans.rotate material createdAt, Nat.le_succ _, fun number => ?_⟩
    rw [or_iff_left fun trims => nomatch trims.1]
  | bounded positive inside =>
    refine ⟨first, spans.setMinimum positive inside, Nat.le_refl _, fun number => ?_⟩
    rw [or_iff_left fun trims => nomatch trims.1]
  | trimmed =>
    refine ⟨_, spans.trim, Nat.le_refl _, fun number => ?_⟩
    rw [and_iff_right rfl]
    omega

theorem getElem?_put_self (store : TransitStore) (name : String) (key : TransitKey) :
    (store.put name key).keys[name]? = some key := by
  rw [getElem?_put, if_pos rfl]

/-- There is something to tell about every key that retains a version. -/
theorem info?_of_some (found : store.keys[name]? = some key) (spans : key.Spans first) :
    ∃ createdAt rotatedAt, store.info? name = some
      ⟨name, key.latest, key.minimum, key.latest - first + 1, createdAt, rotatedAt⟩ := by
  refine ⟨(key.versions.head spans.versions_ne_nil).createdAt,
    (key.versions.getLast spans.versions_ne_nil).createdAt, ?_⟩
  unfold info?
  rw [found, ← spans.length_versions]
  dsimp only [bind, Option.bind]
  rw [List.head?_eq_some_head spans.versions_ne_nil,
    List.getLast?_eq_some_getLast spans.versions_ne_nil]
  rfl

/-- A run moves the first retained number of a key to behind what it trims. -/
theorem spans_of_run_of_some (found : store.keys[name]? = some key) (spans : key.Spans first)
    (operations : List Operation) :
    ∃ key' first', (store.run operations).keys[name]? = some key' ∧ key'.Spans first' ∧
      key.latest ≤ key'.latest ∧
      ∀ number, number < first' ↔ number < first ∨ Trimmed name number store operations := by
  induction operations generalizing store key first with
  | nil =>
    refine ⟨key, first, found, spans, Nat.le_refl _, fun number => ?_⟩
    rw [or_iff_left not_trimmed_nil]
  | cons operation operations ih =>
    obtain ⟨key₁, found₁, changes⟩ := exists_key_step found operation
    obtain ⟨first₁, spans₁, ahead, moved⟩ := spans_of_changes spans changes
    obtain ⟨key', first', found', spans', ahead', moved'⟩ := ih found₁ spans₁
    refine ⟨key', first', found', spans', Nat.le_trans ahead ahead', fun number => ?_⟩
    have bound : store.minimum? name = some key.minimum := by rw [minimum?, found]; rfl
    rw [moved', moved, trimmed_cons, bound, or_assoc]
    simp only [Option.some.injEq, exists_eq_left']

theorem spans_of_run_of_none {operations : List Operation} (missing : store.keys[name]? = none)
    (found : (store.run operations).keys[name]? = some key) :
    ∃ first, key.Spans first ∧
      ∀ number, number < first ↔ number < 1 ∨ Trimmed name number store operations := by
  induction operations generalizing store with
  | nil => cases missing.symm.trans found
  | cons operation operations ih =>
    -- A trimming that finds no key takes nothing away.
    have untouched (number : Nat) : Trimmed name number store (operation :: operations) ↔
        Trimmed name number (store.step operation) operations := by
      rw [trimmed_cons, minimum?, missing, or_iff_right]
      rintro ⟨-, minimum, bound, -⟩
      cases bound
    simp only [untouched]
    rcases key_step_of_none missing operation with still | ⟨material, createdAt, -, created⟩
    · exact ih still found
    · obtain ⟨key', first, found', spans, -, moved⟩ :=
        spans_of_run_of_some created (TransitKey.spans_create material createdAt) operations
      cases found'.symm.trans found
      exact ⟨first, spans, moved⟩

/-- A key that a run has made retains what the run has not trimmed. -/
theorem spans_of_run {operations : List Operation}
    (found : (run {} operations).keys[name]? = some key) :
    ∃ first, key.Spans first ∧
      ∀ number, number < first ↔ number < 1 ∨ Trimmed name number {} operations :=
  spans_of_run_of_none (getElem?_empty name) found

end TransitStore

/-! ## What a service does with a key that exists -/

namespace TransitClient

open TransitStore (Operation issued rotations)

variable {client : TransitClient} {name : String} {key : TransitKey} {first : Nat}

theorem wrap_of_some {version : KeyVersion} (found : client.store.keys[name]? = some key)
    (newest : key.version? key.latest = some version) (text : String) :
    ∃ nonce client', KeyService.wrap name text client =
        .ok (issued version name nonce text) client' ∧ client'.store = client.store :=
  ⟨_, _, attempt_eq_ok.mpr ⟨TransitStore.wrap_of_some found newest _ text, rfl⟩, rfl⟩

theorem rotate_of_some (found : client.store.keys[name]? = some key) :
    KeyService.rotate name client = .ok () {
      store := client.store.put name
        (key.rotate (Entropy.drawKey sealingKeySize client.entropy).1 client.clock)
      entropy := (Entropy.drawKey sealingKeySize client.entropy).2
      clock := client.clock + 1 } := by
  change EStateM.bind (attempt .keyManagement (client.store.rotate name _ _)) setStore _ = _
  rw [TransitStore.rotate_of_some found]
  rfl

theorem trim_of_some (found : client.store.keys[name]? = some key) :
    trim name client = .ok (key.versions.length - key.trim.versions.length)
      { client with store := client.store.put name key.trim } := by
  change EStateM.bind (attempt .keyManagement (client.store.trim name)) _ _ = _
  rw [TransitStore.trim_of_some found]
  rfl

/-- Every key that any run of a service has made retains an interval of versions that ends
at its latest one, and its minimum is between one and the latest.  So it always wraps, and
the text says its latest version and changes no key; it is always told about; its rotation
adds a version that was not there; its trimming takes away what is below the minimum; and
whatever is called afterwards, the interval moves up only. -/
theorem retained_interval {operations : List Operation}
    (current : client.store = TransitStore.run {} operations)
    (found : client.store.keys[name]? = some key)
    (few : rotations name {} operations < UInt32.size - 1) :
    ∃ first, key.Spans first ∧ key.latest ≤ TransitCiphertext.maxVersion ∧
      (∀ text, ∃ payload client', KeyService.wrap name text client =
          .ok ("vault:v" ++ toString key.latest ++ ":" ++ payload) client' ∧
        client'.store = client.store) ∧
      (∃ createdAt rotatedAt, client.store.info? name = some
        ⟨name, key.latest, key.minimum, key.latest - first + 1, createdAt, rotatedAt⟩) ∧
      (∃ version client', KeyService.rotate name client = .ok () client' ∧
        client'.store.keys[name]? = some { key with
          versions := key.versions ++ [version]
          latest := key.latest + 1 } ∧
        version.number = key.latest + 1 ∧ key.version? version.number = none) ∧
      (∃ client', trim name client = .ok (key.minimum - first) client' ∧
        client'.store.keys[name]? = some key.trim ∧
        key.trim.Spans (max first key.minimum)) ∧
      ∀ calls : List Call, ∃ key' first',
        (calls.foldl perform client).store.keys[name]? = some key' ∧
          key'.Spans first' ∧ first ≤ first' ∧ key.latest ≤ key'.latest := by
  have made := current ▸ found
  obtain ⟨first, spans, -⟩ := TransitStore.spans_of_run made
  refine ⟨first, spans, TransitStore.latest_le_maxVersion made few, fun text => ?wrap,
    TransitStore.info?_of_some found spans, ?rotate, ?trim, fun calls => ?later⟩
  case wrap =>
    obtain ⟨version, newest⟩ := spans.exists_version?_iff.mpr ⟨spans.first_le, Nat.le_refl _⟩
    obtain ⟨nonce, client', wrapped, kept⟩ := wrap_of_some found newest text
    obtain ⟨payload, form⟩ := TransitStore.exists_issued_eq newest
    exact ⟨payload, client', form ▸ wrapped, kept⟩
  case rotate =>
    refine ⟨_, _, rotate_of_some found, TransitStore.getElem?_put_self .., rfl, ?_⟩
    exact spans.version?_eq_none_iff.mpr (.inr (Nat.lt_succ_self _))
  case trim =>
    have trims := trim_of_some found
    rw [spans.length_versions_sub_trim] at trims
    exact ⟨_, trims, TransitStore.getElem?_put_self .., spans.trim⟩
  case later =>
    obtain ⟨after, -, run⟩ := exists_run client calls
    obtain ⟨key', first', found', spans', ahead, moved⟩ :=
      TransitStore.spans_of_run_of_some found spans after
    have up : first ≤ first' :=
      Nat.le_of_not_lt fun down => Nat.lt_irrefl first' ((moved first').mpr (.inl down))
    exact ⟨key', first', run ▸ found', spans', up, ahead⟩

theorem exists_client_of_run (operations : List Operation) :
    ∃ client : TransitClient, client.store = TransitStore.run {} operations :=
  ⟨⟨_, Entropy.ofSeed [], 0⟩, rfl⟩

/-- Of a key that was rotated and trimmed to its second version, this one is retained. -/
theorem retained_interval_trimmed :
    ∃ (client : TransitClient) (key : TransitKey), client.store = TransitStore.run {} [
        .createKey "a" ⟨List.replicate 32 7, rfl⟩ 0, .rotate "a" ⟨List.replicate 32 8, rfl⟩ 1,
        .setMinimum "a" 2, .trim "a"] ∧
      client.store.keys["a"]? = some key ∧ key.Spans 2 ∧
      (∃ payload client',
        KeyService.wrap "a" "hi" client = .ok ("vault:v2:" ++ payload) client') ∧
      (∃ createdAt rotatedAt,
        client.store.info? "a" = some ⟨"a", 2, 2, 1, createdAt, rotatedAt⟩) ∧
      ∃ client', trim "a" client = .ok 0 client' := by
  obtain ⟨client, current⟩ := exists_client_of_run [
    .createKey "a" ⟨List.replicate 32 7, rfl⟩ 0, .rotate "a" ⟨List.replicate 32 8, rfl⟩ 1,
    .setMinimum "a" 2, .trim "a"]
  have found : client.store.keys["a"]? = some ⟨[⟨2, ⟨List.replicate 32 8, rfl⟩, 1⟩], 2, 2⟩ := by
    rw [current, TransitStore.key_run, TransitStore.getElem?_empty]
    rfl
  obtain ⟨first, spans, -, wraps, told, -, ⟨client', trims, -⟩, -⟩ :=
    retained_interval current found
      (Nat.lt_of_le_of_lt (TransitStore.rotations_le_length ..) (by decide))
  obtain ⟨payload, wrapping, wrapped, -⟩ := wraps "hi"
  obtain rfl : first = 2 := by
    have length : 1 = 2 - first + 1 := spans.length_versions
    have below : first ≤ 2 := spans.first_le
    omega
  exact ⟨client, _, current, found, spans, ⟨payload, wrapping, wrapped⟩, told, client', trims⟩

end TransitClient

end KeyEnvelope
