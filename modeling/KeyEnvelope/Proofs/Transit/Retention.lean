import KeyEnvelope.Proofs.SealedData
import KeyEnvelope.Proofs.Transit.Ciphertext
import KeyEnvelope.Proofs.Transit.Client

/-!
# What a transit store retains

A version of a key stays what it was through every run, until a trimming while the
minimum is above it takes it away for good (`version?_of_run`).  So a text that was
wrapped unwraps as long as its version is neither below the minimum nor trimmed, and
never to another text (`unwrap_issued_of_run`).
-/

namespace KeyEnvelope

/-! ## Versions of one key -/

namespace TransitKey

variable {key : TransitKey} {number : Nat}

theorem number_of_version? {version : KeyVersion} (found : key.version? number = some version) :
    version.number = number :=
  of_decide_eq_true (List.find?_some (p := (decide <| KeyVersion.number · = number)) found)

theorem version?_rotate (known : number ≤ key.latest) (material : SealingKey) (createdAt : Nat) :
    (key.rotate material createdAt).version? number = key.version? number := by
  have new : ¬ key.latest + 1 = number := by omega
  unfold version? rotate
  rw [List.find?_append]
  simp [new]

theorem version?_trim (key : TransitKey) (number : Nat) :
    key.trim.version? number = if key.minimum ≤ number then key.version? number else none := by
  unfold version? trim
  dsimp only
  rw [List.find?_filter]
  split
  next allowed =>
    refine congrArg (List.find? · key.versions) (funext fun version => ?_)
    by_cases same : version.number = number <;> simp [same, allowed]
  next below =>
    refine List.find?_eq_none.mpr fun version _ both => below ?_
    simp only [decide_eq_true_eq] at both
    exact both.2 ▸ both.1

end TransitKey

namespace TransitStore

variable {store : TransitStore} {name : String} {key : TransitKey} {number : Nat}

/-- The smallest version of a key that may unwrap. -/
def minimum? (store : TransitStore) (name : String) : Option Nat :=
  store.keys[name]?.map (·.minimum)

/-- Whether a run trims a key while its minimum is above a version. -/
def Trimmed (name : String) (number : Nat) (store : TransitStore) (operations : List Operation) :
    Prop :=
  ∃ before after minimum, operations = before ++ .trim name :: after ∧
    (store.run before).minimum? name = some minimum ∧ number < minimum

@[simp] theorem not_trimmed_nil : ¬ Trimmed name number store [] := by
  intro trimmed
  rcases trimmed with ⟨before, after, minimum, split, -⟩
  cases (List.append_eq_nil_iff.mp split.symm).2

theorem trimmed_cons {operation : Operation} {operations : List Operation} :
    Trimmed name number store (operation :: operations) ↔
      (operation = .trim name ∧ ∃ minimum, store.minimum? name = some minimum ∧ number < minimum) ∨
        Trimmed name number (store.step operation) operations := by
  refine ⟨fun trimmed => ?_, fun trimmed => ?_⟩
  · rcases trimmed with ⟨before, after, minimum, split, bound, above⟩
    rcases List.cons_eq_append_iff.mp split with ⟨rfl, same⟩ | ⟨before', rfl, rest⟩
    · exact .inl ⟨(List.cons.inj same).1.symm, minimum, bound, above⟩
    · exact .inr ⟨before', after, minimum, rest, bound, above⟩
  · rcases trimmed with ⟨rfl, minimum, bound, above⟩ | ⟨before, after, minimum, rfl, bound, above⟩
    · exact ⟨[], operations, minimum, rfl, bound, above⟩
    · exact ⟨operation :: before, after, minimum, rfl, bound, above⟩

/-! ## Versions in a run -/

/-- An operation leaves a version as it is, unless it trims the version away. -/
theorem version?_of_changes {key' : TransitKey} {operation : Operation}
    (known : number ≤ key.latest) (changes : Changes name key operation key') :
    number ≤ key'.latest ∧
      (operation = .trim name ∧ number < key.minimum → key'.version? number = none) ∧
      (¬ (operation = .trim name ∧ number < key.minimum) →
        key'.version? number = key.version? number) := by
  cases changes with
  | kept _ other => exact ⟨known, fun both => absurd both.1 other, fun _ => rfl⟩
  | rotated material createdAt =>
    exact ⟨Nat.le_succ_of_le known, fun both => (by cases both.1), fun _ =>
      TransitKey.version?_rotate known material createdAt⟩
  | bounded _ _ => exact ⟨known, fun both => (by cases both.1), fun _ => rfl⟩
  | trimmed =>
    rw [TransitKey.version?_trim]
    refine ⟨known, fun both => if_neg (Nat.not_le.mpr both.2), fun spared => if_pos ?_⟩
    exact Nat.le_of_not_lt fun above => spared ⟨rfl, above⟩

/-- A run leaves a version as it is, unless it trims the version away. -/
theorem version?_of_run (found : store.keys[name]? = some key) (known : number ≤ key.latest)
    (operations : List Operation) :
    ∃ key', (store.run operations).keys[name]? = some key' ∧
      (Trimmed name number store operations → key'.version? number = none) ∧
      (¬ Trimmed name number store operations → key'.version? number = key.version? number) := by
  induction operations generalizing store key with
  | nil => exact ⟨key, found, fun trimmed => absurd trimmed not_trimmed_nil, fun _ => rfl⟩
  | cons operation operations ih =>
    obtain ⟨key₁, found₁, changes⟩ := exists_key_step found operation
    obtain ⟨known₁, gone, same⟩ := version?_of_changes known changes
    obtain ⟨key', found', later_gone, later_same⟩ := ih found₁ known₁
    have bound : store.minimum? name = some key.minimum := by rw [minimum?, found]; rfl
    have head : (operation = .trim name ∧ ∃ minimum, store.minimum? name = some minimum ∧
        number < minimum) ↔ operation = .trim name ∧ number < key.minimum := by
      simp [bound]
    rw [trimmed_cons, head]
    refine ⟨key', found', fun trimmed => ?_, fun spared => ?_⟩
    · rcases Classical.em (Trimmed name number (store.step operation) operations) with
        later | not_later
      · exact later_gone later
      · rw [later_same not_later]
        exact gone (trimmed.resolve_right not_later)
    · rw [later_same fun later => spared (.inr later)]
      exact same fun now => spared (.inl now)

/-! ## Wrapped texts -/

/-- The wrapped text that a version of the key of a name makes. -/
def issued (version : KeyVersion) (name : String) (nonce : Nonce) (text : String) : String :=
  TransitCiphertext.render ⟨version.number, (SealedData.ofPlaintext version.material nonce
    (Utf8.encode name) (Utf8.encode text)).toBase64.toList⟩

variable {version : KeyVersion} {nonce : Nonce} {text ciphertext : String}

/-- Wrapping is by the latest version of the key. -/
theorem wrap_of_some (found : store.keys[name]? = some key)
    (newest : key.version? key.latest = some version) (nonce : Nonce) (text : String) :
    store.wrap name nonce text = .ok (issued version name nonce text) := by
  unfold wrap
  rw [find_of_some found]
  dsimp only [bind, Except.bind]
  rw [newest]
  rfl

theorem wrap_eq_ok : store.wrap name nonce text = .ok ciphertext ↔
    ∃ key version, store.keys[name]? = some key ∧ key.version? key.latest = some version ∧
      ciphertext = issued version name nonce text := by
  refine ⟨fun wrapped => ?_, ?_⟩
  · cases found : store.keys[name]? with
    | none =>
      unfold wrap at wrapped
      rw [find_of_none found] at wrapped
      cases wrapped
    | some key =>
      cases newest : key.version? key.latest with
      | none =>
        unfold wrap at wrapped
        rw [find_of_some found] at wrapped
        dsimp only [bind, Except.bind] at wrapped
        rw [newest] at wrapped
        cases wrapped
      | some version =>
        rw [wrap_of_some found newest] at wrapped
        exact ⟨key, version, rfl, newest, (Except.ok.inj wrapped).symm⟩
  · intro ⟨key, version, found, newest, issue⟩
    rw [wrap_of_some found newest, issue]

/-- What the latest version of a key makes names it in its plain spelling. -/
theorem exists_issued_eq (newest : key.version? key.latest = some version) :
    ∃ payload, issued version name nonce text =
      "vault:v" ++ toString key.latest ++ ":" ++ payload := by
  rw [issued, TransitCiphertext.render_eq, TransitKey.number_of_version? newest]
  exact ⟨_, rfl⟩

theorem exists_eq_of_wrap (wrapped : store.wrap name nonce text = .ok ciphertext) :
    ∃ key payload, store.keys[name]? = some key ∧
      ciphertext = "vault:v" ++ toString key.latest ++ ":" ++ payload := by
  obtain ⟨key, version, found, newest, rfl⟩ := wrap_eq_ok.mp wrapped
  obtain ⟨payload, form⟩ := exists_issued_eq newest
  exact ⟨key, payload, found, form⟩

section

variable {payload : List Char} (found : store.keys[name]? = some key)
  (parsed : TransitCiphertext.parse ciphertext = .ok ⟨number, payload⟩)

include found parsed

theorem unwrap_of_lt_minimum (below : number < key.minimum) :
    store.unwrap name ciphertext = .error (.versionBelowMinimum name number key.minimum) := by
  unfold unwrap
  rw [parsed, find_of_some found]
  exact if_pos below

theorem unwrap_of_none (allowed : key.minimum ≤ number) (missing : key.version? number = none) :
    store.unwrap name ciphertext = .error (.versionMissing name number) := by
  unfold unwrap
  rw [parsed, find_of_some found]
  dsimp only [bind, Except.bind]
  rw [if_neg (Nat.not_lt.mpr allowed), missing]
  rfl

/-- What is read of a wrapped text is opened by the version that it names. -/
theorem unwrap_of_some (allowed : key.minimum ≤ number)
    (retained : key.version? number = some version) :
    store.unwrap name ciphertext =
      SealedData.ofBase64 (String.ofList payload) >>= fun data =>
        data.plaintext version.material (Utf8.encode name) >>= fun plaintext =>
          (Utf8.decode plaintext).mapError fun _ => .unwrappedNotText := by
  unfold unwrap
  rw [parsed, find_of_some found]
  dsimp only [bind, Except.bind]
  rw [if_neg (Nat.not_lt.mpr allowed), retained]

end

theorem parse_issued (fits : version.number ≤ TransitCiphertext.maxVersion) :
    TransitCiphertext.parse (issued version name nonce text) =
      .ok ⟨version.number, (SealedData.ofPlaintext version.material nonce (Utf8.encode name)
        (Utf8.encode text)).toBase64.toList⟩ :=
  TransitCiphertext.parse_render fits

/-- A version that is retained and not below the minimum unwraps what it has made. -/
theorem unwrap_issued (found : store.keys[name]? = some key)
    (fits : version.number ≤ TransitCiphertext.maxVersion) (allowed : key.minimum ≤ version.number)
    (retained : key.version? version.number = some version) :
    store.unwrap name (issued version name nonce text) = .ok text := by
  rw [unwrap_of_some found (parse_issued fits) allowed retained, String.ofList_toList,
    SealedData.ofBase64_ofPlaintext]
  change SealedData.plaintext .. >>= _ = _
  rw [SealedData.plaintext_ofPlaintext]
  change (Utf8.decode (Utf8.encode text)).mapError _ = _
  rw [Utf8.decode_encode]
  rfl

/-- A version that is below the minimum or not retained unwraps nothing. -/
theorem unwrap_issued_refused (found : store.keys[name]? = some key)
    (fits : version.number ≤ TransitCiphertext.maxVersion)
    (refused : version.number < key.minimum ∨ key.version? version.number = none) :
    ∃ cause, store.unwrap name (issued version name nonce text) = .error cause := by
  rcases Nat.lt_or_ge version.number key.minimum with below | allowed
  · exact ⟨_, unwrap_of_lt_minimum found (parse_issued fits) below⟩
  · have missing := refused.resolve_left (Nat.not_lt.mpr allowed)
    exact ⟨_, unwrap_of_none found (parse_issued fits) allowed missing⟩

/-- What a run does to a wrapped text: it unwraps to what was wrapped, unless its version
is below the minimum or was trimmed, and then to nothing. -/
theorem unwrap_issued_of_run (found : store.keys[name]? = some key)
    (retained : key.version? version.number = some version) (known : version.number ≤ key.latest)
    (fits : version.number ≤ TransitCiphertext.maxVersion) (nonce : Nonce) (text : String)
    (operations : List Operation) :
    ∃ minimum, (store.run operations).minimum? name = some minimum ∧
      (minimum ≤ version.number ∧ ¬ Trimmed name version.number store operations →
        (store.run operations).unwrap name (issued version name nonce text) = .ok text) ∧
      (¬ (minimum ≤ version.number ∧ ¬ Trimmed name version.number store operations) →
        ∃ cause, (store.run operations).unwrap name (issued version name nonce text) =
          .error cause) := by
  obtain ⟨key', found', gone, same⟩ := version?_of_run found known operations
  have bound : (store.run operations).minimum? name = some key'.minimum := by
    rw [minimum?, found']
    rfl
  refine ⟨key'.minimum, bound, fun allowed => ?_, fun refused => ?_⟩
  · exact unwrap_issued found' fits allowed.1 ((same allowed.2).trans retained)
  · refine unwrap_issued_refused found' fits ?_
    rcases Nat.lt_or_ge version.number key'.minimum with below | not_below
    · exact .inl below
    · rcases Classical.em (Trimmed name version.number store operations) with trimmed | spared
      · exact .inr (gone trimmed)
      · exact absurd ⟨not_below, spared⟩ refused

/-- The latest version of a key that has not been rotated too often can be named by a
wrapped text. -/
theorem latest_le_maxVersion {operations : List Operation}
    (found : (run {} operations).keys[name]? = some key)
    (few : rotations name {} operations < UInt32.size - 1) :
    key.latest ≤ TransitCiphertext.maxVersion := by
  have latest := latestOrFirst_run {} name operations
  rw [latestOrFirst_of_some found, latestOrFirst_of_none (getElem?_empty name)] at latest
  rw [TransitCiphertext.maxVersion]
  omega

/-- After a text was wrapped at the end of one run and another run went by, unwrapping
yields the text exactly if its version is not below the minimum by then and the second
run did not trim it away; otherwise unwrapping is refused. -/
theorem unwrap_of_wrap {before after : List Operation} {client client' later : TransitClient}
    (issuing : client.store = run {} before)
    (wrapped : KeyService.wrap name text client = .ok ciphertext client')
    (current : later.store = run {} (before ++ after))
    (few : rotations name {} (before ++ after) < UInt32.size - 1) :
    ∃ latest minimum, client.store.latestVersion? name = some latest ∧
      later.store.minimum? name = some minimum ∧
      (KeyService.unwrap name ciphertext later = .ok text later ↔
        minimum ≤ latest ∧ ¬ Trimmed name latest client.store after) ∧
      (¬ (minimum ≤ latest ∧ ¬ Trimmed name latest client.store after) →
        ∃ cause, KeyService.unwrap name ciphertext later =
          .error (.keyManagement cause) later) := by
  rcases TransitClient.wrap_eq_ok wrapped with ⟨nonce, wrapped⟩
  rcases wrap_eq_ok.mp wrapped with ⟨key, version, found, newest, rfl⟩
  have number := TransitKey.number_of_version? newest
  rw [rotations_append] at few
  have fits : key.latest ≤ TransitCiphertext.maxVersion :=
    latest_le_maxVersion (issuing ▸ found) (by omega)
  rw [run_append, ← issuing] at current
  rw [← number] at newest fits
  obtain ⟨minimum, bound, allowed, refused⟩ :=
    unwrap_issued_of_run found newest (Nat.le_of_eq number) fits nonce text after
  have latest : client.store.latestVersion? name = some version.number := by
    rw [latestVersion?, found, number]
    rfl
  rw [TransitClient.unwrap_eq, current]
  refine ⟨version.number, minimum, latest, bound, ⟨fun unwrapped => ?_, fun ok => ?_⟩, ?_⟩
  · refine Classical.byContradiction fun not => ?_
    obtain ⟨cause, failed⟩ := refused not
    rw [failed] at unwrapped
    cases unwrapped
  · rw [allowed ok]
  · intro not
    obtain ⟨cause, failed⟩ := refused not
    exact ⟨cause, by rw [failed]⟩

theorem unwrap_of_wrap_rotated :
    ∃ (client later : TransitClient) (ciphertext : String) (client' : TransitClient),
      client.store = run {} [.createKey "a" ⟨List.replicate 32 7, rfl⟩ 0] ∧
      later.store = run {} [.createKey "a" ⟨List.replicate 32 7, rfl⟩ 0,
        .rotate "a" ⟨List.replicate 32 8, rfl⟩ 1] ∧
      KeyService.wrap "a" "key" client = .ok ciphertext client' ∧
      KeyService.unwrap "a" ciphertext later = .ok "key" later := by
  obtain ⟨client, issuing⟩ : ∃ client : TransitClient,
      client.store = run {} [.createKey "a" ⟨List.replicate 32 7, rfl⟩ 0] :=
    ⟨⟨_, Entropy.ofSeed [], 1⟩, rfl⟩
  obtain ⟨later, current⟩ : ∃ later : TransitClient,
      later.store = run {} ([.createKey "a" ⟨List.replicate 32 7, rfl⟩ 0] ++
        [.rotate "a" ⟨List.replicate 32 8, rfl⟩ 1]) :=
    ⟨⟨_, Entropy.ofSeed [], 2⟩, rfl⟩
  have created : client.store.keys["a"]? =
      some (.create ⟨List.replicate 32 7, rfl⟩ 0) := by
    rw [issuing, run_cons, run, List.foldl_nil, key_step, getElem?_empty]
    rfl
  have rotated : later.store.keys["a"]? = some (TransitKey.rotate
      (.create ⟨List.replicate 32 7, rfl⟩ 0) ⟨List.replicate 32 8, rfl⟩ 1) := by
    rw [current, run_append, ← issuing, run_cons, run, List.foldl_nil, key_step, created]
    rfl
  obtain ⟨ciphertext, client', wrapped⟩ : ∃ ciphertext client',
      KeyService.wrap "a" "key" client = .ok ciphertext client' :=
    ⟨_, _, attempt_eq_ok.mpr ⟨wrap_eq_ok.mpr ⟨_, _, created, rfl, rfl⟩, rfl⟩⟩
  obtain ⟨latest, minimum, newest, bound, unwraps, -⟩ := unwrap_of_wrap issuing wrapped current
    (Nat.lt_of_le_of_lt (rotations_le_length ..) (by decide))
  rw [latestVersion?, created] at newest
  rw [minimum?, rotated] at bound
  cases newest
  cases bound
  refine ⟨client, later, ciphertext, client', issuing, current, wrapped,
    unwraps.mpr ⟨by decide, ?_⟩⟩
  simp [trimmed_cons]

end TransitStore

end KeyEnvelope
