import KeyEnvelope.Proofs.Transit.Interval

/-!
# What calls leave alone

An operation touches the key of one name.  So operations on different names commute
(`TransitStore.step_comm`), and what a run makes of the key of a name is the work of its
operations on that name alone (`TransitStore.foldl_keyStep_filter`).  Which material a call
draws depends on the calls before it; of a key without its material the same holds of calls
(`TransitClient.outline?_calls_filter`).  A call that fails changes no key at all
(`TransitClient.store_of_failure`).

Nothing here is about the numbers of versions.  That one name is touched, and none by a call
that fails, is seen from where an operation stores a key, whatever key it stores there.  So
there is no bound on rotations, and it makes no difference how versions are counted.
-/

namespace KeyEnvelope

namespace TransitStore

/-- The name whose key an operation is about. -/
def Operation.name : Operation → String
  | .createKey name _ _ => name
  | .wrap name _ _ => name
  | .unwrap name _ => name
  | .rotate name _ _ => name
  | .setMinimum name _ => name
  | .trim name => name

/-! ## Keys of other names -/

theorem keyStep_of_ne {name : String} {operation : Operation} (apart : operation.name ≠ name)
    (key : Option TransitKey) : keyStep name key operation = key := by
  cases operation with
  | wrap _ _ _ => rfl
  | unwrap _ _ => rfl
  | createKey _ _ _ => exact if_neg apart
  | rotate _ _ _ => exact if_neg apart
  | setMinimum _ _ => exact if_neg apart
  | trim _ => exact if_neg apart

/-- The key of a name comes about by the operations on this name. -/
theorem foldl_keyStep_filter (name : String) (key : Option TransitKey)
    (operations : List Operation) :
    operations.foldl (keyStep name) key =
      (operations.filter (·.name = name)).foldl (keyStep name) key := by
  induction operations generalizing key with
  | nil => rfl
  | cons operation operations ih =>
    rw [List.foldl_cons, ih, List.filter_cons]
    split
    next => rfl
    next foreign => rw [keyStep_of_ne fun same => foreign (decide_eq_true same)]

/-- Stores in which every name has the same key are the same. -/
theorem ext_getElem? {store store' : TransitStore}
    (same : ∀ name : String, store.keys[name]? = store'.keys[name]?) : store = store' :=
  congrArg mk (Std.ExtTreeMap.ext_getElem? same)

/-- Operations on the keys of different names commute. -/
theorem step_comm (store : TransitStore) {first second : Operation}
    (apart : first.name ≠ second.name) :
    (store.step first).step second = (store.step second).step first := by
  refine ext_getElem? fun name => ?_
  simp only [key_step]
  rcases Decidable.em (first.name = name) with rfl | foreign
  · rw [keyStep_of_ne apart.symm, keyStep_of_ne apart.symm]
  · rw [keyStep_of_ne foreign, keyStep_of_ne foreign]

end TransitStore

/-! ## Keys without their material -/

/-- Material that says nothing. -/
def blankMaterial : SealingKey :=
  ⟨List.replicate sealingKeySize 0, List.length_replicate⟩

/-- A version without what was drawn for it and read off a clock. -/
def KeyVersion.outline (version : KeyVersion) : KeyVersion :=
  ⟨version.number, blankMaterial, 0⟩

/-- A key without what was drawn for it and read off a clock: the numbers of its versions,
the latest one and the minimum are left. -/
def TransitKey.outline (key : TransitKey) : TransitKey :=
  { key with versions := key.versions.map (·.outline) }

namespace TransitClient

open TransitStore (Operation keyStep)

/-- The name whose key a call is about. -/
def Call.name : Call → String
  | .createKey name => name
  | .wrap name _ => name
  | .unwrap name _ => name
  | .rotate name => name
  | .setMinimum name _ => name
  | .trim name => name

/-- The operation that comes of a call if nothing is drawn. -/
def Call.outline : Call → Operation
  | .createKey name => .createKey name blankMaterial 0
  | .wrap name text => .wrap name ⟨List.replicate nonceSize 0, List.length_replicate⟩ text
  | .unwrap name ciphertext => .unwrap name ciphertext
  | .rotate name => .rotate name blankMaterial 0
  | .setMinimum name version => .setMinimum name version
  | .trim name => .trim name

theorem name_callOf (operation : Operation) : (callOf operation).name = operation.name := by
  cases operation <;> rfl

theorem name_outline (call : Call) : call.outline.name = call.name := by
  cases call <;> rfl

end TransitClient

namespace TransitKey

theorem outline_rotate (key : TransitKey) (material : SealingKey) (createdAt : Nat) :
    (key.rotate material createdAt).outline = key.outline.rotate blankMaterial 0 := by
  unfold rotate outline
  rw [List.map_append]
  rfl

theorem outline_trim (key : TransitKey) : key.trim.outline = key.outline.trim := by
  unfold trim outline
  rw [List.filter_map]
  rfl

end TransitKey

namespace TransitStore

open TransitClient (callOf)

/-- The key of a name without its material. -/
def outline? (store : TransitStore) (name : String) : Option TransitKey :=
  store.keys[name]?.map (·.outline)

/-- A change of the key of one name shows in its outline as a change of that. -/
theorem outline_change {own : Prop} [Decidable own] {change change' : TransitKey → TransitKey}
    (shows : ∀ key, (change key).outline = change' key.outline) (key : Option TransitKey) :
    (if own then key.map change else key).map (·.outline) =
      if own then (key.map (·.outline)).map change' else key.map (·.outline) := by
  rw [apply_ite (Option.map TransitKey.outline), Option.map_map, Option.map_map]
  exact congrArg (fun changed => if own then Option.map changed key else _) (funext shows)

/-- What an operation makes of the outline of a key can be told from its call. -/
theorem outline_keyStep (name : String) (key : Option TransitKey) (operation : Operation) :
    (keyStep name key operation).map (·.outline) =
      keyStep name (key.map (·.outline)) (callOf operation).outline := by
  cases operation with
  | wrap _ _ _ => rfl
  | unwrap _ _ => rfl
  | createKey other material createdAt =>
    refine (apply_ite (Option.map TransitKey.outline) ..).trans ?_
    cases key <;> rfl
  | rotate other material createdAt =>
    exact outline_change (fun key => key.outline_rotate material createdAt) key
  | setMinimum other version =>
    refine outline_change (fun key => ?_) key
    exact apply_ite TransitKey.outline ..
  | trim other => exact outline_change TransitKey.outline_trim key

/-- What a run makes of the outline of a key can be told from its calls. -/
theorem outline?_run (store : TransitStore) (operations : List Operation) (name : String) :
    (store.run operations).outline? name =
      ((operations.map callOf).map (·.outline)).foldl (keyStep name) (store.outline? name) := by
  rw [outline?, outline?, key_run]
  generalize store.keys[name]? = key
  induction operations generalizing key with
  | nil => rfl
  | cons operation operations ih =>
    rw [List.foldl_cons, ih, outline_keyStep]
    rfl

/-- Runs of the same calls give every key the same outline, whatever is drawn. -/
theorem outline?_run_congr {operations operations' : List Operation}
    (same : operations.map callOf = operations'.map callOf) (store : TransitStore) (name : String) :
    (store.run operations).outline? name = (store.run operations').outline? name := by
  rw [outline?_run, outline?_run, same]

end TransitStore

/-! ## Calls -/

namespace TransitClient

open TransitStore (Operation)

variable {client : TransitClient}

/-- The failure that an outcome is. -/
def outcomeFailure? {α : Type} :
    EStateM.Result EnvelopeError TransitClient α → Option EnvelopeError
  | .ok _ _ => none
  | .error cause _ => some cause

/-- The failure that a call ends in. -/
def failure? (client : TransitClient) : Call → Option EnvelopeError
  | .createKey name => outcomeFailure? (KeyService.createKey name client)
  | .wrap name text => outcomeFailure? (KeyService.wrap name text client)
  | .unwrap name ciphertext => outcomeFailure? (KeyService.unwrap name ciphertext client)
  | .rotate name => outcomeFailure? (KeyService.rotate name client)
  | .setMinimum name version => outcomeFailure? (setMinimum name version client)
  | .trim name => outcomeFailure? (trim name client)

theorem store_wrap (client : TransitClient) (name text : String) :
    (client.perform (.wrap name text)).store = client.store := by
  obtain ⟨operation, same, step⟩ := exists_step client (.wrap name text)
  cases operation <;> cases same
  exact step

theorem perform_unwrap (client : TransitClient) (name ciphertext : String) :
    client.perform (.unwrap name ciphertext) = client := by
  rw [perform, unwrap_eq]
  cases client.store.unwrap name ciphertext <;> rfl

/-- What can fail only before it begins to change the service leaves it as it is when it
fails. -/
theorem outcomeState_of_failure {α β : Type} {outcome : Except KeyManagementError α}
    {rest : α → EStateM EnvelopeError TransitClient β} {cause : EnvelopeError}
    (total : ∀ value client, outcomeFailure? (rest value client) = none)
    (failed : outcomeFailure? ((attempt .keyManagement outcome >>= rest) client) = some cause) :
    outcomeState ((attempt .keyManagement outcome >>= rest) client) = client := by
  cases outcome with
  | error cause => rfl
  | ok value => cases (total value client).symm.trans failed

/-- A call that fails leaves every key as it was. -/
theorem store_of_failure {call : Call} {cause : EnvelopeError}
    (failed : client.failure? call = some cause) : (client.perform call).store = client.store := by
  cases call with
  | createKey name => cases failed
  | wrap name text => exact store_wrap client name text
  | unwrap name ciphertext => rw [perform_unwrap]
  | rotate name =>
    -- What was drawn before the failure is not part of the store.
    have kept := congrArg store (outcomeState_of_failure (fun _ _ => rfl) failed)
    exact kept
  | setMinimum name version =>
    exact congrArg store (outcomeState_of_failure (fun _ _ => rfl) failed)
  | trim name => exact congrArg store (outcomeState_of_failure (fun _ _ => rfl) failed)

/-- A call on one name leaves the keys of all others as they were. -/
theorem getElem?_perform_of_ne {call : Call} {name : String} (apart : call.name ≠ name) :
    (client.perform call).store.keys[name]? = client.store.keys[name]? := by
  obtain ⟨operation, rfl, step⟩ := exists_step client call
  rw [name_callOf] at apart
  rw [step, TransitStore.key_step, TransitStore.keyStep_of_ne apart]

/-- Calls on other names leave the key of a name as it was. -/
theorem getElem?_calls_of_ne {calls : List Call} {name : String}
    (apart : ∀ call ∈ calls, call.name ≠ name) :
    (calls.foldl perform client).store.keys[name]? = client.store.keys[name]? := by
  induction calls generalizing client with
  | nil => rfl
  | cons call calls ih =>
    rw [List.foldl_cons, ih fun call member => apart call (List.mem_cons_of_mem _ member),
      getElem?_perform_of_ne (apart call List.mem_cons_self)]

/-- But for its material, the key of a name comes about by the calls on this name. -/
theorem outline?_calls_filter (client : TransitClient) (calls : List Call) (name : String) :
    (calls.foldl perform client).store.outline? name =
      ((calls.filter (·.name = name)).foldl perform client).store.outline? name := by
  obtain ⟨operations, same, run⟩ := exists_run client calls
  obtain ⟨own, same', run'⟩ := exists_run client (calls.filter (·.name = name))
  rw [run, run', TransitStore.outline?_run, TransitStore.outline?_run, same, same',
    TransitStore.foldl_keyStep_filter, List.filter_map]
  simp only [Function.comp_def, name_outline]

/-- Two calls, one after the other, come to the same in both orders, save for what they
draw: either order does to the store what operations of the calls do to it, in any order
of these, and leaves every key with the same outline. -/
structure CommuteUpToDraws (client : TransitClient) (first second : Call) : Prop where
  drawn : ∃ first₁ first₂ second₁ second₂ : Operation,
    callOf first₁ = first ∧ callOf first₂ = first ∧
    callOf second₁ = second ∧ callOf second₂ = second ∧
    ((client.perform first).perform second).store =
      (client.store.step first₁).step second₁ ∧
    ((client.perform second).perform first).store =
      (client.store.step first₂).step second₂
  outline : ∀ name, ((client.perform first).perform second).store.outline? name =
    ((client.perform second).perform first).store.outline? name

/-- Calls on different names commute. -/
theorem commute_of_ne (client : TransitClient) {first second : Call}
    (apart : first.name ≠ second.name) : client.CommuteUpToDraws first second := by
  obtain ⟨first₁, isFirst₁, step₁⟩ := exists_step client first
  obtain ⟨second₁, isSecond₁, later₁⟩ := exists_step (client.perform first) second
  obtain ⟨second₂, isSecond₂, step₂⟩ := exists_step client second
  obtain ⟨first₂, isFirst₂, later₂⟩ := exists_step (client.perform second) first
  have apart₂ : second₂.name ≠ first₂.name := by
    rw [← name_callOf, ← name_callOf, isFirst₂, isSecond₂]
    exact apart.symm
  rw [step₁] at later₁
  rw [step₂, TransitStore.step_comm _ apart₂] at later₂
  refine ⟨⟨first₁, first₂, second₁, second₂, isFirst₁, isFirst₂, isSecond₁, isSecond₂, later₁,
    later₂⟩, fun name => ?_⟩
  have alike : [first₁, second₁].map callOf = [first₂, second₂].map callOf := by
    simp only [List.map_cons, isFirst₁, isFirst₂, isSecond₁, isSecond₂]
  rw [later₁, later₂]
  exact TransitStore.outline?_run_congr alike client.store name

/-- A call that fails, a wrapping and an unwrapping, and the creation of a key that exists
change no key; a call changes no key but the one of its name, however many there are; and
calls on different names commute, save for what they draw. -/
theorem keys_left_alone (client : TransitClient) :
    (∀ call cause, client.failure? call = some cause →
      (client.perform call).store = client.store) ∧
    (∀ name text, (client.perform (.wrap name text)).store = client.store) ∧
    (∀ name ciphertext, (client.perform (.unwrap name ciphertext)).store = client.store) ∧
    (∀ name ∈ client.store.keys, client.failure? (.createKey name) = none ∧
      (client.perform (.createKey name)).store = client.store) ∧
    (∀ (name : String) (calls : List Call), (∀ call ∈ calls, call.name ≠ name) →
      (calls.foldl perform client).store.keys[name]? = client.store.keys[name]?) ∧
    (∀ (name : String) (calls : List Call), (calls.foldl perform client).store.outline? name =
      ((calls.filter (·.name = name)).foldl perform client).store.outline? name) ∧
    (∀ first second : Operation, first.name ≠ second.name →
      (client.store.step first).step second = (client.store.step second).step first) ∧
    ∀ first second : Call, first.name ≠ second.name → client.CommuteUpToDraws first second := by
  refine ⟨fun call cause => store_of_failure, store_wrap client, fun name ciphertext => ?_,
    fun name known => ⟨rfl, if_pos known⟩, fun name calls => getElem?_calls_of_ne,
    fun name calls => outline?_calls_filter client calls name,
    fun first second => TransitStore.step_comm client.store,
    fun first second => commute_of_ne client⟩
  rw [perform_unwrap]

/-- A key that exists, beside calls on a name that does not. -/
theorem keys_left_alone_two_names :
    ∃ client : TransitClient,
      client.store = TransitStore.run {} [.createKey "a" ⟨List.replicate 32 7, rfl⟩ 0] ∧
      client.failure? (.rotate "b") = some (.keyManagement (.keyNotFound "b")) ∧
      (client.perform (.rotate "b")).store = client.store ∧
      (client.perform (.createKey "a")).store = client.store ∧
      ([.createKey "b", .rotate "b"].foldl perform client).store.keys["a"]? =
        some (.create ⟨List.replicate 32 7, rfl⟩ 0) ∧
      client.CommuteUpToDraws (.rotate "a") (.createKey "b") := by
  obtain ⟨client, current⟩ :=
    exists_client_of_run [.createKey "a" ⟨List.replicate 32 7, rfl⟩ 0]
  have found : client.store.keys["a"]? = some (.create ⟨List.replicate 32 7, rfl⟩ 0) := by
    rw [current, TransitStore.key_run, TransitStore.getElem?_empty]
    rfl
  have missing : client.store.keys["b"]? = none := by
    rw [current, TransitStore.key_run, TransitStore.getElem?_empty]
    rfl
  have fails : client.failure? (.rotate "b") = some (.keyManagement (.keyNotFound "b")) := by
    change outcomeFailure? ((attempt .keyManagement (client.store.rotate "b" _ _) >>= _) _) = _
    rw [TransitStore.rotate_of_none missing]
    rfl
  obtain ⟨failed, -, -, created, apart, -, -, commute⟩ := keys_left_alone client
  refine ⟨client, current, fails, failed _ _ fails,
    (created "a" (TransitStore.mem_keys_of_some found)).2, ?_, commute _ _ (by decide)⟩
  exact (apart "a" [.createKey "b", .rotate "b"] (by decide)).trans found

end TransitClient

end KeyEnvelope
