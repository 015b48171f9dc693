import KeyEnvelope.Transit.Store

/-!
# Runs of a transit store

A run takes a store through operations in any order, with everything that is drawn or
read off a clock as part of the operation; an operation that fails leaves the store as
it was.  The key of a name goes through a run on its own (`key_step`): operations on
other names do not touch it, and on it each operation does one of four things
(`exists_changes`).
-/

namespace KeyEnvelope.TransitStore

/-- What can be asked of a store, with what is drawn for it. -/
inductive Operation
  | createKey (name : String) (material : SealingKey) (createdAt : Nat)
  | wrap (name : String) (nonce : Nonce) (text : String)
  | unwrap (name ciphertext : String)
  | rotate (name : String) (material : SealingKey) (createdAt : Nat)
  | setMinimum (name : String) (version : Nat)
  | trim (name : String)
  deriving DecidableEq

/-- The store after an operation. -/
def step (store : TransitStore) : Operation → TransitStore
  | .createKey name material createdAt => store.createKey name material createdAt
  | .wrap _ _ _ => store
  | .unwrap _ _ => store
  | .rotate name material createdAt =>
    match store.rotate name material createdAt with
    | .ok store' => store'
    | .error _ => store
  | .setMinimum name version =>
    match store.setMinimum name version with
    | .ok store' => store'
    | .error _ => store
  | .trim name =>
    match store.trim name with
    | .ok (_, store') => store'
    | .error _ => store

/-- The store after operations one after the other. -/
def run (store : TransitStore) (operations : List Operation) : TransitStore :=
  operations.foldl step store

theorem run_cons (store : TransitStore) (operation : Operation) (operations : List Operation) :
    store.run (operation :: operations) = (store.step operation).run operations :=
  rfl

theorem run_append (store : TransitStore) (before after : List Operation) :
    store.run (before ++ after) = (store.run before).run after :=
  List.foldl_append

/-! ## One key -/

/-- What an operation does to the key of a name, if there is one. -/
def keyStep (name : String) (key : Option TransitKey) : Operation → Option TransitKey
  | .createKey other material createdAt =>
    if other = name then some (key.getD (.create material createdAt)) else key
  | .rotate other material createdAt =>
    if other = name then key.map (·.rotate material createdAt) else key
  | .setMinimum other version =>
    if other = name then
      key.map fun key =>
        if version = 0 ∨ key.latest < version then key else { key with minimum := version }
    else key
  | .trim other => if other = name then key.map (·.trim) else key
  | _ => key

variable {store : TransitStore} {name other : String} {key : TransitKey}

theorem getElem?_empty (name : String) : ({} : TransitStore).keys[name]? = none :=
  Std.ExtTreeMap.getElem?_empty

theorem find_of_some (found : store.keys[name]? = some key) : store.find name = .ok key := by
  rw [find, found]

theorem find_of_none (missing : store.keys[name]? = none) :
    store.find name = .error (.keyNotFound name) := by
  rw [find, missing]

theorem mem_keys_of_some (found : store.keys[name]? = some key) : name ∈ store.keys := by
  rw [Std.ExtTreeMap.mem_iff_isSome_getElem?, found]
  rfl

theorem notMem_keys_of_none (missing : store.keys[name]? = none) : name ∉ store.keys := by
  rw [Std.ExtTreeMap.mem_iff_isSome_getElem?, missing]
  exact Bool.false_ne_true

theorem rotate_of_some (found : store.keys[name]? = some key) (material : SealingKey)
    (createdAt : Nat) : store.rotate name material createdAt =
      .ok (store.put name (key.rotate material createdAt)) := by
  rw [rotate, find_of_some found]
  rfl

theorem rotate_of_none (missing : store.keys[name]? = none) (material : SealingKey)
    (createdAt : Nat) : store.rotate name material createdAt = .error (.keyNotFound name) := by
  rw [rotate, find_of_none missing]
  rfl

theorem setMinimum_of_some (found : store.keys[name]? = some key) (version : Nat) :
    store.setMinimum name version =
      if version = 0 ∨ key.latest < version then .error (.minimumOutside version key.latest)
      else .ok (store.put name { key with minimum := version }) := by
  rw [setMinimum, find_of_some found]
  change (if _ then _ else _) = _
  split <;> rfl

theorem setMinimum_of_none (missing : store.keys[name]? = none) (version : Nat) :
    store.setMinimum name version = .error (.keyNotFound name) := by
  rw [setMinimum, find_of_none missing]
  rfl

theorem trim_of_some (found : store.keys[name]? = some key) :
    store.trim name =
      .ok (key.versions.length - key.trim.versions.length, store.put name key.trim) := by
  rw [trim, find_of_some found]
  rfl

theorem trim_of_none (missing : store.keys[name]? = none) :
    store.trim name = .error (.keyNotFound name) := by
  rw [trim, find_of_none missing]
  rfl

theorem getElem?_put (store : TransitStore) (name other : String) (key : TransitKey) :
    (store.put other key).keys[name]? = if other = name then some key else store.keys[name]? := by
  rw [put, Std.ExtTreeMap.getElem?_insert]
  simp only [Std.LawfulEqCmp.compare_eq_iff_eq]

theorem getElem?_put_change (change : TransitKey → TransitKey)
    (found : store.keys[other]? = some key) (name : String) :
    (store.put other (change key)).keys[name]? =
      if other = name then store.keys[name]?.map change else store.keys[name]? := by
  rw [getElem?_put]
  split
  next same => rw [← same, found]; rfl
  next => rfl

/-- Where there is no key, there is nothing to change. -/
theorem getElem?_of_none (change : TransitKey → TransitKey) (missing : store.keys[other]? = none)
    (name : String) : store.keys[name]? =
      if other = name then store.keys[name]?.map change else store.keys[name]? := by
  split
  next same => rw [← same, missing]; rfl
  next => rfl

/-- A change that a key is not affected by can be left out. -/
theorem getElem?_of_fixed {change : TransitKey → TransitKey}
    (found : store.keys[other]? = some key) (fixed : change key = key) (name : String) :
    store.keys[name]? =
      if other = name then store.keys[name]?.map change else store.keys[name]? := by
  split
  next same => rw [← same, found, Option.map_some, fixed]
  next => rfl

/-- What an operation does to the key of a name depends on this key alone. -/
theorem key_step (store : TransitStore) (operation : Operation) (name : String) :
    (store.step operation).keys[name]? = keyStep name store.keys[name]? operation := by
  cases operation with
  | wrap _ _ _ => rfl
  | unwrap _ _ => rfl
  | createKey other material createdAt =>
    rw [step, createKey, keyStep]
    cases found : store.keys[other]? with
    | some key =>
      rw [if_pos (mem_keys_of_some found)]
      split
      next same => rw [← same, found]; rfl
      next => rfl
    | none =>
      rw [if_neg (notMem_keys_of_none found), getElem?_put]
      split
      next same => rw [← same, found]; rfl
      next => rfl
  | rotate other material createdAt =>
    rw [keyStep]
    cases found : store.keys[other]? with
    | some key =>
      rw [step, rotate_of_some found]
      exact getElem?_put_change (·.rotate material createdAt) found name
    | none =>
      rw [step, rotate_of_none found]
      exact getElem?_of_none _ found name
  | setMinimum other version =>
    rw [keyStep]
    cases found : store.keys[other]? with
    | some key =>
      rw [step, setMinimum_of_some found]
      by_cases outside : version = 0 ∨ key.latest < version
      · rw [if_pos outside]
        refine getElem?_of_fixed found ?_ name
        exact if_pos outside
      · rw [if_neg outside]
        have changed := getElem?_put_change (fun key =>
          if version = 0 ∨ key.latest < version then key else { key with minimum := version })
          found name
        rwa [if_neg outside] at changed
    | none =>
      rw [step, setMinimum_of_none found]
      exact getElem?_of_none _ found name
  | trim other =>
    rw [keyStep]
    cases found : store.keys[other]? with
    | some key =>
      rw [step, trim_of_some found]
      exact getElem?_put_change TransitKey.trim found name
    | none =>
      rw [step, trim_of_none found]
      exact getElem?_of_none _ found name

/-- What a run does to the key of a name depends on this key alone. -/
theorem key_run (store : TransitStore) (operations : List Operation) (name : String) :
    (store.run operations).keys[name]? = operations.foldl (keyStep name) store.keys[name]? := by
  induction operations generalizing store with
  | nil => rfl
  | cons operation operations ih => rw [run_cons, ih, key_step, List.foldl_cons]

/-! ## A key that exists -/

/-- Whether an operation asks for a new version of the key of a name. -/
def Operation.rotates (name : String) : Operation → Bool
  | .rotate other _ _ => other = name
  | _ => false

/-- All that an operation can do to a key that exists. -/
inductive Changes (name : String) (key : TransitKey) : Operation → TransitKey → Prop
  | kept {operation : Operation} : operation.rotates name = false → operation ≠ .trim name →
    Changes name key operation key
  | rotated (material : SealingKey) (createdAt : Nat) :
    Changes name key (.rotate name material createdAt) (key.rotate material createdAt)
  | bounded {version : Nat} : 0 < version → version ≤ key.latest →
    Changes name key (.setMinimum name version) { key with minimum := version }
  | trimmed : Changes name key (.trim name) key.trim

theorem exists_changes (name : String) (key : TransitKey) (operation : Operation) :
    ∃ key', keyStep name (some key) operation = some key' ∧ Changes name key operation key' := by
  cases operation with
  | wrap _ _ _ => exact ⟨key, rfl, .kept rfl nofun⟩
  | unwrap _ _ => exact ⟨key, rfl, .kept rfl nofun⟩
  | createKey other material createdAt =>
    refine ⟨key, ?_, .kept rfl nofun⟩
    rw [keyStep]
    split <;> rfl
  | rotate other material createdAt =>
    rcases Decidable.em (other = name) with rfl | foreign
    · exact ⟨_, if_pos rfl, .rotated material createdAt⟩
    · exact ⟨key, if_neg foreign, .kept (decide_eq_false foreign) nofun⟩
  | setMinimum other version =>
    rcases Decidable.em (other = name) with rfl | foreign
    · rcases Decidable.em (version = 0 ∨ key.latest < version) with outside | inside
      · refine ⟨key, ?_, .kept rfl nofun⟩
        rw [keyStep, if_pos rfl, Option.map_some, if_pos outside]
      · refine ⟨{ key with minimum := version }, ?_, .bounded (by omega) (by omega)⟩
        rw [keyStep, if_pos rfl, Option.map_some, if_neg inside]
    · exact ⟨key, if_neg foreign, .kept rfl nofun⟩
  | trim other =>
    rcases Decidable.em (other = name) with rfl | foreign
    · exact ⟨_, if_pos rfl, .trimmed⟩
    · exact ⟨key, if_neg foreign, .kept rfl fun same => foreign (Operation.trim.inj same)⟩

/-- A key that exists goes on to exist, changed by the operation. -/
theorem exists_key_step (found : store.keys[name]? = some key) (operation : Operation) :
    ∃ key', (store.step operation).keys[name]? = some key' ∧ Changes name key operation key' := by
  rw [key_step, found]
  exact exists_changes name key operation

/-- The key of a name that does not exist is made by creating it, or stays away. -/
theorem key_step_of_none (missing : store.keys[name]? = none) (operation : Operation) :
    (store.step operation).keys[name]? = none ∨
      ∃ material createdAt, operation = .createKey name material createdAt ∧
        (store.step operation).keys[name]? = some (.create material createdAt) := by
  rw [key_step, missing]
  cases operation with
  | wrap _ _ _ => exact .inl rfl
  | unwrap _ _ => exact .inl rfl
  | createKey other material createdAt =>
    rcases Decidable.em (other = name) with rfl | foreign
    · exact .inr ⟨material, createdAt, rfl, if_pos rfl⟩
    · exact .inl (if_neg foreign)
  | rotate other material createdAt => rw [keyStep]; exact .inl (by split <;> rfl)
  | setMinimum other version => rw [keyStep]; exact .inl (by split <;> rfl)
  | trim other => rw [keyStep]; exact .inl (by split <;> rfl)

/-! ## Numbers of versions -/

/-- How often the key of a name is rotated in a run. -/
def rotations (name : String) : (store : TransitStore) → (operations : List Operation) → Nat
  | _, [] => 0
  | store, operation :: operations =>
    (if operation.rotates name ∧ name ∈ store.keys then 1 else 0) +
      rotations name (store.step operation) operations

theorem rotations_append (store : TransitStore) (before after : List Operation) :
    rotations name store (before ++ after) =
      rotations name store before + rotations name (store.run before) after := by
  induction before generalizing store with
  | nil => exact (Nat.zero_add _).symm
  | cons operation before ih =>
    rw [List.cons_append, rotations, rotations, ih, run_cons, Nat.add_assoc]

theorem rotations_le_length (name : String) (store : TransitStore) (operations : List Operation) :
    rotations name store operations ≤ operations.length := by
  induction operations generalizing store with
  | nil => exact Nat.le_refl _
  | cons operation operations ih =>
    have rest := ih (store.step operation)
    rw [rotations, List.length_cons]
    split <;> omega

/-- The latest version of a key, where one that does not exist yet counts as new. -/
def latestOrFirst (store : TransitStore) (name : String) : Nat :=
  (store.latestVersion? name).getD 1

theorem latestOrFirst_of_some (found : store.keys[name]? = some key) :
    store.latestOrFirst name = key.latest := by
  rw [latestOrFirst, latestVersion?, found]
  rfl

theorem latestOrFirst_of_none (missing : store.keys[name]? = none) :
    store.latestOrFirst name = 1 := by
  rw [latestOrFirst, latestVersion?, missing]
  rfl

theorem latestOrFirst_step (store : TransitStore) (name : String) (operation : Operation) :
    (store.step operation).latestOrFirst name =
      store.latestOrFirst name + if operation.rotates name ∧ name ∈ store.keys then 1 else 0 := by
  cases found : store.keys[name]? with
  | none =>
    have absent := notMem_keys_of_none found
    rw [latestOrFirst_of_none found, if_neg (fun both => absurd both.2 absent)]
    rcases key_step_of_none found operation with missing | ⟨_, _, _, created⟩
    · exact latestOrFirst_of_none missing
    · exact latestOrFirst_of_some created
  | some key =>
    have present := mem_keys_of_some found
    obtain ⟨key', found', changes⟩ := exists_key_step found operation
    rw [latestOrFirst_of_some found, latestOrFirst_of_some found']
    have idle {operation : Operation} (stays : operation.rotates name = false) :
        (if operation.rotates name ∧ name ∈ store.keys then 1 else 0) = 0 :=
      if_neg fun both => Bool.false_ne_true (stays.symm.trans both.1)
    cases changes with
    | kept stays _ => rw [idle stays]; rfl
    | rotated material createdAt => rw [if_pos ⟨decide_eq_true rfl, present⟩]; rfl
    | bounded _ _ => rw [idle rfl]; rfl
    | trimmed => rw [idle rfl]; rfl

/-- A key is as many versions ahead as it was rotated. -/
theorem latestOrFirst_run (store : TransitStore) (name : String) (operations : List Operation) :
    (store.run operations).latestOrFirst name =
      store.latestOrFirst name + rotations name store operations := by
  induction operations generalizing store with
  | nil => rfl
  | cons operation operations ih => rw [run_cons, ih, latestOrFirst_step, rotations, Nat.add_assoc]

end KeyEnvelope.TransitStore
