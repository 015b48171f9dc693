import KeyEnvelope.Proofs.Context
import KeyEnvelope.Proofs.Engine.Opening
import KeyEnvelope.Proofs.Transit.Interval
import KeyEnvelope.Proofs.Transit.Length

/-!
# Layouts under a transit service

A transit service always wraps a data key, and to a text whose length is known beforehand
(`TransitClient.exists_wrap`).  So whether content can be encrypted is a matter of the layout
alone: with the length in front always, and with a fixed one as long as the latest version
of the wrapping key has the number of digits that the layout has room for.  Versions only grow,
so a fixed layout that has become too short stays so.
-/

namespace KeyEnvelope

open TransitStore (Operation rotations wrappedKeyLength)

/-! ## Lengths of wrapped keys -/

namespace TransitStore

theorem wrappedKeyLength_mono {version later : Nat} (ahead : version ≤ later) (keyLength : Nat) :
    wrappedKeyLength version keyLength ≤ wrappedKeyLength later keyLength := by
  have digits := Nat.le_length_digits_le 10 version later ahead
  unfold wrappedKeyLength
  omega

/-- Every version that a wrapped text can name leaves room for a length in four bytes. -/
theorem wrappedKeyLength_lt {version keyLength : Nat}
    (fits : version ≤ TransitCiphertext.maxVersion) (known : Aes.IsKeyLength keyLength) :
    wrappedKeyLength version keyLength < UInt32.size := by
  have digits : (Nat.digits 10 version).length ≤ 10 :=
    (Nat.digits_length_le_iff (by decide) version).mpr (Nat.lt_of_le_of_lt fits (by decide))
  unfold wrappedKeyLength
  have words : UInt32.size = 2 ^ 32 := rfl
  simp only [Nat.ceilDiv_eq_add_pred_div]
  rcases known with rfl | rfl | rfl <;> omega

/-- What is wrapped grows along a run, so a length that is left does not come back. -/
theorem wrappedKeyLength_ne_of_run {store : TransitStore} {name : String} {keyLength : Nat}
    {between : List Operation}
    (left : wrappedKeyLength ((store.run between).latestOrFirst name) keyLength ≠
      wrappedKeyLength (store.latestOrFirst name) keyLength) (after : List Operation) :
    wrappedKeyLength (((store.run between).run after).latestOrFirst name) keyLength ≠
      wrappedKeyLength (store.latestOrFirst name) keyLength := by
  have ahead : ∀ (store : TransitStore) (operations : List Operation),
      wrappedKeyLength (store.latestOrFirst name) keyLength ≤
        wrappedKeyLength ((store.run operations).latestOrFirst name) keyLength := by
    intro store operations
    rw [latestOrFirst_run]
    exact wrappedKeyLength_mono (Nat.le_add_right ..) keyLength
  have grown := ahead store between
  have grown_again := ahead (store.run between) after
  omega

theorem latestOrFirst_eq {store : TransitStore} {operations : List Operation}
    (current : store = run {} operations) (name : String) :
    store.latestOrFirst name = 1 + rotations name {} operations := by
  rw [current, latestOrFirst_run, latestOrFirst_of_none (getElem?_empty name)]

end TransitStore

namespace Context

variable {context : Context} {data : Bytes}

theorem length_of_encode_eq_fixed {expected : Nat}
    (encoded : encode (.fixed expected) context = .ok data) : data.length = expected + 12 := by
  obtain ⟨fits, rfl⟩ := encode_fixed_eq_ok.mp encoded
  rw [List.length_append, fits, context.nonce.length_eq]
  rfl

theorem length_of_encode_eq_lengthPrefixed
    (encoded : encode .lengthPrefixed context = .ok data) :
    data.length = context.wrappedKey.length + 16 := by
  obtain ⟨-, rfl⟩ := encode_lengthPrefixed_eq_ok.mp encoded
  have twelve : nonceSize = 12 := rfl
  rw [List.length_append, List.length_append, Bytes.length_ofNatBE, context.nonce.length_eq, twelve]
  omega

end Context

namespace TransitClient

variable {client : TransitClient} {operations : List Operation}

/-- After any run, a service creates a key, or finds it, at its latest version. -/
theorem exists_createKey (current : client.store = TransitStore.run {} operations)
    (name : String) : ∃ created key first, KeyService.createKey name client = .ok () created ∧
      created.store.keys[name]? = some key ∧ key.Spans first ∧
      key.latest = client.store.latestOrFirst name := by
  obtain ⟨operation, same, step⟩ := exists_step client (.createKey name)
  obtain ⟨material, createdAt, rfl⟩ : ∃ material createdAt,
      operation = .createKey name material createdAt := by
    cases operation <;> cases same
    exact ⟨_, _, rfl⟩
  obtain ⟨created, made, created_store⟩ : ∃ created,
      KeyService.createKey name client = .ok () created ∧
        created.store = (client.perform (.createKey name)).store := ⟨_, rfl, rfl⟩
  rw [step] at created_store
  obtain ⟨key, found⟩ : ∃ key, created.store.keys[name]? = some key := by
    rw [created_store, TransitStore.key_step]
    exact ⟨_, if_pos rfl⟩
  have run : created.store =
      TransitStore.run {} (operations ++ [.createKey name material createdAt]) := by
    rw [created_store, TransitStore.run_append, ← current]
    rfl
  obtain ⟨first, spans, -⟩ := TransitStore.spans_of_run (run ▸ found)
  refine ⟨created, key, first, made, found, spans, ?_⟩
  rw [← TransitStore.latestOrFirst_of_some found, created_store, TransitStore.latestOrFirst_step]
  rfl

/-- After any run, a service asked to create a key and to wrap under it does so, to a text whose
length depends on the latest version of the key. -/
theorem exists_wrap (current : client.store = TransitStore.run {} operations) (name : String)
    (key : Bytes) : ∃ created wrapped client',
      KeyService.createKey name client = .ok () created ∧
      KeyService.wrap name (Base64.encodeText key) created = .ok wrapped client' ∧
      (Utf8.encode wrapped).length =
        wrappedKeyLength (client.store.latestOrFirst name) key.length := by
  obtain ⟨created, named, first, made, found, spans, latest⟩ := exists_createKey current name
  obtain ⟨version, newest⟩ :=
    spans.exists_version?_iff.mpr ⟨spans.first_le, Nat.le_refl named.latest⟩
  obtain ⟨nonce, client', wrapped, -⟩ := wrap_of_some found newest (Base64.encodeText key)
  have number := TransitKey.number_of_version? newest
  have positive : 0 < version.number := by
    rw [number]
    exact Nat.lt_of_lt_of_le spans.first_pos spans.first_le
  refine ⟨created, _, client', made, wrapped, ?_⟩
  rw [TransitStore.length_issued_encodeText positive, number, latest]

end TransitClient

/-! ## Encryption -/

namespace Engine

variable {ρ κ : Type} [KeyService κ] {engine : Engine} {key : KeyMaterial engine.settings.keyLength}
  {nonce : Nonce} {plaintext : ρ} {keyName wrapped : String} {service created service' : κ}

section

variable (make : KeyService.createKey keyName service = .ok () created)
  (wrap : KeyService.wrap keyName (Base64.encodeText key.bytes) created = .ok wrapped service')

include make wrap

/-- Once the key is wrapped, content is encrypted if the layout takes the wrapped key. -/
theorem exists_encrypt_of_takes
    (takes : engine.settings.contextFormat.Takes (Utf8.encode wrapped).length) :
    ∃ stream context,
      engine.encrypt key nonce plaintext keyName service = .ok (stream, context) service' := by
  obtain ⟨context, encoded⟩ : ∃ data,
      Context.encode engine.settings.contextFormat ⟨Utf8.encode wrapped, nonce⟩ = .ok data :=
    Context.exists_encode_iff.mpr takes
  exact ⟨_, context, encrypt_eq_ok.mpr ⟨created, wrapped, make, wrap, encoded,
    CounterReader.start_eq_ok.mpr ⟨isKeyLength key, rfl⟩⟩⟩

/-- Otherwise the settings are at fault. -/
theorem encrypt_of_encode_error {cause : ConfigError}
    (refused : Context.encode engine.settings.contextFormat ⟨Utf8.encode wrapped, nonce⟩ =
      .error cause) :
    engine.encrypt key nonce plaintext keyName service = .error (.config cause) service' := by
  have failed : attempt .config
      (Context.encode engine.settings.contextFormat ⟨Utf8.encode wrapped, nonce⟩) service' =
        .error (.config cause) service' := by
    rw [refused]
    rfl
  unfold encrypt
  rw [bind_of_ok make, bind_of_ok wrap]
  exact bind_of_error failed

end

/-- The context of a content has the length that its layout says. -/
theorem length_context_of_encrypt {stream : CounterReader ρ} {context : Bytes}
    (encrypted : engine.encrypt key nonce plaintext keyName service =
      .ok (stream, context) service') :
    (∀ expected, engine.settings.contextFormat = .fixed expected →
      context.length = expected + 12) ∧
    (engine.settings.contextFormat = .lengthPrefixed → ∃ created wrapped,
      KeyService.createKey keyName service = .ok () created ∧
      KeyService.wrap keyName (Base64.encodeText key.bytes) created = .ok wrapped service' ∧
      context.length = (Utf8.encode wrapped).length + 16) := by
  obtain ⟨created, wrapped, make, wrap, encoded, -⟩ := encrypt_eq_ok.mp encrypted
  refine ⟨fun expected layout => ?_, fun layout => ⟨created, wrapped, make, wrap, ?_⟩⟩
  · rw [layout] at encoded
    exact Context.length_of_encode_eq_fixed encoded
  · rw [layout] at encoded
    exact Context.length_of_encode_eq_lengthPrefixed encoded

/-! ## Encryption under a transit service -/

section Transit

variable {client : TransitClient} {operations : List Operation} {expected : Nat}
  (current : client.store = TransitStore.run {} operations)

include current

theorem exists_encrypt_of_room (room : engine.settings.contextFormat.Takes
      (wrappedKeyLength (client.store.latestOrFirst keyName) engine.settings.keyLength)) :
    ∃ stream context client',
      engine.encrypt key nonce plaintext keyName client = .ok (stream, context) client' := by
  obtain ⟨created, wrapped, client', make, wrap, length⟩ :=
    TransitClient.exists_wrap current keyName key.bytes
  rw [← key.length_eq, ← length] at room
  obtain ⟨stream, context, encrypted⟩ := exists_encrypt_of_takes make wrap room
  exact ⟨stream, context, client', encrypted⟩

/-- A fixed layout without room for the wrapped key is reported with both lengths. -/
theorem encrypt_of_no_room (layout : engine.settings.contextFormat = .fixed expected)
    (other : wrappedKeyLength (client.store.latestOrFirst keyName) engine.settings.keyLength ≠
      expected) :
    ∃ client', engine.encrypt key nonce plaintext keyName client =
      .error (.config (.wrappedKeySize (wrappedKeyLength (client.store.latestOrFirst keyName)
        engine.settings.keyLength) expected)) client' := by
  obtain ⟨created, wrapped, client', make, wrap, length⟩ :=
    TransitClient.exists_wrap current keyName key.bytes
  rw [key.length_eq] at length
  refine ⟨client', encrypt_of_encode_error make wrap ?_⟩
  rw [layout, ← length]
  exact if_neg (length ▸ other)

theorem exists_encrypt_iff_room_of_fixed
    (layout : engine.settings.contextFormat = .fixed expected) :
    (∃ stream context client',
      engine.encrypt key nonce plaintext keyName client = .ok (stream, context) client') ↔
      wrappedKeyLength (client.store.latestOrFirst keyName) engine.settings.keyLength =
        expected := by
  refine ⟨fun ⟨stream, context, client', encrypted⟩ => ?_, fun fits => ?_⟩
  · by_contra other
    obtain ⟨client', failed⟩ := encrypt_of_no_room current layout other
    cases encrypted.symm.trans failed
  · refine exists_encrypt_of_room current ?_
    rw [layout]
    exact fits

/-- A fixed layout that had room for the wrapped key, and later had none, never has it again. -/
theorem encrypt_of_room_left (layout : engine.settings.contextFormat = .fixed expected)
    (room : wrappedKeyLength (client.store.latestOrFirst keyName) engine.settings.keyLength =
      expected)
    {between after : List Operation} {middle last : TransitClient}
    (run : middle.store = client.store.run between) (run' : last.store = middle.store.run after)
    (left : wrappedKeyLength (middle.store.latestOrFirst keyName) engine.settings.keyLength ≠
      expected) :
    ∃ cause last', engine.encrypt key nonce plaintext keyName last =
      .error (.config cause) last' := by
  have last_run : last.store = TransitStore.run {} (operations ++ between ++ after) := by
    rw [run', run, current, TransitStore.run_append, TransitStore.run_append]
  rw [run, ← room] at left
  have gone := TransitStore.wrappedKeyLength_ne_of_run left after
  rw [← run, ← run', room] at gone
  exact ⟨_, encrypt_of_no_room last_run layout gone⟩

end Transit

/-- After any run of a transit service, content is encrypted under a key exactly if the layout
has the length in front or has room for just the length of what the latest version wraps;
otherwise the settings are at fault.  The context has the length that its layout says.  And a
fixed layout under which content was encrypted before, and is not any more, never works again,
whatever is asked of the service. -/
theorem exists_encrypt_iff_layout {client : TransitClient} {operations : List Operation}
    (current : client.store = TransitStore.run {} operations)
    (few : rotations keyName {} operations < UInt32.size - 1)
    (key : KeyMaterial engine.settings.keyLength) (nonce : Nonce) (plaintext : ρ) :
    let length := wrappedKeyLength (client.store.latestOrFirst keyName) engine.settings.keyLength
    ((∃ stream context client',
        engine.encrypt key nonce plaintext keyName client = .ok (stream, context) client') ↔
      engine.settings.contextFormat = .lengthPrefixed ∨
        engine.settings.contextFormat = .fixed length) ∧
    (¬ (engine.settings.contextFormat = .lengthPrefixed ∨
        engine.settings.contextFormat = .fixed length) →
      ∃ cause client', engine.encrypt key nonce plaintext keyName client =
        .error (.config cause) client') ∧
    (∀ stream context client',
      engine.encrypt key nonce plaintext keyName client = .ok (stream, context) client' →
      (∀ expected, engine.settings.contextFormat = .fixed expected →
        context.length = expected + 12) ∧
      (engine.settings.contextFormat = .lengthPrefixed → ∃ created wrapped,
        KeyService.createKey keyName client = .ok () created ∧
        KeyService.wrap keyName (Base64.encodeText key.bytes) created = .ok wrapped client' ∧
        context.length = (Utf8.encode wrapped).length + 16)) ∧
    ∀ expected, engine.settings.contextFormat = .fixed expected →
      (∃ stream context client',
        engine.encrypt key nonce plaintext keyName client = .ok (stream, context) client') →
      ∀ (between after : List Operation) (middle last : TransitClient),
        middle.store = client.store.run between → last.store = middle.store.run after →
        ∀ (key₁ : KeyMaterial engine.settings.keyLength) (nonce₁ : Nonce) (plaintext₁ : ρ)
          (cause : ConfigError) (middle' : TransitClient),
          engine.encrypt key₁ nonce₁ plaintext₁ keyName middle =
            .error (.config cause) middle' →
          ∀ (key₂ : KeyMaterial engine.settings.keyLength) (nonce₂ : Nonce) (plaintext₂ : ρ),
            ∃ cause last', engine.encrypt key₂ nonce₂ plaintext₂ keyName last =
              .error (.config cause) last' := by
  intro length
  have named : client.store.latestOrFirst keyName ≤ TransitCiphertext.maxVersion := by
    rw [TransitStore.latestOrFirst_eq current, TransitCiphertext.maxVersion]
    omega
  have prefixed_fits := TransitStore.wrappedKeyLength_lt named
    (Settings.isKeyLength_of_validate engine.valid)
  refine ⟨?iff, ?refused, fun _ _ _ encrypted => length_context_of_encrypt encrypted, ?later⟩
  case iff =>
    cases layout : engine.settings.contextFormat with
    | fixed expected =>
      rw [exists_encrypt_iff_room_of_fixed current layout]
      simp [length, eq_comm]
    | lengthPrefixed =>
      refine iff_of_true (exists_encrypt_of_room current ?_) (.inl rfl)
      rw [layout]
      exact Nat.le_sub_one_of_lt prefixed_fits
  case refused =>
    intro no_room
    cases layout : engine.settings.contextFormat with
    | lengthPrefixed => exact absurd (.inl layout) no_room
    | fixed expected =>
      have other : length ≠ expected := by
        rintro rfl
        exact no_room (.inr layout)
      exact ⟨_, encrypt_of_no_room current layout other⟩
  case later =>
    intro expected layout encrypts between after middle last run run' key₁ nonce₁ plaintext₁ cause
      middle' failed key₂ nonce₂ plaintext₂
    have room := (exists_encrypt_iff_room_of_fixed current layout).mp encrypts
    have middle_run : middle.store = TransitStore.run {} (operations ++ between) := by
      rw [run, current, TransitStore.run_append]
    refine encrypt_of_room_left current layout room run run' fun fits => ?_
    -- With room for what the middle state wraps, its encryption would not have failed.
    obtain ⟨stream, context, again, encrypted⟩ :=
      (exists_encrypt_iff_room_of_fixed middle_run layout).mpr fits
    cases encrypted.symm.trans failed

/-- The default layout has room for what the ninth version wraps, and not for the tenth. -/
theorem exists_encrypt_iff_layout_tenth_version :
    let source : Source := ⟨[.data [104, 105]], []⟩
    let key : KeyMaterial withDefaults.settings.keyLength := ⟨List.replicate 32 5, rfl⟩
    let nonce : Nonce := ⟨List.replicate 12 6, rfl⟩
    ∃ client middle : TransitClient,
      client.store = TransitStore.run {} (.createKey "a" ⟨List.replicate 32 7, rfl⟩ 0 ::
        List.replicate 8 (.rotate "a" ⟨List.replicate 32 8, rfl⟩ 1)) ∧
      middle.store = client.store.run [.rotate "a" ⟨List.replicate 32 9, rfl⟩ 2] ∧
      (∃ stream context client',
        withDefaults.encrypt key nonce source "a" client = .ok (stream, context) client' ∧
        context.length = 117) ∧
      ∀ (after : List Operation) (last : TransitClient), last.store = middle.store.run after →
        ∃ cause last',
          withDefaults.encrypt key nonce source "a" last = .error (.config cause) last' := by
  intro source key nonce
  have made (operations : List Operation) :=
    TransitClient.exists_client_of_run (.createKey "a" ⟨List.replicate 32 7, rfl⟩ 0 ::
      List.replicate 8 (.rotate "a" ⟨List.replicate 32 8, rfl⟩ 1) ++ operations)
  obtain ⟨client, current⟩ := made []
  obtain ⟨middle, next⟩ := made [.rotate "a" ⟨List.replicate 32 9, rfl⟩ 2]
  have ninth : client.store.latestOrFirst "a" = 9 := by
    rw [TransitStore.latestOrFirst, TransitStore.latestVersion?, current, TransitStore.key_run,
      TransitStore.getElem?_empty]
    rfl
  have tenth : middle.store.latestOrFirst "a" = 10 := by
    rw [TransitStore.latestOrFirst, TransitStore.latestVersion?, next, TransitStore.key_run,
      TransitStore.getElem?_empty]
    rfl
  have room : wrappedKeyLength 9 32 = 105 := by decide
  have no_room : wrappedKeyLength 10 32 = 106 := by decide
  obtain ⟨encrypts, -, sized, later⟩ := exists_encrypt_iff_layout current
    (Nat.lt_of_le_of_lt (TransitStore.rotations_le_length ..) (by decide)) key nonce source
  obtain ⟨-, fails, -, -⟩ := exists_encrypt_iff_layout next
    (Nat.lt_of_le_of_lt (TransitStore.rotations_le_length ..) (by decide)) key nonce source
  have run : middle.store = client.store.run [.rotate "a" ⟨List.replicate 32 9, rfl⟩ 2] := by
    rw [next, current, ← TransitStore.run_append, List.append_nil]
  rw [ninth] at encrypts
  rw [tenth] at fails
  obtain ⟨stream, context, client', encrypted⟩ := encrypts.mpr (.inr (congrArg _ room.symm))
  obtain ⟨cause, middle', failed⟩ := fails fun either => by
    rcases either with layout | layout
    · cases layout
    · cases (ContextFormat.fixed.inj layout).trans no_room
  refine ⟨client, middle, current, run, ⟨stream, context, client', encrypted, ?_⟩,
    fun after last run' => ?_⟩
  · exact (sized stream context client' encrypted).1 105 rfl
  · exact later 105 rfl ⟨stream, context, client', encrypted⟩ _ after middle last run run' key nonce
      source cause middle' failed key nonce source

end Engine

end KeyEnvelope
