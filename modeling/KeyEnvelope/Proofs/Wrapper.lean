import Mathlib.Data.List.Forall2
import KeyEnvelope.Wrapper
import KeyEnvelope.Proofs.Bytes
import KeyEnvelope.Proofs.Service
import KeyEnvelope.Proofs.Text.Base64

/-!
# Unwrapping what a wrapper wrapped

The key and the counter block of a content are read back from a stored key that spells
them, if the key has a length of the cipher.  A stored key is supported by its own kind of
wrapper alone, and gives the parameters back as long as the key service unwraps what it
has wrapped (`KeyWrapper.unwrap_of_kept`); so do the stored keys that several wrappers
make one after the other (`KeyWrapper.unwrap_of_mapM_wrap`).
-/

namespace KeyEnvelope

theorem checkKeyLength_eq_ok {length : Nat} :
    checkKeyLength length = .ok () ↔ Aes.IsKeyLength length := by
  unfold checkKeyLength
  split
  next fits => exact ⟨fun _ => fits, fun _ => rfl⟩
  next unfit => exact ⟨fun same => (by cases same), fun fits => absurd fits unfit⟩

theorem ContentParameters.ofStored_toBytes {parameters : ContentParameters}
    (fits : Aes.IsKeyLength parameters.key.length) :
    ofStored parameters.key (Block.toBytes parameters.iv) = .ok parameters := by
  unfold ofStored
  rw [checkKeyLength_eq_ok.mpr fits, Block.ofBytes?_toBytes]
  rfl

/-- Whatever a service wraps a text to from a state on, it unwraps to the text at a later
state. -/
def KeyService.Keeps {κ σ : Type} [KeyService κ] [KeyService σ] (name text : String) (service : κ)
    (later : σ) : Prop :=
  ∀ ciphertext after, wrap name text service = .ok ciphertext after →
    ∃ last, unwrap name ciphertext later = .ok text last

namespace KeyWrapper

variable {κ σ : Type} [KeyService κ] [KeyService σ] {parameters : ContentParameters}
  {wrapper : KeyWrapper} {stored : StoredKey} {keyName : String} {service service' : κ}
  {later last : σ}

@[simp] theorem wrapperKind_supports (wrapper : KeyWrapper) (stored : StoredKey) :
    WrapperKind.supports wrapper stored = wrapper.supports stored := rfl

@[simp] theorem dataKeyWrapper_wrap (wrapper : KeyWrapper) (parameters : ContentParameters) :
    (DataKeyWrapper.wrap wrapper parameters : EStateM EnvelopeError κ StoredKey) =
      wrapper.wrap parameters := rfl

@[simp] theorem dataKeyWrapper_unwrap (wrapper : KeyWrapper) (stored : StoredKey) :
    (DataKeyWrapper.unwrap wrapper stored : EStateM EnvelopeError κ ContentParameters) =
      wrapper.unwrap stored := rfl

/-! ## One wrapper -/

/-- A key that was kept in the clear comes back, whatever state the service is in. -/
theorem unwrap_of_wrap_unencrypted (fits : Aes.IsKeyLength parameters.key.length)
    (wrapped : wrap unencrypted parameters service = .ok stored service') :
    unencrypted.supports stored = true ∧
      unwrap unencrypted stored later = .ok parameters later := by
  cases wrapped
  refine ⟨rfl, ?_⟩
  unfold unwrap
  dsimp only
  rw [if_pos rfl]
  exact attempt_eq_ok.mpr ⟨ContentParameters.ofStored_toBytes fits, rfl⟩

/-- The stored key of what a key service answers. -/
def transitKey (keyName ciphertext : String) (version : Nat) (parameters : ContentParameters) :
    WrappedKey where
  wrappingAlgorithm := transitAlgorithm
  wrappingKeyId := keyName
  wrappingKeyVersion := toString version
  dataAlgorithm := dataAlgorithm
  encryptedKeyData := Utf8.encode ciphertext
  iv := Block.toBytes parameters.iv

theorem wrap_transit_eq_ok :
    wrap (transit keyName) parameters service = .ok stored service' ↔ ∃ ciphertext version,
      KeyService.wrap keyName (Base64.encodeText parameters.key) service =
          .ok ciphertext service' ∧
        TransitCiphertext.parseKeyVersion ciphertext = .ok version ∧
        stored = .wrapped (transitKey keyName ciphertext version parameters) := by
  unfold wrap
  simp only [bind_eq_ok, attempt_eq_ok]
  refine ⟨fun steps => ?_, fun steps => ?_⟩
  · obtain ⟨ciphertext, _, asked, version, _, ⟨parsed, rfl⟩, same⟩ := steps
    cases same
    exact ⟨ciphertext, version, asked, parsed, rfl⟩
  · obtain ⟨ciphertext, version, asked, parsed, rfl⟩ := steps
    exact ⟨ciphertext, _, asked, version, _, ⟨parsed, rfl⟩, rfl⟩

/-- A key of what a service answered comes back where the service unwraps the answer. -/
theorem unwrapTransit_transitKey {ciphertext : String} {version : Nat}
    (fits : Aes.IsKeyLength parameters.key.length)
    (unwraps : KeyService.unwrap keyName ciphertext later =
      .ok (Base64.encodeText parameters.key) last) :
    unwrapTransit keyName (transitKey keyName ciphertext version parameters) later =
      .ok parameters last := by
  have own : ¬ ((transitKey keyName ciphertext version parameters).wrappingAlgorithm ≠
      transitAlgorithm ∨ (transitKey keyName ciphertext version parameters).wrappingKeyId ≠
      keyName) := fun foreign => foreign.elim (absurd rfl) (absurd rfl)
  have spelled : Base64.decode (Utf8.encode (Base64.encodeText parameters.key)) =
      .ok parameters.key := by
    rw [Base64.encode_encodeText, Base64.decode_encode]
  unfold unwrapTransit
  rw [if_neg own]
  simp only [bind_eq_ok, attempt_eq_ok]
  refine ⟨ciphertext, later, ⟨Utf8.decode_encode ciphertext, rfl⟩, _, last, unwraps, ?_⟩
  exact ⟨parameters.key, last, ⟨spelled, rfl⟩, ContentParameters.ofStored_toBytes fits, rfl⟩

/-- A stored key is supported by the wrapper that made it and by no other. -/
theorem supports_iff_of_wrap (wrapped : wrap wrapper parameters service = .ok stored service')
    (other : KeyWrapper) : other.supports stored = true ↔ other = wrapper := by
  cases wrapper with
  | unencrypted =>
    cases wrapped
    cases other <;> simp [supports]
  | transit keyName =>
    obtain ⟨ciphertext, version, -, -, rfl⟩ := wrap_transit_eq_ok.mp wrapped
    cases other <;> simp [supports, transitKey, eq_comm]

/-- What a wrapper asks a service to wrap at a state, the service unwraps at a later one. -/
def Kept (parameters : ContentParameters) (later : σ) : KeyWrapper → κ → Prop
  | unencrypted, _ => True
  | transit keyName, service =>
    KeyService.Keeps keyName (Base64.encodeText parameters.key) service later

/-- The parameters of a content come back from the stored key that a wrapper made of them. -/
theorem unwrap_of_kept (fits : Aes.IsKeyLength parameters.key.length)
    (wrapped : wrap wrapper parameters service = .ok stored service')
    (kept : Kept parameters later wrapper service) :
    ∃ last, wrapper.unwrap stored later = .ok parameters last := by
  cases wrapper with
  | unencrypted => exact ⟨later, (unwrap_of_wrap_unencrypted fits wrapped).2⟩
  | transit keyName =>
    obtain ⟨ciphertext, version, asked, -, rfl⟩ := wrap_transit_eq_ok.mp wrapped
    obtain ⟨last, unwraps⟩ := kept ciphertext service' asked
    exact ⟨last, unwrapTransit_transitKey fits unwraps⟩

/-! ## Wrappers one after the other -/

variable {wrappers : List KeyWrapper} {keys : List StoredKey}

/-- What wrappers ask a service to wrap, one after the other from a state on, the service
unwraps at a later state. -/
def KeptInTurn (parameters : ContentParameters) (later : σ) : List KeyWrapper → κ → Prop
  | [], _ => True
  | wrapper :: wrappers, service =>
    Kept parameters later wrapper service ∧
      ∀ stored service', wrapper.wrap parameters service = .ok stored service' →
        KeptInTurn parameters later wrappers service'

theorem keptInTurn_of_keeps {service : κ}
    (keeps : ∀ keyName (service : κ),
      KeyService.Keeps keyName (Base64.encodeText parameters.key) service later) :
    KeptInTurn parameters later wrappers service := by
  induction wrappers generalizing service with
  | nil => trivial
  | cons wrapper wrappers ih =>
    refine ⟨?_, fun _ _ _ => ih⟩
    cases wrapper with
    | unencrypted => trivial
    | transit keyName => exact keeps keyName service

/-- Wrappers make one stored key each, in their order. -/
theorem forall₂_of_mapM_wrap
    (wrapped : wrappers.mapM (·.wrap parameters) service = .ok keys service') :
    List.Forall₂ (fun wrapper stored => ∃ before after : κ,
      wrapper.wrap parameters before = .ok stored after) wrappers keys := by
  induction wrappers generalizing service keys with
  | nil =>
    cases wrapped
    exact .nil
  | cons wrapper wrappers ih =>
    obtain ⟨stored, middle, others, first, rest, rfl⟩ := mapM_cons_eq_ok.mp wrapped
    exact .cons ⟨service, middle, first⟩ (ih rest)

/-- Of the stored keys that wrappers made, each gives the parameters back to every wrapper
that supports it. -/
theorem unwrap_of_mapM_wrap (fits : Aes.IsKeyLength parameters.key.length)
    (wrapped : wrappers.mapM (·.wrap parameters) service = .ok keys service')
    (kept : KeptInTurn parameters later wrappers service) (member : stored ∈ keys)
    (supported : wrapper.supports stored = true) :
    ∃ last, wrapper.unwrap stored later = .ok parameters last := by
  induction wrappers generalizing service keys with
  | nil =>
    cases wrapped
    cases member
  | cons maker wrappers ih =>
    obtain ⟨made, middle, others, first, rest, rfl⟩ := mapM_cons_eq_ok.mp wrapped
    rcases List.mem_cons.mp member with rfl | member
    -- Whoever supports the key is of the same kind and name as the wrapper that made it.
    · cases (supports_iff_of_wrap first wrapper).mp supported
      exact unwrap_of_kept fits first kept.1
    · exact ih rest (kept.2 made middle first) member

end KeyWrapper

end KeyEnvelope
