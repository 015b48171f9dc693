import KeyEnvelope.Proofs.Engine.Survivors
import KeyEnvelope.Proofs.Wrapper.Inverse

/-!
# The cipher that a stored key names

A stored key says which cipher it is a key of, and content is decrypted with one cipher
only.  A key in the clear that names another one is refused by every wrapper.  What a
wrapped key names is read by none (`decryptWithWrappers_unlabelled`), so the wrapper of a
key service takes a key of another cipher for its own (`KeyWrapper.Overlooks`), and that is
the only way to decrypt under one: what wrappers make names the cipher
(`KeyWrapper.dataAlgorithm_of_wrap`).
-/

namespace KeyEnvelope

namespace StoredKey

/-- The cipher that a stored key says it is a key of. -/
def dataAlgorithm : StoredKey → String
  | plain key => key.algorithm
  | wrapped key => key.dataAlgorithm

/-- A stored key, less the cipher that it names if it is wrapped. -/
def unlabelled : StoredKey → StoredKey
  | plain key => plain key
  | wrapped key => wrapped { key with dataAlgorithm := "" }

end StoredKey

namespace KeyWrapper

variable {κ : Type} [KeyService κ] {wrapper : KeyWrapper} {key : StoredKey}
  {parameters : ContentParameters} {service service' : κ}

/-- A wrapper overlooks that a key which is wrapped under its name is a key of another
cipher. -/
def Overlooks (wrapper : KeyWrapper) (key : StoredKey) : Prop :=
  ∃ record, key = .wrapped record ∧ wrapper = transit record.wrappingKeyId ∧
    record.wrappingAlgorithm = transitAlgorithm ∧ record.dataAlgorithm ≠ dataAlgorithm

/-! ## What a wrapper looks at -/

theorem supports_unlabelled (wrapper : KeyWrapper) (key : StoredKey) :
    wrapper.supports key.unlabelled = wrapper.supports key := by
  cases wrapper <;> cases key <;> rfl

theorem unwrap_unlabelled (wrapper : KeyWrapper) (key : StoredKey) :
    (wrapper.unwrap key.unlabelled : EStateM EnvelopeError κ ContentParameters) =
      wrapper.unwrap key := by
  cases wrapper <;> cases key <;> rfl

/-- A wrapper unwraps nothing that it does not support. -/
theorem supports_of_unwrap (unwraps : wrapper.unwrap key service = .ok parameters service') :
    wrapper.supports key = true := by
  by_contra unsupported
  obtain ⟨cause, refused⟩ :=
    refused_of_supports_eq_false service (eq_false_of_ne_true unsupported)
  cases unwraps.symm.trans refused

/-- A key that a wrapper supports names the cipher, or else the wrapper overlooks that it
does not. -/
theorem dataAlgorithm_or_overlooks (supported : wrapper.supports key = true) :
    key.dataAlgorithm = dataAlgorithm ∨ wrapper.Overlooks key := by
  cases wrapper with
  | unencrypted =>
    obtain ⟨record, rfl, named⟩ := supports_unencrypted.mp supported
    exact .inl named
  | transit keyName =>
    obtain ⟨record, rfl, kind, rfl⟩ := supports_transit.mp supported
    by_cases named : record.dataAlgorithm = dataAlgorithm
    · exact .inl named
    · exact .inr ⟨record, rfl, rfl, kind, named⟩

namespace Overlooks

theorem supports (overlooks : wrapper.Overlooks key) : wrapper.supports key = true := by
  obtain ⟨record, rfl, rfl, kind, -⟩ := overlooks
  exact decide_eq_true ⟨kind, rfl⟩

theorem dataAlgorithm_ne (overlooks : wrapper.Overlooks key) :
    key.dataAlgorithm ≠ dataAlgorithm := by
  obtain ⟨record, rfl, -, -, other⟩ := overlooks
  exact other

end Overlooks

/-- A key that a wrapper supports names the cipher exactly if the wrapper does not overlook
that it is a key of another. -/
theorem dataAlgorithm_iff_of_supports (supported : wrapper.supports key = true) :
    key.dataAlgorithm = dataAlgorithm ↔ ¬ wrapper.Overlooks key :=
  ⟨fun named overlooks => overlooks.dataAlgorithm_ne named,
    (dataAlgorithm_or_overlooks supported).resolve_right⟩

/-- Whatever is supported or unwrapped names the cipher, but for what is overlooked. -/
theorem admitted_named_iff (wrapper : KeyWrapper) (key : StoredKey) (service : κ) :
    ((wrapper.supports key = true ∨
        ∃ parameters service', wrapper.unwrap key service = .ok parameters service') →
      key.dataAlgorithm = dataAlgorithm) ↔ ¬ wrapper.Overlooks key := by
  refine ⟨fun named overlooks => ?_, fun sees admitted => ?_⟩
  · exact overlooks.dataAlgorithm_ne (named (.inl overlooks.supports))
  · have supported : wrapper.supports key = true :=
      admitted.elim id fun ⟨_, _, unwraps⟩ => supports_of_unwrap unwraps
    exact (dataAlgorithm_iff_of_supports supported).mpr sees

/-- What a wrapper makes names the cipher. -/
theorem dataAlgorithm_of_wrap (wrapped : wrapper.wrap parameters service = .ok key service') :
    key.dataAlgorithm = dataAlgorithm := by
  cases wrapper with
  | unencrypted =>
    cases wrapped
    rfl
  | transit keyName =>
    obtain ⟨ciphertext, version, -, -, rfl⟩ := wrap_transit_eq_ok.mp wrapped
    rfl

end KeyWrapper

namespace Engine

variable {κ φ ρ : Type} [KeyService κ]

/-! ## Decrypting whatever the keys name -/

theorem selectKey_unlabelled (wrappers : List KeyWrapper) (keys : List StoredKey) :
    selectKey wrappers (keys.map StoredKey.unlabelled) =
      (selectKey wrappers keys).map (Prod.map id StoredKey.unlabelled) := by
  induction wrappers with
  | nil => rfl
  | cons wrapper wrappers ih =>
    have found : (keys.map StoredKey.unlabelled).find? (WrapperKind.supports wrapper) =
        (keys.find? (WrapperKind.supports wrapper)).map StoredKey.unlabelled := by
      have supports : WrapperKind.supports wrapper ∘ StoredKey.unlabelled =
          WrapperKind.supports wrapper :=
        funext wrapper.supports_unlabelled
      rw [List.find?_map, supports]
    unfold selectKey at ih ⊢
    rw [List.findSome?_cons, List.findSome?_cons, found, ih]
    cases keys.find? (WrapperKind.supports wrapper) <;> rfl

/-- Decrypting does not depend on the ciphers that wrapped keys name. -/
theorem decryptWithWrappers_unlabelled (keys : List StoredKey) (wrappers : List KeyWrapper)
    (range : ByteRange) (fetch : ByteRange → EStateM StreamError φ ρ) :
    (decryptWithWrappers (keys.map StoredKey.unlabelled) wrappers range fetch :
        EStateM EnvelopeError (κ × φ) (RangeReader ρ)) =
      decryptWithWrappers keys wrappers range fetch := by
  unfold decryptWithWrappers
  rw [selectKey_unlabelled, List.length_map]
  cases selectKey wrappers keys with
  | none => rfl
  | some pair =>
    obtain ⟨wrapper, key⟩ := pair
    dsimp only [Option.map_some, Prod.map_apply, id_eq]
    rw [KeyWrapper.dataKeyWrapper_unwrap, KeyWrapper.unwrap_unlabelled,
      KeyWrapper.dataKeyWrapper_unwrap]

/-- What a wrapper supports or unwraps names the cipher exactly if the wrapper does not
overlook that it names another.  So does the key that a range is decrypted with, and it
always names the cipher where wrappers made the keys.  What the wrapped keys name makes no
difference to decrypting. -/
theorem decryptWithWrappers_named_iff (keys : List StoredKey) (wrappers : List KeyWrapper)
    (range : ByteRange) (fetch : ByteRange → EStateM StreamError φ ρ) (service : κ) (place : φ) :
    (∀ (wrapper : KeyWrapper) (key : StoredKey),
      ((wrapper.supports key = true ∨
          ∃ parameters service', wrapper.unwrap key service = .ok parameters service') →
        key.dataAlgorithm = KeyWrapper.dataAlgorithm) ↔ ¬ wrapper.Overlooks key) ∧
    (∀ limited service' place',
      decryptWithWrappers keys wrappers range fetch (service, place) =
        .ok limited (service', place') →
      ∃ wrapper key parameters ciphertext reader,
        selectKey wrappers keys = some (wrapper, key) ∧
        wrapper.unwrap key service = .ok parameters service' ∧
        fetch range.blockAligned place = .ok ciphertext place' ∧
        openAt parameters range.start ciphertext = .ok reader ∧
        limited = ⟨reader, range.limit⟩ ∧
        (key.dataAlgorithm = KeyWrapper.dataAlgorithm ↔ ¬ wrapper.Overlooks key) ∧
        ((∀ stored ∈ keys, ∃ (maker : KeyWrapper) (wrapped : ContentParameters)
            (before after : κ), maker.wrap wrapped before = .ok stored after) →
          key.dataAlgorithm = KeyWrapper.dataAlgorithm)) ∧
    ∀ others : List StoredKey,
      others.map StoredKey.unlabelled = keys.map StoredKey.unlabelled →
      decryptWithWrappers others wrappers range fetch (service, place) =
        decryptWithWrappers keys wrappers range fetch (service, place) := by
  refine ⟨fun wrapper key => KeyWrapper.admitted_named_iff wrapper key service, ?_, ?_⟩
  · intro limited service' place' decrypted
    obtain ⟨wrapper, key, parameters, ciphertext, reader, selected, unwraps, fetched, opened,
      same⟩ := decryptWithWrappers_eq_ok.mp decrypted
    obtain ⟨member, supported⟩ := of_selectKey selected
    refine ⟨wrapper, key, parameters, ciphertext, reader, selected, unwraps, fetched, opened,
      same, KeyWrapper.dataAlgorithm_iff_of_supports supported, fun made => ?_⟩
    obtain ⟨maker, content, before, after, wrapped⟩ := made key member
    exact KeyWrapper.dataAlgorithm_of_wrap wrapped
  · intro others alike
    rw [← decryptWithWrappers_unlabelled others, alike, decryptWithWrappers_unlabelled]

/-! ## A key of another cipher -/

/-- A key wrapped under the name `k`, of the cipher that is named. -/
def labelledKey (label : String) : StoredKey :=
  .wrapped { KeyWrapper.transitKey "k" "vault:v1:x" 1 ⟨List.replicate 16 7, 0⟩ with
    dataAlgorithm := label }

/-- The service that unwraps the key. -/
def labelledService : RecordedService :=
  .exchanging "vault:v1:x" (Base64.encodeText (List.replicate 16 7))

/-- A key of any cipher is unwrapped. -/
theorem exists_unwrap_labelledKey (label : String) :
    ∃ service', KeyWrapper.unwrap (.transit "k") (labelledKey label) labelledService =
      .ok ⟨List.replicate 16 7, 0⟩ service' := by
  have fits : Aes.IsKeyLength (ContentParameters.mk (List.replicate 16 7) 0).key.length := by decide
  have unwraps : KeyService.unwrap "k" "vault:v1:x" labelledService =
      .ok (Base64.encodeText (List.replicate 16 7)) _ := rfl
  have alike : (labelledKey label).unlabelled = (StoredKey.wrapped
      (KeyWrapper.transitKey "k" "vault:v1:x" 1 ⟨List.replicate 16 7, 0⟩)).unlabelled := rfl
  rw [← KeyWrapper.unwrap_unlabelled, alike, KeyWrapper.unwrap_unlabelled]
  exact ⟨_, KeyWrapper.unwrapTransit_transitKey fits unwraps⟩

/-- A range of what is served is decrypted with a key of any cipher. -/
theorem exists_decryptWithWrappers_labelledKey (label : String) (served : Source) :
    ∃ limited service', decryptWithWrappers [labelledKey label] [.transit "k"] ⟨0, none⟩
      (fun _ place => .ok served place) (labelledService, ()) = .ok limited (service', ()) := by
  have fits : Aes.IsKeyLength (ContentParameters.mk (List.replicate 16 7) 0).key.length := by decide
  obtain ⟨service', unwraps⟩ := exists_unwrap_labelledKey label
  have selected : selectKey [.transit "k"] [labelledKey label] =
      some (.transit "k", labelledKey label) := rfl
  obtain ⟨reader, -, decrypted⟩ := (decryptsUnder_of_unwrap (σ := RecordedService) fits selected
    unwraps ⟨0, none⟩ (fun _ place => .ok served place) () ()).1 served rfl
  exact ⟨_, _, decrypted⟩

theorem decryptWithWrappers_named_of_wrapped :
    ∃ limited service',
      decryptWithWrappers [labelledKey "AES"] [.transit "k"] ⟨0, none⟩
        (fun _ place => .ok (⟨[.data [104, 105]], []⟩ : Source) place) (labelledService, ()) =
          .ok limited (service', ()) ∧
      (labelledKey "AES").dataAlgorithm = KeyWrapper.dataAlgorithm ∧
      decryptWithWrappers [labelledKey "DES"] [.transit "k"] ⟨0, none⟩
        (fun _ place => .ok (⟨[.data [104, 105]], []⟩ : Source) place) (labelledService, ()) =
          .ok limited (service', ()) := by
  obtain ⟨limited, service', decrypted⟩ :=
    exists_decryptWithWrappers_labelledKey "AES" ⟨[.data [104, 105]], []⟩
  obtain ⟨-, runs, alike⟩ := decryptWithWrappers_named_iff [labelledKey "AES"] [.transit "k"]
    ⟨0, none⟩ (fun _ place => .ok (⟨[.data [104, 105]], []⟩ : Source) place) labelledService ()
  obtain ⟨wrapper, key, -, -, -, selected, -, -, -, -, -, named⟩ := runs _ _ _ decrypted
  cases (show some (.transit "k", labelledKey "AES") = some (wrapper, key) from selected)
  have made : KeyWrapper.wrap (.transit "k") ⟨List.replicate 16 7, 0⟩ labelledService =
      .ok (labelledKey "AES") _ :=
    KeyWrapper.wrap_transit_eq_ok.mpr ⟨"vault:v1:x", 1, rfl, by rfl, rfl⟩
  refine ⟨limited, service', decrypted, named ?_, (alike [labelledKey "DES"] rfl).trans decrypted⟩
  intro stored member
  obtain rfl := List.mem_singleton.mp member
  exact ⟨_, _, _, _, made⟩

/-- A key of another cipher is supported and unwrapped, and a range is decrypted with it. -/
theorem not_named_of_decryptWithWrappers :
    (¬ ∀ (wrapper : KeyWrapper) (key : StoredKey) (service : RecordedService),
      (wrapper.supports key = true ∨
          ∃ parameters service', wrapper.unwrap key service = .ok parameters service') →
        key.dataAlgorithm = KeyWrapper.dataAlgorithm) ∧
    ¬ ∀ (keys : List StoredKey) (wrappers : List KeyWrapper) (range : ByteRange)
        (fetch : ByteRange → EStateM StreamError Unit Source) (service service' : RecordedService)
        (limited : RangeReader Source) (wrapper : KeyWrapper) (key : StoredKey),
      decryptWithWrappers keys wrappers range fetch (service, ()) = .ok limited (service', ()) →
      selectKey wrappers keys = some (wrapper, key) →
      key.dataAlgorithm = KeyWrapper.dataAlgorithm := by
  have other : (labelledKey "DES").dataAlgorithm ≠ KeyWrapper.dataAlgorithm := by decide
  refine ⟨fun named => ?_, fun named => ?_⟩
  · obtain ⟨service', unwraps⟩ := exists_unwrap_labelledKey "DES"
    exact other (named (.transit "k") _ labelledService (.inr ⟨_, service', unwraps⟩))
  · obtain ⟨limited, service', decrypted⟩ :=
      exists_decryptWithWrappers_labelledKey "DES" ⟨[.data [104, 105]], []⟩
    exact other (named _ _ _ _ _ _ _ (.transit "k") _ decrypted rfl)

end Engine

end KeyEnvelope
