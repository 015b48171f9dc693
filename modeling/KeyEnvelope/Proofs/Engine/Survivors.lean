import KeyEnvelope.Proofs.Engine.Range
import KeyEnvelope.Proofs.Record.KeyList

/-!
# Stored keys that survive

Of the stored keys of a content, any that are left will do, in any order and with any
wrappers, as long as one of the wrappers supports one of the keys and the key service
still unwraps what it has wrapped.  A pair is found (`exists_selectKey`), it gives the
parameters of the content back, and with them every range is opened
(`decryptsUnder_of_unwrap`).
-/

namespace KeyEnvelope

/-- The service that wraps everything to one ciphertext and unwraps everything to one
text. -/
def RecordedService.exchanging (ciphertext text : String) : RecordedService :=
  ofReplies fun
    | .unwrap _ _ => .ok text
    | _ => .ok ciphertext

theorem RecordedService.keeps_exchanging {κ : Type} [KeyService κ] (name ciphertext text : String)
    (service : κ) : KeyService.Keeps name text service (exchanging ciphertext text) :=
  fun _ _ _ => ⟨_, rfl⟩

namespace Engine

section

variable {ω : Type} [WrapperKind ω] {wrappers : List ω} {keys : List StoredKey} {wrapper : ω}
  {stored : StoredKey}

open WrapperKind (supports)

/-! ## The pair that is found -/

theorem selectKey_eq_none :
    selectKey wrappers keys = none ↔
      ∀ wrapper ∈ wrappers, ∀ stored ∈ keys, ¬ supports wrapper stored = true := by
  simp only [selectKey, List.findSome?_eq_none_iff, Option.map_eq_none_iff, List.find?_eq_none]

/-- A pair that is found is a key with a wrapper that supports it. -/
theorem of_selectKey (selected : selectKey wrappers keys = some (wrapper, stored)) :
    stored ∈ keys ∧ supports wrapper stored = true := by
  obtain ⟨candidate, -, found⟩ := List.exists_of_findSome?_eq_some selected
  obtain ⟨key, chosen, same⟩ := Option.map_eq_some_iff.mp found
  cases same
  exact ⟨List.mem_of_find?_eq_some chosen, List.find?_some chosen⟩

/-- A pair is found if a wrapper supports a key. -/
theorem exists_selectKey
    (supported : ∃ wrapper ∈ wrappers, ∃ stored ∈ keys, supports wrapper stored = true) :
    ∃ wrapper stored, selectKey wrappers keys = some (wrapper, stored) := by
  obtain ⟨wrapper, listed, stored, member, supports⟩ := supported
  cases selected : selectKey wrappers keys with
  | none => exact absurd supports (selectKey_eq_none.mp selected wrapper listed stored member)
  | some pair => exact ⟨pair.1, pair.2, rfl⟩

/-! ## Decrypting with it -/

/-- Once the key of the pair is unwrapped, all that is left is to fetch and to open. -/
theorem decryptWithWrappers_of_unwrap {σ φ ρ : Type} [DataKeyWrapper ω σ]
    {parameters : ContentParameters} {later last : σ}
    (selected : selectKey wrappers keys = some (wrapper, stored))
    (unwraps : DataKeyWrapper.unwrap wrapper stored later = .ok parameters last)
    (range : ByteRange) (fetch : ByteRange → EStateM StreamError φ ρ) (place : φ) :
    decryptWithWrappers keys wrappers range fetch (later, place) = (do
      let ciphertext ← onFetch (fetch range.blockAligned)
      let reader ← attempt .config (openAt parameters range.start ciphertext)
      return ⟨reader, range.limit⟩ : EStateM EnvelopeError (σ × φ) (RangeReader ρ))
        (last, place) := by
  have unwrapped : onService (DataKeyWrapper.unwrap wrapper stored) (later, place) =
      .ok parameters (last, place) := onService_eq_ok.mpr ⟨last, unwraps, rfl⟩
  unfold decryptWithWrappers
  rw [selected]
  exact bind_of_ok unwrapped

theorem decryptWithWrappers_of_fetch_error {σ φ ρ : Type} [DataKeyWrapper ω σ]
    {parameters : ContentParameters} {later last : σ} {range : ByteRange}
    {fetch : ByteRange → EStateM StreamError φ ρ} {place place' : φ} {failure : StreamError}
    (selected : selectKey wrappers keys = some (wrapper, stored))
    (unwraps : DataKeyWrapper.unwrap wrapper stored later = .ok parameters last)
    (failed : fetch range.blockAligned place = .error failure place') :
    decryptWithWrappers keys wrappers range fetch (later, place) =
      .error (.stream failure) (last, place') := by
  rw [decryptWithWrappers_of_unwrap selected unwraps]
  exact bind_of_error (onFetch_eq_error.mpr ⟨failure, place', failed, rfl, rfl⟩)

/-- Decrypting with stored keys opens every range under parameters: nothing fails but the
fetch, and what is read depends on what was fetched alone. -/
def DecryptsUnder {σ : Type} [DataKeyWrapper ω σ] (parameters : ContentParameters)
    (keys : List StoredKey) (wrappers : List ω) (later last : σ) : Prop :=
  ∀ {φ ρ : Type} (range : ByteRange) (fetch : ByteRange → EStateM StreamError φ ρ)
    (place place' : φ),
    (∀ ciphertext, fetch range.blockAligned place = .ok ciphertext place' →
      ∃ reader, openAt parameters range.start ciphertext = .ok reader ∧
        decryptWithWrappers keys wrappers range fetch (later, place) =
          .ok ⟨reader, range.limit⟩ (last, place')) ∧
    ∀ failure, fetch range.blockAligned place = .error failure place' →
      decryptWithWrappers keys wrappers range fetch (later, place) =
        .error (.stream failure) (last, place')

theorem decryptsUnder_of_unwrap {σ : Type} [DataKeyWrapper ω σ] {parameters : ContentParameters}
    {later last : σ} (fits : Aes.IsKeyLength parameters.key.length)
    (selected : selectKey wrappers keys = some (wrapper, stored))
    (unwraps : DataKeyWrapper.unwrap wrapper stored later = .ok parameters last) :
    DecryptsUnder parameters keys wrappers later last := by
  intro φ ρ range fetch place place'
  refine ⟨fun ciphertext fetched => ?_, fun failure failed => ?_⟩
  · obtain ⟨reader, opened⟩ : ∃ reader, openAt parameters range.start ciphertext = .ok reader :=
      openAt_of_isKeyLength fits range.start ciphertext
    exact ⟨reader, opened, decryptWithWrappers_eq_ok.mpr
      ⟨wrapper, stored, parameters, ciphertext, reader, selected, unwraps, fetched, opened, rfl⟩⟩
  · exact decryptWithWrappers_of_fetch_error selected unwraps failed

end

/-! ## Surviving keys -/

variable {κ : Type} [KeyService κ] {engine : Engine}
  {key : KeyMaterial engine.settings.keyLength} {iv : Block} {service service' : κ}

/-- Encrypting makes one stored key for each wrapper, and what is opened under the
parameters of the encryption is the content.  Of the stored keys, any list that has been
kept and read back decrypts under these parameters with any wrappers of which one supports
one of the keys, as long as the key service unwraps what it has wrapped. -/
theorem decryptWithWrappers_of_surviving {source : Source} {wrappers : List KeyWrapper}
    {stream : CounterReader Source} {keys : List StoredKey}
    (encrypted : engine.encryptWithWrappers key iv source wrappers service =
      .ok (stream, keys) service') :
    List.Forall₂ (fun wrapper stored => ∃ before after : κ,
      wrapper.wrap ⟨key.bytes, iv⟩ before = .ok stored after) wrappers keys ∧
    (∀ plaintext : Bytes, plaintext.length < UInt64.size → source.Delivers plaintext →
      ∃ ciphertext : Bytes,
        (∀ sizes, (∀ i, 0 < sizes i) → (Reader.drain sizes stream).1 = (ciphertext, none)) ∧
        ∀ (range : ByteRange) (served : Source) (reader : DecryptingReader Source),
          range.Ordered → served.Serves range ciphertext →
          openAt ⟨key.bytes, iv⟩ range.start served = .ok reader →
          ∀ sizes, (∀ i, 0 < sizes i) →
            (Reader.drain sizes (⟨reader, range.limit⟩ : RangeReader Source)).1 =
              (range.slice plaintext, none)) ∧
    ∀ surviving : List StoredKey, (∀ stored ∈ surviving, stored ∈ keys) →
      ((∀ stored ∈ surviving, stored.recordLength < UInt32.size / 2) →
        ∃ data, StoredKey.encodeList surviving = .ok data) ∧
      ∀ data, StoredKey.encodeList surviving = .ok data →
        ∃ decoded, StoredKey.decodeList data = .ok decoded ∧
          ∀ {σ : Type} [KeyService σ] (later : σ),
            KeyWrapper.KeptInTurn ⟨key.bytes, iv⟩ later wrappers service →
            ∀ wrappers' : List KeyWrapper,
              (∃ wrapper ∈ wrappers', ∃ stored ∈ surviving, wrapper.supports stored = true) →
              ∃ wrapper stored last,
                selectKey wrappers' decoded = some (wrapper, stored) ∧
                wrapper.unwrap stored later = .ok ⟨key.bytes, iv⟩ last ∧
                DecryptsUnder ⟨key.bytes, iv⟩ decoded wrappers' later last := by
  obtain ⟨-, wrapped, started⟩ := encryptWithWrappers_eq_ok.mp encrypted
  refine ⟨KeyWrapper.forall₂_of_mapM_wrap wrapped, ?_, ?_⟩
  · intro plaintext short delivers
    refine ⟨Counter.apply (cipherOf key.bytes) iv 0 plaintext,
      fun sizes positive => drain_stream delivers started positive, ?_⟩
    intro range served reader ordered serves opened sizes positive
    exact drain_range ordered short opened serves positive
  · intro surviving among
    refine ⟨(StoredKey.exists_encodeList_iff surviving).mpr, fun data written => ?_⟩
    refine ⟨surviving, StoredKey.decodeList_eq_ok.mpr written, ?_⟩
    intro σ _ later kept wrappers' supported
    obtain ⟨wrapper, stored, selected⟩ := exists_selectKey supported
    obtain ⟨member, supports⟩ := of_selectKey selected
    obtain ⟨last, unwraps⟩ :=
      KeyWrapper.unwrap_of_mapM_wrap (isKeyLength key) wrapped kept (among stored member) supports
    exact ⟨wrapper, stored, last, selected, unwraps,
      decryptsUnder_of_unwrap (isKeyLength key) selected unwraps⟩

theorem decryptWithWrappers_of_surviving_reordered :
    let parameters : ContentParameters := ⟨List.replicate 16 7, 0⟩
    let service := RecordedService.exchanging "vault:v1:x" (Base64.encodeText parameters.key)
    let wrapped : StoredKey := .wrapped (KeyWrapper.transitKey "k" "vault:v1:x" 1 parameters)
    let plain : StoredKey := .plain ⟨"AES", parameters.key, Block.toBytes parameters.iv⟩
    ∃ stream service' data decoded last,
      encryptWithWrappers ⟨⟨"a", .lengthPrefixed, 128⟩, rfl⟩ ⟨List.replicate 16 7, rfl⟩ 0
          (⟨[.data [104, 105]], []⟩ : Source) [.transit "k", .unencrypted] service =
        .ok (stream, [wrapped, plain]) service' ∧
      StoredKey.encodeList [plain, wrapped, wrapped] = .ok data ∧
      StoredKey.decodeList data = .ok decoded ∧
      DecryptsUnder parameters decoded [.transit "other", .transit "k", .unencrypted] service
        last := by
  intro parameters service wrapped plain
  have asked : KeyWrapper.wrap (.transit "k") parameters service = .ok wrapped _ :=
    KeyWrapper.wrap_transit_eq_ok.mpr ⟨"vault:v1:x", 1, rfl, by rfl, rfl⟩
  have encrypted : encryptWithWrappers ⟨⟨"a", .lengthPrefixed, 128⟩, rfl⟩
      ⟨List.replicate 16 7, rfl⟩ 0 (⟨[.data [104, 105]], []⟩ : Source)
      [.transit "k", .unencrypted] service = .ok (_, [wrapped, plain]) _ :=
    encryptWithWrappers_eq_ok.mpr ⟨nofun,
      mapM_cons_eq_ok.mpr ⟨wrapped, _, [plain], asked, rfl, rfl⟩,
      CounterReader.start_eq_ok.mpr ⟨by decide, rfl⟩⟩
  obtain ⟨-, -, survives⟩ := decryptWithWrappers_of_surviving encrypted
  obtain ⟨writes, reads⟩ := survives [plain, wrapped, wrapped] (by simp)
  obtain ⟨data, written⟩ := writes (by decide +kernel)
  obtain ⟨decoded, read, decrypts⟩ := reads data written
  obtain ⟨_, _, last, -, -, under⟩ := decrypts service
    (KeyWrapper.keptInTurn_of_keeps fun name => RecordedService.keeps_exchanging name _ _)
    [.transit "other", .transit "k", .unencrypted] ⟨.unencrypted, by simp, plain, by simp, rfl⟩
  exact ⟨_, _, data, decoded, last, encrypted, written, read, under⟩

end Engine

end KeyEnvelope
