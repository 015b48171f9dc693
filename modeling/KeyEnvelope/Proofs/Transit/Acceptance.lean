import Mathlib.Data.List.Nodup
import KeyEnvelope.Proofs.Transit.Interval
import KeyEnvelope.Proofs.Transit.Unwrapping

/-!
# What a transit service unwraps

A version of a key seals a text to wrapped texts that differ in the nonce and in how the
number of the version is spelled (`KeyVersion.Seals`).  Of all texts there are, a service
unwraps exactly these, of the versions that the key retains and admits; and for all others
the cause is one of key management (`unwrap_iff_seals`).
-/

namespace KeyEnvelope

/-- A text is a wrapped form of another one, under any nonce, by a version of the key of a
name. -/
def KeyVersion.Seals (version : KeyVersion) (name ciphertext text : String) : Prop :=
  ∃ numeral, Decimal.Spells numeral version.number ∧
    version.number ≤ TransitCiphertext.maxVersion ∧ ∃ nonce : Nonce,
      ciphertext = "vault:v" ++ String.ofList numeral ++ ":" ++ Base64.encodeText (nonce.bytes ++
        Gcm.sealText (cipherOf version.material.bytes) nonce (Utf8.encode name)
          (Utf8.encode text))

variable {key : TransitKey} {first : Nat} {version : KeyVersion}

/-- A key retains one version of a number at most. -/
theorem TransitKey.Spans.version?_of_mem (spans : key.Spans first)
    (member : version ∈ key.versions) : key.version? version.number = some version := by
  have distinct : (key.versions.map (·.number)).Nodup := by
    rw [spans.numbers]
    exact List.Ico.nodup ..
  obtain ⟨other, found⟩ : ∃ other, key.version? version.number = some other := by
    unfold version?
    rw [← Option.isSome_iff_exists, List.find?_isSome]
    exact ⟨version, member, decide_eq_true rfl⟩
  have same := List.inj_on_of_nodup_map distinct (List.mem_of_find?_eq_some found) member
    (TransitKey.number_of_version? found)
  rw [found, same]

namespace TransitStore

variable {store : TransitStore} {name ciphertext text : String}

theorem unwrap_eq_ok_iff_seals (found : store.keys[name]? = some key) (spans : key.Spans first) :
    store.unwrap name ciphertext = .ok text ↔
      ∃ version ∈ key.versions, key.minimum ≤ version.number ∧
        version.Seals name ciphertext text := by
  rw [unwrap_eq_ok found]
  refine ⟨fun stages => ?_, fun sealed => ?_⟩
  · obtain ⟨number, payload, version, data, parsed, allowed, retained, read, opened⟩ := stages
    obtain ⟨numeral, rfl, spells, fits⟩ := TransitCiphertext.parse_eq_ok.mp parsed
    obtain ⟨nonce, rfl⟩ := SealedData.plaintext_eq_ok.mp opened
    obtain rfl := TransitKey.number_of_version? retained
    refine ⟨version, List.mem_of_find?_eq_some retained, allowed, numeral, spells, fits, nonce, ?_⟩
    dsimp only
    rw [(SealedData.ofBase64_eq_ok.mp read).1]
    rfl
  · obtain ⟨version, member, allowed, numeral, spells, fits, nonce, rfl⟩ := sealed
    have read := SealedData.ofBase64_ofPlaintext version.material nonce (Utf8.encode name)
      (Utf8.encode text)
    have opened := SealedData.plaintext_ofPlaintext version.material nonce (Utf8.encode name)
      (Utf8.encode text)
    generalize form : SealedData.ofPlaintext version.material nonce (Utf8.encode name)
      (Utf8.encode text) = data at read opened
    refine ⟨version.number, data.toBase64.toList, version, data, ?_, allowed,
      spans.version?_of_mem member, ?_, opened⟩
    · refine TransitCiphertext.parse_eq_ok.mpr ⟨numeral, ?_, spells, fits⟩
      rw [String.ofList_toList, ← form]
      rfl
    · rwa [String.ofList_toList]

end TransitStore

namespace TransitClient

open TransitStore (Operation)

variable {client : TransitClient}

/-- After any run, a service unwraps a text exactly if it is what a version that the key
of the name retains, not below the minimum, seals.  For every other text the
cause is one of key management, and never that a nonce or a stored key has a wrong size. -/
theorem unwrap_iff_seals {operations : List Operation}
    (current : client.store = TransitStore.run {} operations) (name ciphertext : String) :
    (∀ text, KeyService.unwrap name ciphertext client = .ok text client ↔
      ∃ key, client.store.keys[name]? = some key ∧ ∃ version ∈ key.versions,
        key.minimum ≤ version.number ∧ version.Seals name ciphertext text) ∧
    ((∀ text, KeyService.unwrap name ciphertext client ≠ .ok text client) →
      ∃ cause, KeyService.unwrap name ciphertext client = .error (.keyManagement cause) client ∧
        ∀ size, cause ≠ .nonceSize size) ∧
    ∀ key, client.store.keys[name]? = some key → ∀ version ∈ key.versions, ∀ aad data,
      SealedData.decrypt version.material.bytes aad data =
        (data.plaintext version.material aad).mapError .keyManagement := by
  refine ⟨fun text => ?accepted, fun unaccepted => ?refused,
    fun _ _ version _ aad data => SealedData.decrypt_bytes version.material aad data⟩
  case accepted =>
    rw [unwrap_eq_ok, and_iff_left rfl]
    cases found : client.store.keys[name]? with
    | none =>
      refine ⟨fun unwrapped => absurd unwrapped (TransitStore.unwrap_ne_ok_of_unknown found),
        fun sealed => ?_⟩
      obtain ⟨key, found, -⟩ := sealed
      cases found
    | some key =>
      obtain ⟨first, spans, -⟩ := TransitStore.spans_of_run (current ▸ found)
      rw [TransitStore.unwrap_eq_ok_iff_seals found spans]
      simp only [Option.some.injEq, exists_eq_left']
  case refused =>
    rw [unwrap_eq]
    cases outcome : client.store.unwrap name ciphertext with
    | ok text => exact absurd (unwrap_eq_ok.mpr ⟨outcome, rfl⟩) (unaccepted text)
    | error cause =>
      refine ⟨cause, rfl, fun size same => ?_⟩
      rw [same] at outcome
      cases TransitStore.refused_of_unwrap outcome

/-- A wrapped text is unwrapped also with its version spelled in another way. -/
theorem unwrap_iff_seals_plus_sign :
    ∃ client : TransitClient,
      client.store = TransitStore.run {} [.createKey "a" ⟨List.replicate 32 7, rfl⟩ 0] ∧
      KeyService.unwrap "a" ("vault:v" ++ String.ofList ['+', '0', '1'] ++ ":" ++
          Base64.encodeText (List.replicate 12 9 ++ Gcm.sealText
            (cipherOf (List.replicate 32 7)) ⟨List.replicate 12 9, rfl⟩ (Utf8.encode "a")
            (Utf8.encode "key"))) client = .ok "key" client := by
  obtain ⟨client, current⟩ :=
    exists_client_of_run [.createKey "a" ⟨List.replicate 32 7, rfl⟩ 0]
  have found : client.store.keys["a"]? = some (.create ⟨List.replicate 32 7, rfl⟩ 0) := by
    rw [current, TransitStore.key_run, TransitStore.getElem?_empty]
    rfl
  have all_digits : ∀ c ∈ ['0', '1'], c.isDigit :=
    List.forall_mem_cons.mpr ⟨rfl, List.forall_mem_singleton.mpr rfl⟩
  have spells : Decimal.Spells ['+', '0', '1'] 1 :=
    ⟨['0', '1'], .inr rfl, List.cons_ne_nil _ _, all_digits, rfl⟩
  refine ⟨client, current, ((unwrap_iff_seals current "a" _).1 "key").mpr ?_⟩
  exact ⟨_, found, _, List.mem_singleton_self _, Nat.le_refl 1, _, spells, by decide,
    ⟨List.replicate 12 9, rfl⟩, rfl⟩

end TransitClient

end KeyEnvelope
