import KeyEnvelope.Proofs.Transit.Retention

/-!
# How unwrapping ends

A key that exists unwraps a text in one way: the text names a version that the key retains
and has not put below its minimum, and holds what this version has sealed
(`unwrap_eq_ok`).  Each stage on the way there has causes of its own for refusing the text,
and there are no others (`refused_of_unwrap`).
-/

namespace KeyEnvelope

namespace TransitStore

variable {store : TransitStore} {name ciphertext text : String} {key : TransitKey}
  {cause : KeyManagementError} {number : Nat}

theorem unwrap_of_unread (unread : TransitCiphertext.parse ciphertext = .error cause) :
    store.unwrap name ciphertext = .error cause := by
  unfold unwrap
  rw [unread]
  rfl

theorem unwrap_of_unknown {payload : List Char} (missing : store.keys[name]? = none)
    (parsed : TransitCiphertext.parse ciphertext = .ok ⟨number, payload⟩) :
    store.unwrap name ciphertext = .error (.keyNotFound name) := by
  unfold unwrap
  rw [parsed, find_of_none missing]
  rfl

theorem unwrap_ne_ok_of_unknown (missing : store.keys[name]? = none) :
    store.unwrap name ciphertext ≠ .ok text := by
  intro unwrapped
  cases parsed : TransitCiphertext.parse ciphertext with
  | error cause => cases (unwrap_of_unread parsed).symm.trans unwrapped
  | ok read => cases (unwrap_of_unknown missing parsed).symm.trans unwrapped

/-- A text is unwrapped exactly if it names a version that is retained and not below the
minimum, and this version opens the data that it holds to the text. -/
theorem unwrap_eq_ok (found : store.keys[name]? = some key) :
    store.unwrap name ciphertext = .ok text ↔ ∃ number payload version data,
      TransitCiphertext.parse ciphertext = .ok ⟨number, payload⟩ ∧ key.minimum ≤ number ∧
        key.version? number = some version ∧
        SealedData.ofBase64 (String.ofList payload) = .ok data ∧
        data.plaintext version.material (Utf8.encode name) = .ok (Utf8.encode text) := by
  refine ⟨fun unwrapped => ?_, fun stages => ?_⟩
  · cases parsed : TransitCiphertext.parse ciphertext with
    | error cause => cases (unwrap_of_unread parsed).symm.trans unwrapped
    | ok read =>
      obtain ⟨number, payload⟩ := read
      rcases Nat.lt_or_ge number key.minimum with below | allowed
      · cases (unwrap_of_lt_minimum found parsed below).symm.trans unwrapped
      · cases retained : key.version? number with
        | none => cases (unwrap_of_none found parsed allowed retained).symm.trans unwrapped
        | some version =>
          rw [unwrap_of_some found parsed allowed retained] at unwrapped
          obtain ⟨data, spelled, opened⟩ := Outcome.bind_eq_ok.mp unwrapped
          obtain ⟨plaintext, opened, written⟩ := Outcome.bind_eq_ok.mp opened
          cases Utf8.eq_encode_of_decode (Outcome.mapError_eq_ok.mp written)
          exact ⟨number, payload, version, data, rfl, allowed, retained, spelled, opened⟩
  · obtain ⟨number, payload, version, data, parsed, allowed, retained, spelled, opened⟩ := stages
    rw [unwrap_of_some found parsed allowed retained]
    refine Outcome.bind_eq_ok.mpr ⟨data, spelled, Outcome.bind_eq_ok.mpr ⟨_, opened, ?_⟩⟩
    exact Outcome.mapError_eq_ok.mpr (Utf8.decode_encode text)

/-- The causes for which a text is not unwrapped under a name, each with what it says of
the key. -/
inductive Refused (store : TransitStore) (name : String) : KeyManagementError → Prop
  | malformed : Refused store name .malformedCiphertext
  | scheme (found : String) : Refused store name (.scheme found)
  | versionText (found : String) : Refused store name (.versionText found)
  | unknown : store.keys[name]? = none → Refused store name (.keyNotFound name)
  | below {key : TransitKey} {number : Nat} : store.keys[name]? = some key →
    number < key.minimum → Refused store name (.versionBelowMinimum name number key.minimum)
  | missing {key : TransitKey} {number : Nat} : store.keys[name]? = some key →
    key.minimum ≤ number → key.version? number = none →
    Refused store name (.versionMissing name number)
  | undecoded (defect : Base64.Malformed) : Refused store name (.base64 defect)
  | tooShort : Refused store name .sealedDataTooShort
  | unauthentic : Refused store name .authentication
  | notText : Refused store name .unwrappedNotText

/-- A text is not unwrapped for no other reason. -/
theorem refused_of_unwrap (failed : store.unwrap name ciphertext = .error cause) :
    Refused store name cause := by
  cases parsed : TransitCiphertext.parse ciphertext with
  | error unread =>
    cases (unwrap_of_unread parsed).symm.trans failed
    rcases TransitCiphertext.parse_eq_error parsed with rfl | ⟨part, rfl⟩ | ⟨part, rfl⟩
    · exact .malformed
    · exact .scheme part
    · exact .versionText part
  | ok read =>
    obtain ⟨number, payload⟩ := read
    cases found : store.keys[name]? with
    | none =>
      cases (unwrap_of_unknown found parsed).symm.trans failed
      exact .unknown found
    | some key =>
      rcases Nat.lt_or_ge number key.minimum with below | allowed
      · cases (unwrap_of_lt_minimum found parsed below).symm.trans failed
        exact .below found below
      · cases retained : key.version? number with
        | none =>
          cases (unwrap_of_none found parsed allowed retained).symm.trans failed
          exact .missing found allowed retained
        | some version =>
          rw [unwrap_of_some found parsed allowed retained] at failed
          rcases Outcome.bind_eq_error.mp failed with unspelled | ⟨data, spelled, failed⟩
          · rcases SealedData.ofBase64_eq_error unspelled with ⟨defect, rfl⟩ | rfl
            · exact .undecoded defect
            · exact .tooShort
          · have sized := (SealedData.ofBase64_eq_ok.mp spelled).2.1
            rcases Outcome.bind_eq_error.mp failed with unopened | ⟨plaintext, -, unwritten⟩
            · cases SealedData.plaintext_eq_error sized unopened
              exact .unauthentic
            · obtain ⟨defect, -, rfl⟩ := Outcome.mapError_eq_error.mp unwritten
              exact .notText

end TransitStore

/-! ## As a service -/

namespace TransitClient

variable {client client' : TransitClient} {name ciphertext text : String}

theorem unwrap_eq_ok : KeyService.unwrap name ciphertext client = .ok text client' ↔
    client.store.unwrap name ciphertext = .ok text ∧ client' = client := by
  rw [unwrap_eq]
  cases client.store.unwrap name ciphertext <;> simp [eq_comm]

theorem unwrap_eq_error {e : EnvelopeError} :
    KeyService.unwrap name ciphertext client = .error e client' ↔ ∃ cause,
      client.store.unwrap name ciphertext = .error cause ∧ e = .keyManagement cause ∧
        client' = client := by
  rw [unwrap_eq]
  cases client.store.unwrap name ciphertext <;> simp [eq_comm]

end TransitClient

end KeyEnvelope
