import Mathlib.Algebra.Order.Ring.Nat
import KeyEnvelope.Proofs.RecordedService
import KeyEnvelope.Proofs.Transit.Interval
import KeyEnvelope.Proofs.Wrapper

/-!
# The version that a wrapped text names

A text names a version if the version is spelled between the scheme and the second colon,
whatever follows there (`Names`); a text that names none is refused for its parts, its
scheme or the spelling (`Refused`).  Reading the version of a text is deciding between the
two (`parseKeyVersion_eq_ok`, `parseKeyVersion_eq_error`).  What a transit service wraps
names the latest version of the key in its plain spelling, and in that spelling a stored
key keeps the version, however the service has spelled it.
-/

namespace KeyEnvelope

namespace TransitCiphertext

variable {text lead middle rest : String} {version : Nat} {cause : KeyManagementError}

/-- A text names a version that is spelled between the scheme and the second colon. -/
def Names (text : String) (version : Nat) : Prop :=
  ∃ numeral rest : String, text = "vault:v" ++ numeral ++ ":" ++ rest ∧
    Decimal.Spells numeral.toList version ∧ version ≤ maxVersion

/-- A text that names no version is refused for the first of three reasons. -/
inductive Refused (text : String) : KeyManagementError → Prop
  /-- It has no two colons. -/
  | parts (few : text.toList.count ':' < 2) : Refused text .malformedCiphertext
  /-- Another scheme stands before the first colon. -/
  | scheme {lead middle rest : String} (parts : text = lead ++ ":" ++ middle ++ ":" ++ rest)
      (first : ':' ∉ lead.toList) (second : ':' ∉ middle.toList) (foreign : lead ≠ "vault") :
      Refused text (.scheme lead)
  /-- No version that a wrapped text can name is spelled between the colons. -/
  | version {middle rest : String} (parts : text = "vault" ++ ":" ++ middle ++ ":" ++ rest)
      (second : ':' ∉ middle.toList)
      (unread : ∀ (numeral : String) (version : Nat), middle = "v" ++ numeral →
        Decimal.Spells numeral.toList version → maxVersion < version) :
      Refused text (.versionText middle)

/-! ## Reading a version -/

theorem parseKeyVersion_eq_ok : parseKeyVersion text = .ok version ↔ Names text version := by
  refine ⟨fun reads => ?_, fun names => ?_⟩
  · unfold parseKeyVersion at reads
    cases parsed : parse text with
    | error cause =>
      rw [parsed] at reads
      cases reads
    | ok ciphertext =>
      rw [parsed] at reads
      cases reads
      obtain ⟨numeral, rfl, spells, fits⟩ := parse_eq_ok.mp parsed
      exact ⟨String.ofList numeral, _, rfl, String.toList_ofList ▸ spells, fits⟩
  · obtain ⟨numeral, rest, rfl, spells, fits⟩ := names
    have parsed : parse ("vault:v" ++ numeral ++ ":" ++ rest) = .ok ⟨version, rest.toList⟩ :=
      parse_eq_ok.mpr
        ⟨numeral.toList, by rw [String.ofList_toList, String.ofList_toList], spells, fits⟩
    unfold parseKeyVersion
    rw [parsed]
    rfl

theorem parseVersion_eq_error {part : List Char} : parseVersion part = .error cause ↔
    cause = .versionText (String.ofList part) ∧ ∀ numeral version, part = 'v' :: numeral →
      Decimal.Spells numeral version → maxVersion < version := by
  have sole : ∀ {cause}, parseVersion part = .error cause →
      cause = .versionText (String.ofList part) := by
    intro cause failed
    unfold parseVersion at failed
    split at failed
    next numeral =>
      obtain ⟨_, -, rfl⟩ := Outcome.mapError_eq_error.mp failed
      rfl
    next =>
      cases failed
      rfl
  have unread : (∀ numeral version, part = 'v' :: numeral → Decimal.Spells numeral version →
      maxVersion < version) ↔ ∀ version, parseVersion part ≠ .ok version := by
    simp only [ne_eq, parseVersion_eq_ok, not_exists, not_and, Nat.not_le]
    exact forall_comm
  rw [unread]
  cases parsed : parseVersion part with
  | ok version => simp
  | error found => simp [sole parsed, eq_comm]

/-- A text is made of three parts between its first two colons, unless it has no two. -/
theorem few_or_parts (text : String) : text.toList.count ':' < 2 ∨ ∃ lead middle rest : String,
    text = lead ++ ":" ++ middle ++ ":" ++ rest ∧ ':' ∉ lead.toList ∧ ':' ∉ middle.toList := by
  by_cases some : ':' ∈ text.toList
  · obtain ⟨lead, others, whole, first⟩ := List.eq_append_cons_of_mem some
    by_cases another : ':' ∈ others
    · obtain ⟨middle, rest, rfl, second⟩ := List.eq_append_cons_of_mem another
      refine .inr ⟨String.ofList lead, String.ofList middle, String.ofList rest, ?_, ?_, ?_⟩
      · rw [← String.toList_inj, whole]
        simp
      · rwa [String.toList_ofList]
      · rwa [String.toList_ofList]
    · refine .inl ?_
      rw [whole, List.count_append, List.count_cons_self, List.count_eq_zero_of_not_mem first,
        List.count_eq_zero_of_not_mem another]
      decide
  · exact .inl (by rw [List.count_eq_zero_of_not_mem some]; decide)

theorem parseKeyVersion_of_few (few : text.toList.count ':' < 2) :
    parseKeyVersion text = .error .malformedCiphertext := by
  unfold parseKeyVersion
  rcases parse_cases text with malformed | ⟨lead, rest, middle, payload, first, second⟩
  · rw [malformed]
    rfl
  · rw [(Text.cut?_eq_some_iff.mp first).1, (Text.cut?_eq_some_iff.mp second).1] at few
    simp only [List.count_append, List.count_cons_self] at few
    omega

theorem parseKeyVersion_of_parts (first : ':' ∉ lead.toList) (second : ':' ∉ middle.toList) :
    parseKeyVersion (lead ++ ":" ++ middle ++ ":" ++ rest) =
      if lead ≠ "vault" then .error (.scheme lead) else parseVersion middle.toList := by
  have whole : (lead ++ ":" ++ middle ++ ":" ++ rest).toList =
      lead.toList ++ ':' :: (middle.toList ++ ':' :: rest.toList) := by simp
  have same : lead.toList ≠ scheme ↔ lead ≠ "vault" := not_congr String.toList_inj
  unfold parseKeyVersion
  rw [parse_of_cut (Text.cut?_eq_some_iff.mpr ⟨whole, first⟩)
    (Text.cut?_eq_some_iff.mpr ⟨rfl, second⟩)]
  simp only [same, String.ofList_toList]
  split
  next => rfl
  next => cases parseVersion middle.toList <;> rfl

theorem parseKeyVersion_eq_error :
    parseKeyVersion text = .error cause ↔ Refused text cause := by
  refine ⟨fun failed => ?_, fun refused => ?_⟩
  · rcases few_or_parts text with few | ⟨lead, middle, rest, rfl, first, second⟩
    · cases (parseKeyVersion_of_few few).symm.trans failed
      exact .parts few
    · rw [parseKeyVersion_of_parts first second] at failed
      split at failed
      next foreign =>
        cases failed
        exact .scheme rfl first second foreign
      next own =>
        cases not_not.mp own
        obtain ⟨rfl, unread⟩ := parseVersion_eq_error.mp failed
        rw [String.ofList_toList]
        refine .version rfl second fun numeral version spelled => ?_
        subst spelled
        exact unread numeral.toList version (String.toList_append ..)
  · cases refused with
    | parts few => exact parseKeyVersion_of_few few
    | scheme parts first second foreign =>
      rw [parts, parseKeyVersion_of_parts first second, if_pos foreign]
    | @version middle rest parts second unread =>
      have own : ':' ∉ "vault".toList := by decide
      have failed : parseVersion middle.toList =
          .error (.versionText (String.ofList middle.toList)) := by
        refine parseVersion_eq_error.mpr ⟨rfl, fun numeral version spelled spells => ?_⟩
        refine unread (String.ofList numeral) version ?_ (String.toList_ofList ▸ spells)
        rw [← String.toList_inj, spelled]
        simp
      rw [parts, parseKeyVersion_of_parts own second, if_neg (not_not.mpr rfl), failed,
        String.ofList_toList]

theorem names_toString (fits : version ≤ maxVersion) (payload : String) :
    Names ("vault:v" ++ toString version ++ ":" ++ payload) version :=
  ⟨_, payload, rfl, Decimal.spells_toString version, fits⟩

end TransitCiphertext

open TransitCiphertext (Names Refused parseKeyVersion)

/-! ## Wrapping -/

namespace KeyWrapper

variable {κ : Type} [KeyService κ] {service service' : κ} {keyName ciphertext : String}
  {parameters : ContentParameters} {version : Nat} {cause : KeyManagementError}

/-- A stored key keeps the version that the service's answer names, in its plain
spelling. -/
theorem wrap_transit_of_names
    (answered : KeyService.wrap keyName (Base64.encodeText parameters.key) service =
      .ok ciphertext service') (names : Names ciphertext version) :
    ∃ record, (transit keyName).wrap parameters service = .ok (.wrapped record) service' ∧
      record.encryptedKeyData = Utf8.encode ciphertext ∧
      record.wrappingKeyVersion = toString version := by
  have reads := TransitCiphertext.parseKeyVersion_eq_ok.mpr names
  exact ⟨_, wrap_transit_eq_ok.mpr ⟨ciphertext, version, answered, reads, rfl⟩, rfl, rfl⟩

/-- No stored key is made of an answer that names no version. -/
theorem wrap_transit_of_refused
    (answered : KeyService.wrap keyName (Base64.encodeText parameters.key) service =
      .ok ciphertext service') (refused : Refused ciphertext cause) :
    (transit keyName).wrap parameters service = .error (.keyManagement cause) service' := by
  have unread := TransitCiphertext.parseKeyVersion_eq_error.mpr refused
  exact (bind_of_ok answered).trans
    (bind_of_error (attempt_eq_error.mpr ⟨cause, unread, rfl, rfl⟩))

end KeyWrapper

namespace TransitCiphertext

/-- A version is read of the texts with the scheme, a spelling of a version of four bytes
behind a `v`, and a colon, whatever follows; and for every other text there is a cause.  So
it is read of everything that is wrapped, and stored keys keep its plain spelling. -/
theorem parseKeyVersion_exact :
    (∀ text version, parseKeyVersion text = .ok version ↔ ∃ numeral rest : String,
      text = "vault:v" ++ numeral ++ ":" ++ rest ∧ Decimal.Spells numeral.toList version ∧
        version ≤ 2 ^ 32 - 1) ∧
    (∀ text, (∀ version, ¬ Names text version) →
      ∃ cause, parseKeyVersion text = .error cause ∧ Refused text cause) ∧
    (∀ (version : UInt32) (payload : String),
      parseKeyVersion ("vault:v" ++ toString version.toNat ++ ":" ++ payload) =
        .ok version.toNat) ∧
    (∀ (store : TransitStore) name nonce text ciphertext,
      store.wrap name nonce text = .ok ciphertext → ∃ key payload,
        store.keys[name]? = some key ∧
          ciphertext = "vault:v" ++ toString key.latest ++ ":" ++ payload) ∧
    (∀ (client : TransitClient) keyName parameters key version,
      client.store.keys[keyName]? = some key → key.version? key.latest = some version →
        key.latest ≤ 2 ^ 32 - 1 → ∃ payload record client',
          (KeyWrapper.transit keyName).wrap parameters client =
              .ok (.wrapped record) client' ∧
            record.encryptedKeyData =
              Utf8.encode ("vault:v" ++ toString key.latest ++ ":" ++ payload) ∧
            record.wrappingKeyVersion = toString key.latest) ∧
    ∀ {κ : Type} [KeyService κ] keyName parameters (service service' : κ) ciphertext,
      KeyService.wrap keyName (Base64.encodeText parameters.key) service =
          .ok ciphertext service' →
        (∀ (version : UInt32) payload,
          ciphertext = "vault:v" ++ toString version.toNat ++ ":" ++ payload → ∃ record,
            (KeyWrapper.transit keyName).wrap parameters service =
                .ok (.wrapped record) service' ∧
              record.wrappingKeyVersion = toString version.toNat) ∧
        (∀ version, Names ciphertext version → ∃ record,
          (KeyWrapper.transit keyName).wrap parameters service =
              .ok (.wrapped record) service' ∧
            record.wrappingKeyVersion = toString version) ∧
        ∀ cause, Refused ciphertext cause →
          (KeyWrapper.transit keyName).wrap parameters service =
            .error (.keyManagement cause) service' := by
  have small (version : UInt32) : version.toNat ≤ maxVersion :=
    Nat.le_pred_of_lt version.toNat_lt
  refine ⟨fun text version => parseKeyVersion_eq_ok, fun text nameless => ?_,
    fun version payload => parseKeyVersion_eq_ok.mpr (names_toString (small version) payload),
    fun store name nonce text ciphertext => TransitStore.exists_eq_of_wrap, ?_, ?_⟩
  · cases reads : parseKeyVersion text with
    | ok version => exact absurd (parseKeyVersion_eq_ok.mp reads) (nameless version)
    | error cause => exact ⟨cause, rfl, parseKeyVersion_eq_error.mp reads⟩
  · intro client keyName parameters key version found newest fits
    obtain ⟨nonce, client', wrapped, -⟩ :=
      TransitClient.wrap_of_some found newest (Base64.encodeText parameters.key)
    obtain ⟨payload, form⟩ := TransitStore.exists_issued_eq newest
    rw [form] at wrapped
    obtain ⟨record, wraps, kept⟩ :=
      KeyWrapper.wrap_transit_of_names wrapped (names_toString fits payload)
    exact ⟨payload, record, client', wraps, kept⟩
  · intro κ _ keyName parameters service service' ciphertext answered
    have named (version) (names : Names ciphertext version) : ∃ record,
        (KeyWrapper.transit keyName).wrap parameters service = .ok (.wrapped record) service' ∧
          record.wrappingKeyVersion = toString version := by
      obtain ⟨record, wraps, -, kept⟩ := KeyWrapper.wrap_transit_of_names answered names
      exact ⟨record, wraps, kept⟩
    refine ⟨fun version payload form => ?_, named, fun cause => ?_⟩
    · exact named version.toNat (form ▸ names_toString (small version) payload)
    · exact KeyWrapper.wrap_transit_of_refused answered

/-- The largest version is read behind a sign and zeros, and a stored key keeps it without
them.  The next number is none that a text can name, so nothing is stored with it.  A key
that was rotated once is named by its second version. -/
theorem parseKeyVersion_exact_largest :
    let largest := "vault:v+004294967295:a:b"
    let beyond := "vault:v4294967296:a"
    let service (answer : String) := RecordedService.ofReplies fun _ => .ok answer
    let parameters : ContentParameters := ⟨List.replicate 16 7, 0⟩
    let call := ServiceCall.wrap "k" (Base64.encodeText parameters.key)
    parseKeyVersion largest = .ok 4294967295 ∧
      (∃ record, (KeyWrapper.transit "k").wrap parameters (service largest) =
          .ok (.wrapped record) ((service largest).after call) ∧
        record.wrappingKeyVersion = toString 4294967295) ∧
      (∃ cause, parseKeyVersion beyond = .error cause ∧
        (KeyWrapper.transit "k").wrap parameters (service beyond) =
          .error (.keyManagement cause) ((service beyond).after call)) ∧
      ∃ (client client' : TransitClient) (record : WrappedKey),
        (KeyWrapper.transit "k").wrap parameters client = .ok (.wrapped record) client' ∧
          record.wrappingKeyVersion = toString 2 := by
  intro largest beyond service parameters call
  obtain ⟨reads, refuses, -, -, kept, answers⟩ := parseKeyVersion_exact
  have answered (answer : String) :
      KeyService.wrap "k" (Base64.encodeText parameters.key) (service answer) =
        .ok answer ((service answer).after call) := RecordedService.wrap_eq_ok.mpr ⟨rfl, rfl⟩
  have spells : Decimal.Spells "+004294967295".toList 4294967295 :=
    ⟨"004294967295".toList, .inr rfl, by simp, by simp, rfl⟩
  have names : Names largest 4294967295 := ⟨"+004294967295", "a:b", by decide, spells, by decide⟩
  have nameless (version : Nat) : ¬ Names beyond version := by
    have unread : parseKeyVersion "vault:v4294967296:a" =
        .error (.versionText "v4294967296") := by rfl
    intro names
    cases unread.symm.trans ((reads beyond version).mpr names)
  obtain ⟨client, current⟩ := TransitClient.exists_client_of_run [
    .createKey "k" ⟨List.replicate 32 7, rfl⟩ 0, .rotate "k" ⟨List.replicate 32 8, rfl⟩ 1]
  have found : client.store.keys["k"]? = some
      ⟨[⟨1, ⟨List.replicate 32 7, rfl⟩, 0⟩, ⟨2, ⟨List.replicate 32 8, rfl⟩, 1⟩], 2, 1⟩ := by
    rw [current, TransitStore.key_run, TransitStore.getElem?_empty]
    rfl
  refine ⟨(reads _ _).mpr names, (answers _ _ _ _ _ (answered largest)).2.1 _ names, ?_, ?_⟩
  · obtain ⟨cause, unread, refused⟩ := refuses beyond nameless
    exact ⟨cause, unread, (answers _ _ _ _ _ (answered beyond)).2.2 cause refused⟩
  · obtain ⟨-, record, client', wraps, -, version⟩ :=
      kept client "k" parameters _ _ found rfl (by decide)
    exact ⟨client, client', record, wraps, version⟩

end TransitCiphertext

end KeyEnvelope
