import KeyEnvelope.RecordedService
import KeyEnvelope.Proofs.Engine.RoundTrip
import KeyEnvelope.Proofs.Range

/-!
# Decrypting a range

A range of content with stored keys is decrypted from any part of the ciphertext that
begins at the block of the range and reaches its end (`Source.Serves`).  The reader
gives out the bytes of the range and nothing else, and uses up no more of what it was
served than the range and the bytes before it in its first block.
-/

namespace KeyEnvelope

/-- A source serves a range of a ciphertext: without failing it delivers a part of it
that begins at the block of the range and reaches to its end. -/
structure Source.Serves (source : Source) (range : ByteRange) (ciphertext : Bytes) : Prop where
  steady : Script.Steady source.pieces
  within : Script.content source.pieces <+: ciphertext.drop (blockStart range.start).toNat
  reaches : range.stop ciphertext.length ≤
    (blockStart range.start).toNat + (Script.content source.pieces).length

/-- The whole ciphertext from a block on serves every range that starts in the block. -/
theorem Source.Delivers.serves {source : Source} {range : ByteRange} {ciphertext : Bytes}
    (delivers : source.Delivers (ciphertext.drop (blockStart range.start).toNat)) :
    source.Serves range ciphertext where
  steady := delivers.steady
  within := delivers.content ▸ List.prefix_rfl
  reaches := by
    have inside := range.stop_le ciphertext.length
    rw [delivers.content, List.length_drop]
    omega

namespace Engine

open ScriptedReader (script)

variable {parameters : ContentParameters} {range : ByteRange} {served : Source}
  {plaintext : Bytes} {reader : DecryptingReader Source}

/-- A reader opened on a served range reads as the range of the plaintext. -/
theorem drain_range (ordered : range.Ordered) (short : plaintext.length < UInt64.size)
    (opened : openAt parameters range.start served = .ok reader)
    (serves : served.Serves range
      (Counter.apply (cipherOf parameters.key) parameters.iv 0 plaintext))
    {sizes : Nat → Nat} (positive : ∀ i, 0 < sizes i) :
    (Reader.drain sizes (⟨reader, range.limit⟩ : RangeReader Source)).1 =
      (range.slice plaintext, none) := by
  rcases of_openAt opened with ⟨-, -, pending⟩
  have steady := steady_of_openAt opened serves.steady
  have content := content_of_openAt_prefix opened serves.within
  have reaches := serves.reaches
  rw [Counter.length_apply, ← Source.script_eq] at reaches
  have start := Counter.blockStart_add_blockRemainder range.start
  have account := LimitedReader.account (SkippingReader.steady_account (ρ := CounterReader Source))
  rw [account.drain (LimitedReader.answers SkippingReader.answers) positive steady]
  refine congrArg (·, none) ?_
  dsimp only
  rw [content, pending, List.drop_take, List.drop_drop, start]
  refine ByteRange.take_limit ordered short ?_
  omega

/-- Reading a range uses up no more than the range and what stands before it in its
first block. -/
theorem length_content_of_range {last : UInt64} (bounded : range.last = some last)
    (in_order : range.start ≤ last)
    (opened : openAt parameters range.start served = .ok reader)
    (steady : Script.Steady served.pieces) (sizes : List Nat) :
    (Script.content served.pieces).length ≤
      range.start.toNat % 16 + (last.toNat - range.start.toNat + 1) +
        (Script.content (Reader.requests sizes
          (⟨reader, range.limit⟩ : RangeReader Source)).2.inner.inner.inner.pieces).length := by
  rcases of_openAt opened with ⟨-, inner, pending⟩
  have used := SkippingReader.length_content_of_requests sizes
    (r := (⟨reader, range.limit⟩ : RangeReader Source)) (steady_of_openAt opened steady)
  rw [CounterReader.content_script, CounterReader.content_script, Counter.length_apply,
    Counter.length_apply, inner, pending, Counter.toNat_blockRemainder] at used
  simp only [Source.script_eq] at used
  have limit := ByteRange.limit_of_last bounded in_order
  omega

variable {κ : Type} [KeyService κ] {engine : Engine}
  {key : KeyMaterial engine.settings.keyLength} {iv : Block} {service service' : κ}

theorem exists_encryptWithWrappers_unencrypted (source : Source) (service : κ) :
    ∃ stream stored, engine.encryptWithWrappers key iv source [.unencrypted] service =
        .ok (stream, [stored]) service ∧
      KeyWrapper.wrap .unencrypted ⟨key.bytes, iv⟩ service = .ok stored service :=
  ⟨_, _, encryptWithWrappers_eq_ok.mpr
    ⟨nofun, rfl, CounterReader.start_eq_ok.mpr ⟨isKeyLength key, rfl⟩⟩, rfl⟩

/-- Of content that was encrypted with stored keys, a range is decrypted exactly, by any
stored key that unwraps to the parameters of the content and from any source that serves
the range, and what is behind the range is left in the source. -/
theorem decryptWithWrappers_encryptWithWrappers {source : Source} {wrappers : List KeyWrapper}
    {stream : CounterReader Source} {keys : List StoredKey}
    (short : plaintext.length < UInt64.size) (delivers : source.Delivers plaintext)
    (encrypted : engine.encryptWithWrappers key iv source wrappers service =
      .ok (stream, keys) service') :
    ∃ ciphertext : Bytes, ciphertext.length = plaintext.length ∧
      (∀ sizes, (∀ i, 0 < sizes i) → (Reader.drain sizes stream).1 = (ciphertext, none)) ∧
      ∀ {σ φ : Type} [KeyService σ] (range : ByteRange), range.Ordered →
        ∀ (keys : List StoredKey) (wrappers : List KeyWrapper) (wrapper : KeyWrapper)
          (stored : StoredKey) (later last : σ) (fetch : ByteRange → EStateM StreamError φ Source)
          (place place' : φ) (served : Source),
          selectKey wrappers keys = some (wrapper, stored) →
          wrapper.unwrap stored later = .ok ⟨key.bytes, iv⟩ last →
          fetch range.blockAligned place = .ok served place' →
          served.Serves range ciphertext →
          ∃ reader : RangeReader Source,
            decryptWithWrappers keys wrappers range fetch (later, place) =
              .ok reader (last, place') ∧
            (∀ sizes, (∀ i, 0 < sizes i) →
              (Reader.drain sizes reader).1 = (range.slice plaintext, none)) ∧
            ∀ stop, range.last = some stop → ∀ sizes,
              (Script.content served.pieces).length ≤
                range.start.toNat % 16 + (stop.toNat - range.start.toNat + 1) +
                  (Script.content
                    (Reader.requests sizes reader).2.inner.inner.inner.pieces).length := by
  rcases encryptWithWrappers_eq_ok.mp encrypted with ⟨-, -, started⟩
  refine ⟨Counter.apply (cipherOf key.bytes) iv 0 plaintext, Counter.length_apply ..,
    fun sizes positive => drain_stream delivers started positive, ?_⟩
  intro σ φ _ range ordered keys wrappers wrapper stored later last fetch place place' served
    selected unwraps fetched serves
  obtain ⟨reader, opened⟩ : ∃ reader, openAt ⟨key.bytes, iv⟩ range.start served = .ok reader :=
    openAt_of_isKeyLength (isKeyLength key) range.start served
  refine ⟨⟨reader, range.limit⟩, ?_, ?_, ?_⟩
  · exact decryptWithWrappers_eq_ok.mpr
      ⟨wrapper, stored, _, served, reader, selected, unwraps, fetched, opened, rfl⟩
  · exact fun sizes positive => drain_range ordered short opened serves positive
  · exact fun stop bounded sizes =>
      length_content_of_range bounded (ordered stop bounded) opened serves.steady sizes

theorem decryptWithWrappers_encryptWithWrappers_second_byte :
    ∃ stream stored ciphertext reader,
      encryptWithWrappers ⟨⟨"a", .lengthPrefixed, 128⟩, rfl⟩ ⟨List.replicate 16 7, rfl⟩
          (BitVec.allOnes 128) (⟨[.data [104, 105], .data [106]], []⟩ : Source) [.unencrypted]
          (RecordedService.returning "") =
        .ok (stream, [stored]) (RecordedService.returning "") ∧
      (Reader.drain (fun _ => 1) stream).1 = (ciphertext, none) ∧
      decryptWithWrappers [stored] [.unencrypted] ⟨1, some 1⟩
          (fun _ place => .ok (⟨[.data ciphertext], []⟩ : Source) place)
          (RecordedService.returning "", ()) = .ok reader (RecordedService.returning "", ()) ∧
      (Reader.drain (fun _ => 1) reader).1 = ([105], none) ∧
      ∀ sizes, ciphertext.length ≤ 2 + (Script.content
        (Reader.requests sizes reader).2.inner.inner.inner.pieces).length := by
  have delivers : (⟨[.data [104, 105], .data [106]], []⟩ : Source).Delivers [104, 105, 106] :=
    ⟨⟨by simp [Script.Filled], by simp⟩, rfl⟩
  obtain ⟨stream, stored, encrypted, wrapped⟩ :=
    @exists_encryptWithWrappers_unencrypted _ _ ⟨⟨"a", .lengthPrefixed, 128⟩, rfl⟩
      ⟨List.replicate 16 7, rfl⟩ (BitVec.allOnes 128) ⟨[.data [104, 105], .data [106]], []⟩
      (RecordedService.returning "")
  obtain ⟨supported, unwraps⟩ : _ ∧ KeyWrapper.unwrap .unencrypted stored
      (RecordedService.returning "") = .ok _ (RecordedService.returning "") :=
    KeyWrapper.unwrap_of_wrap_unencrypted (by decide) wrapped
  obtain ⟨ciphertext, length, yields, decrypts⟩ :=
    decryptWithWrappers_encryptWithWrappers (by decide) delivers encrypted
  have nonempty : ciphertext ≠ [] := fun empty => (by simp [empty] at length)
  have whole : (⟨[.data ciphertext], []⟩ : Source).Delivers (ciphertext.drop 0) :=
    ⟨⟨by simp [Script.Filled, nonempty], by simp⟩, by simp⟩
  have ordered : (⟨1, some 1⟩ : ByteRange).Ordered := by
    intro last bounded
    cases bounded
    decide
  have selected : selectKey [.unencrypted] [stored] = some (.unencrypted, stored) := by
    simp [selectKey, supported]
  obtain ⟨reader, decrypted, reads, uses⟩ := decrypts ⟨1, some 1⟩ ordered [stored] [.unencrypted]
    .unencrypted stored (RecordedService.returning "") _ (fun _ place => .ok _ place) () () _
    selected unwraps rfl whole.serves
  refine ⟨stream, stored, ciphertext, reader, encrypted, yields _ fun _ => Nat.one_pos, decrypted,
    reads _ fun _ => Nat.one_pos, fun sizes => ?_⟩
  have used := uses 1 rfl sizes
  rwa [whole.content] at used

end Engine

end KeyEnvelope
