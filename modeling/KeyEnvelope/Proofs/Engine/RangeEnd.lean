import KeyEnvelope.Proofs.Engine.Range

/-!
# The end of a range

A reader of a range that has an end gives out what its source holds behind the start of
the range, up to the limit of the range (`left_of_openAt_range`).  The limit is what keeps
it inside the range, however much the source holds.  A range whose end comes before its
start has a limit that does not bind, so its reader stays inside the range only if there
is nothing behind the start to give out (`admits_iff_of_openAt`).
-/

namespace KeyEnvelope.Engine

open ScriptedReader (script)

variable {parameters : ContentParameters} {range : ByteRange} {served : Source}
  {plaintext : Bytes} {reader : DecryptingReader Source}

/-- What a range reader has to give out: of the plaintext behind the start of the range
what the source holds, up to the limit. -/
theorem left_of_openAt_range (opened : openAt parameters range.start served = .ok reader)
    (within : Script.content served.pieces <+: (Counter.apply (cipherOf parameters.key)
      parameters.iv 0 plaintext).drop (blockStart range.start).toNat) :
    ((script reader.inner).content.drop reader.pending).take range.limit =
      ((plaintext.drop range.start.toNat).take ((Script.content served.pieces).length -
        range.start.toNat % 16)).take range.limit := by
  rcases of_openAt opened with ⟨-, -, pending⟩
  have content := content_of_openAt_prefix opened within
  have start := Counter.blockStart_add_blockRemainder range.start
  rw [content, Source.script_eq, pending, List.drop_take, List.drop_drop, start,
    Counter.toNat_blockRemainder]

/-- A range reader on a source that does not fail gives this out however it is asked. -/
theorem gives_of_openAt_range (opened : openAt parameters range.start served = .ok reader)
    (steady : Script.Steady served.pieces)
    (within : Script.content served.pieces <+: (Counter.apply (cipherOf parameters.key)
      parameters.iv 0 plaintext).drop (blockStart range.start).toNat) :
    Reader.Gives (⟨reader, range.limit⟩ : RangeReader Source)
      (((plaintext.drop range.start.toNat).take ((Script.content served.pieces).length -
        range.start.toNat % 16)).take range.limit) := by
  have account := LimitedReader.account (SkippingReader.steady_account (ρ := CounterReader Source))
  rw [← left_of_openAt_range opened within]
  exact account.gives (LimitedReader.answers SkippingReader.answers)
    (steady_of_openAt opened steady)

/-- A range reader stays inside its range exactly if the end does not come before the
start, or the source holds nothing behind the start. -/
theorem admits_iff_of_openAt {last : UInt64} (bounded : range.last = some last)
    (opened : openAt parameters range.start served = .ok reader)
    (steady : Script.Steady served.pieces)
    (within : Script.content served.pieces <+: (Counter.apply (cipherOf parameters.key)
      parameters.iv 0 plaintext).drop (blockStart range.start).toNat) :
    (∀ sizes, range.Admits last plaintext (Reader.delivered
        (Reader.requests sizes (⟨reader, range.limit⟩ : RangeReader Source)).1)) ↔
      range.start ≤ last ∨ (Script.content served.pieces).length ≤ range.start.toNat % 16 := by
  have account := LimitedReader.account (SkippingReader.steady_account (ρ := CounterReader Source))
  have held : (Script.content served.pieces).length - range.start.toNat % 16 ≤
      plaintext.length - range.start.toNat := by
    have short := within.length_le
    have start := Counter.blockStart_add_blockRemainder range.start
    rw [List.length_drop, Counter.length_apply] at short
    rw [Counter.toNat_blockRemainder] at start
    omega
  simp only [ByteRange.admits_iff bounded]
  rw [account.delivered_prefix_iff (steady_of_openAt opened steady),
    left_of_openAt_range opened within, ByteRange.take_limit_prefix_slice_iff bounded held,
    Nat.sub_eq_zero_iff_le]

variable {κ φ : Type} [KeyService κ] {service service' : κ} {place place' : φ}

/-- Whatever keys and wrappers a range is decrypted with and however much of the
ciphertext the fetch serves, the reader stays inside the range exactly if the end of the
range does not come before its start, or nothing behind the start is served.  Where the
end does come before the start, it gives out all that is served behind the start, as far
as a word can count it. -/
theorem admits_iff_of_decryptWithWrappers {last : UInt64} {wrappers : List KeyWrapper}
    {keys : List StoredKey} {fetch : ByteRange → EStateM StreamError φ Source}
    {limited : RangeReader Source} (bounded : range.last = some last)
    (decrypted : decryptWithWrappers keys wrappers range fetch (service, place) =
      .ok limited (service', place')) :
    ∃ wrapper key parameters served,
      selectKey wrappers keys = some (wrapper, key) ∧
      wrapper.unwrap key service = .ok parameters service' ∧
      fetch range.blockAligned place = .ok served place' ∧
      (Script.Steady served.pieces → ∀ plaintext,
        Script.content served.pieces <+: (Counter.apply (cipherOf parameters.key)
          parameters.iv 0 plaintext).drop (blockStart range.start).toNat →
        ((∀ sizes, range.Admits last plaintext
            (Reader.delivered (Reader.requests sizes limited).1)) ↔
          range.start ≤ last ∨
            (Script.content served.pieces).length ≤ range.start.toNat % 16) ∧
        (last < range.start → Reader.Gives limited
          (((plaintext.drop range.start.toNat).take ((Script.content served.pieces).length -
            range.start.toNat % 16)).take (UInt64.size - 1)))) := by
  obtain ⟨wrapper, key, parameters, served, reader, selected, unwraps, fetched, opened, rfl⟩ :=
    decryptWithWrappers_eq_ok.mp decrypted
  refine ⟨wrapper, key, parameters, served, selected, unwraps, fetched,
    fun steady plaintext within => ⟨admits_iff_of_openAt bounded opened steady within, ?_⟩⟩
  intro inverted
  rw [← ByteRange.limit_of_inverted bounded inverted]
  exact gives_of_openAt_range opened steady within

/-- A range of a content whose key is kept in the clear is decrypted from whatever the
fetch serves. -/
theorem exists_decryptWithWrappers_unencrypted (fits : Aes.IsKeyLength parameters.key.length)
    (range : ByteRange) (served : Source) (service : κ) :
    ∃ stored reader, selectKey [.unencrypted] [stored] = some (.unencrypted, stored) ∧
      KeyWrapper.unwrap .unencrypted stored service = .ok parameters service ∧
      openAt parameters range.start served = .ok reader ∧
      decryptWithWrappers [stored] [.unencrypted] range (fun _ place => .ok served place)
        (service, ()) = .ok ⟨reader, range.limit⟩ (service, ()) := by
  obtain ⟨stored, wrapped⟩ : ∃ stored, KeyWrapper.wrap .unencrypted parameters service =
      .ok stored service := ⟨_, rfl⟩
  obtain ⟨supported, unwraps⟩ : _ ∧ KeyWrapper.unwrap .unencrypted stored service =
    .ok parameters service := KeyWrapper.unwrap_of_wrap_unencrypted fits wrapped
  obtain ⟨reader, opened⟩ := openAt_of_isKeyLength fits range.start served
  have selected : selectKey [.unencrypted] [stored] = some (.unencrypted, stored) := by
    simp [selectKey, supported]
  refine ⟨stored, reader, selected, unwraps, opened, ?_⟩
  exact decryptWithWrappers_eq_ok.mpr
    ⟨_, stored, parameters, served, reader, selected, unwraps, rfl, opened, rfl⟩

/-- A source of three bytes serves the encrypted form of what they decrypt to. -/
theorem within_of_three_bytes (cipher : Block → Block) (iv : Block) :
    Script.content [.data [104, 105, 106]] <+:
      (Counter.apply cipher iv 0 (Counter.apply cipher iv 0 [104, 105, 106])).drop
        (blockStart 1).toNat := by
  rw [Counter.apply_apply]
  exact List.prefix_rfl

/-- Of three bytes that a source serves for a range of one, this one alone is given out. -/
theorem admits_of_overfull_source :
    ∃ stored limited,
      decryptWithWrappers [stored] [.unencrypted] ⟨1, some 1⟩
        (fun _ place => .ok (⟨[.data [104, 105, 106]], []⟩ : Source) place)
        (RecordedService.returning "", ()) = .ok limited (RecordedService.returning "", ()) ∧
      ∀ sizes, ByteRange.Admits ⟨1, some 1⟩ 1
        (Counter.apply (cipherOf (List.replicate 16 7)) (BitVec.allOnes 128) 0 [104, 105, 106])
        (Reader.delivered (Reader.requests sizes limited).1) := by
  obtain ⟨stored, reader, selected, unwraps, -, decrypted⟩ :=
    @exists_decryptWithWrappers_unencrypted ⟨List.replicate 16 7, BitVec.allOnes 128⟩ _ _
      (by decide) ⟨1, some 1⟩ ⟨[.data [104, 105, 106]], []⟩ (RecordedService.returning "")
  obtain ⟨wrapper, key, parameters, served, selected', unwraps', fetched, stays⟩ :=
    admits_iff_of_decryptWithWrappers rfl decrypted
  cases selected.symm.trans selected'
  cases unwraps.symm.trans unwraps'
  cases fetched
  have steady : Script.Steady [.data [104, 105, 106]] := ⟨by simp [Script.Filled], by simp⟩
  have inside := (stays steady _ (within_of_three_bytes _ _)).1
  exact ⟨stored, _, decrypted, inside.mpr (.inl (by decide))⟩

/-- A range whose end comes before its start is decrypted to bytes that lie outside of it. -/
theorem not_admits_of_inverted :
    ¬ ∀ (keys : List StoredKey) (wrappers : List KeyWrapper) (range : ByteRange) (last : UInt64)
        (fetch : ByteRange → EStateM StreamError Unit Source) (service service' : RecordedService)
        (limited : RangeReader Source) (wrapper : KeyWrapper) (key : StoredKey)
        (parameters : ContentParameters) (served : Source) (plaintext : Bytes),
      range.last = some last →
      decryptWithWrappers keys wrappers range fetch (service, ()) = .ok limited (service', ()) →
      selectKey wrappers keys = some (wrapper, key) →
      wrapper.unwrap key service = .ok parameters service' →
      fetch range.blockAligned () = .ok served () →
      Script.Steady served.pieces →
      Script.content served.pieces <+: (Counter.apply (cipherOf parameters.key) parameters.iv 0
        plaintext).drop (blockStart range.start).toNat →
      ∀ sizes, range.Admits last plaintext
        (Reader.delivered (Reader.requests sizes limited).1) := by
  intro stays
  obtain ⟨stored, reader, selected, unwraps, opened, decrypted⟩ :=
    @exists_decryptWithWrappers_unencrypted ⟨List.replicate 16 7, BitVec.allOnes 128⟩ _ _
      (by decide) ⟨1, some 0⟩ ⟨[.data [104, 105, 106]], []⟩ (RecordedService.returning "")
  have steady : Script.Steady [.data [104, 105, 106]] := ⟨by simp [Script.Filled], by simp⟩
  have within := within_of_three_bytes (cipherOf (List.replicate 16 7)) (BitVec.allOnes 128)
  have inside := (admits_iff_of_openAt rfl opened steady within).mp
    (stays _ _ _ _ _ _ _ _ _ _ _ _ _ rfl decrypted selected unwraps rfl steady within)
  exact absurd inside (by decide)

end KeyEnvelope.Engine
