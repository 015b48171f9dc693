import KeyEnvelope.Proofs.Engine.Opening
import KeyEnvelope.Proofs.Reader.Skipping

/-!
# Reading on after a failure

A reader that was opened inside a block first discards the bytes before its offset.  A
failure that ends an attempt to do so leaves the whole count pending, and the next
attempt discards all of it again.  What the failed attempts had discarded is therefore
missing from the plaintext: reading on after failures gives out the plaintext from that
many bytes behind the offset on (`left_of_openAt`), so it is shifted unless each such
failure strikes before the first byte or behind the last one to be discarded
(`lost_eq_zero_iff`).
-/

namespace KeyEnvelope

/-- The bytes that failing attempts to reach an offset use up, on a source that begins
at the block of the offset. -/
def Source.lost (source : Source) (offset : UInt64) : Nat :=
  Script.lost (offset.toNat % 16) (offset.toNat % 16) source.pieces

namespace Engine

variable {parameters : ContentParameters} {offset : UInt64} {source : Source}
  {plaintext : Bytes} {reader : DecryptingReader Source}

/-- What an opened reader gives out, whatever failures come in between. -/
theorem left_of_openAt (opened : openAt parameters offset source = .ok reader)
    (content : Script.content source.pieces = (Counter.apply (cipherOf parameters.key)
      parameters.iv 0 plaintext).drop (blockStart offset).toNat) :
    SkippingReader.left reader = plaintext.drop (offset.toNat + source.lost offset) := by
  rcases of_openAt opened with ⟨-, inner, pending⟩
  have lost : (ScriptedReader.script reader.inner).lost reader.pending reader.pending =
      source.lost offset := by
    rw [pending, Counter.toNat_blockRemainder, inner]
    exact Script.lost_underKeystream ..
  have start := Counter.blockStart_add_blockRemainder offset
  rw [SkippingReader.left, lost, pending, content_of_openAt opened, Source.script_eq, content,
    Counter.apply_drop_apply, List.drop_drop, ← Nat.add_assoc, start]

/-- Nothing is lost exactly if every failure that is not retried at once strikes before
the first byte or behind the last one that is to be discarded. -/
theorem lost_eq_zero_iff (filled : Script.Filled source.pieces) :
    source.lost offset = 0 ↔ ∀ before error after,
      source.pieces = before ++ .failure error :: after → error.kind ≠ .interrupted →
      Script.content before = [] ∨ offset.toNat % 16 ≤ (Script.content before).length := by
  rw [Source.lost, Script.lost_eq_zero_iff filled (Nat.le_refl _)]
  refine ⟨fun outside before error after split failed => ?_,
    fun outside before error after split failed inside => ?_⟩
  · rcases Nat.lt_or_ge (Script.content before).length (offset.toNat % 16) with inside | behind
    · exact .inl (outside before error after split failed inside).2
    · exact .inr behind
  · rcases outside before error after split failed with first | behind
    · exact ⟨rfl, first⟩
    · omega

/-! ## A failure between two bytes that are to be discarded -/

/-- A source that fails once, after its first byte. -/
def cutAfterFirst (ciphertext : Bytes) : Source :=
  ⟨[.data (ciphertext.take 1), .failure ⟨.timedOut, "injected"⟩, .data (ciphertext.drop 1)], []⟩

theorem content_cutAfterFirst (ciphertext : Bytes) :
    Script.content (cutAfterFirst ciphertext).pieces = ciphertext := by
  rw [cutAfterFirst, Script.content_data, Script.content_failure, Script.content_data,
    Script.content_nil, List.append_nil, List.take_append_drop]

theorem filled_cutAfterFirst {ciphertext : Bytes} (long : 1 < ciphertext.length) :
    Script.Filled (cutAfterFirst ciphertext).pieces := by
  intro bytes member
  simp only [cutAfterFirst, List.mem_cons, Piece.data.injEq, reduceCtorEq, List.not_mem_nil,
    false_or, or_false] at member
  rw [← List.length_pos_iff]
  rcases member with rfl | rfl
  · rw [List.length_take]
    omega
  · rw [List.length_drop]
    omega

theorem lost_cutAfterFirst {ciphertext : Bytes} (long : 1 < ciphertext.length) :
    (cutAfterFirst ciphertext).lost 2 = 1 := by
  have first : (ciphertext.take 1).length = 1 := by
    rw [List.length_take]
    omega
  have lost : Script.lost 2 2 (cutAfterFirst ciphertext).pieces = 1 := by
    simp [cutAfterFirst, Script.lost, first]
  exact lost

/-- Opened two bytes behind the start of a block, a source that fails after its first
byte loses it. -/
theorem exists_openAt_cutAfterFirst (fits : Aes.IsKeyLength parameters.key.length)
    (plaintext : Bytes) {ciphertext : Bytes} (long : 1 < plaintext.length)
    (encrypted : Counter.apply (cipherOf parameters.key) parameters.iv 0 plaintext = ciphertext) :
    ∃ reader, openAt parameters 2 (cutAfterFirst ciphertext) = .ok reader ∧
      Script.Filled (cutAfterFirst ciphertext).pieces ∧
      Script.content (cutAfterFirst ciphertext).pieces = (Counter.apply (cipherOf parameters.key)
        parameters.iv 0 plaintext).drop (blockStart 2).toNat ∧
      (cutAfterFirst ciphertext).lost 2 = 1 := by
  obtain ⟨reader, opened⟩ := openAt_of_isKeyLength fits 2 (cutAfterFirst ciphertext)
  have long' : 1 < ciphertext.length := by rwa [← encrypted, Counter.length_apply]
  have start : (blockStart 2).toNat = 0 := rfl
  rw [content_cutAfterFirst, encrypted, start, List.drop_zero]
  exact ⟨reader, opened, filled_cutAfterFirst long', rfl, lost_cutAfterFirst long'⟩

/-! ## Reading on -/

/-- On a source that may fail, all that is ever read of an opened reader is a part of the
plaintext from its offset on exactly if the bytes that failing attempts use up do not
show. -/
theorem delivered_prefix_iff_of_openAt (filled : Script.Filled source.pieces)
    (content : Script.content source.pieces = (Counter.apply (cipherOf parameters.key)
      parameters.iv 0 plaintext).drop (blockStart offset).toNat)
    (opened : openAt parameters offset source = .ok reader) :
    (∀ sizes, Reader.delivered (Reader.requests sizes reader).1 <+:
      plaintext.drop (offset.toNat + source.lost offset)) ∧
    ((∀ sizes, Reader.delivered (Reader.requests sizes reader).1 <+:
        plaintext.drop offset.toNat) ↔
      plaintext.drop (offset.toNat + source.lost offset) <+: plaintext.drop offset.toNat) ∧
    (source.lost offset = 0 ↔ ∀ before error after,
      source.pieces = before ++ .failure error :: after → error.kind ≠ .interrupted →
      Script.content before = [] ∨ offset.toNat % 16 ≤ (Script.content before).length) := by
  have account := SkippingReader.account (ρ := CounterReader Source) Script.Filled.of_answer id
  have start := filled_of_openAt opened filled
  rw [← left_of_openAt opened content]
  refine ⟨?_, account.delivered_prefix_iff start _, lost_eq_zero_iff filled⟩
  exact (account.delivered_prefix_iff start _).mpr List.prefix_rfl

theorem delivered_prefix_of_cutAfterFirst :
    ∃ ciphertext reader,
      Counter.apply (cipherOf (List.replicate 16 7)) 0 0 [0, 1, 2, 3] = ciphertext ∧
      openAt ⟨List.replicate 16 7, 0⟩ 2 (cutAfterFirst ciphertext) = .ok reader ∧
      ∀ sizes, Reader.delivered (Reader.requests sizes reader).1 <+: [3] := by
  have fits : Aes.IsKeyLength (ContentParameters.mk (List.replicate 16 7) 0).key.length := by decide
  obtain ⟨reader, opened, filled, content, lost⟩ :=
    exists_openAt_cutAfterFirst fits [0, 1, 2, 3] (by decide) rfl
  have delivered := delivered_prefix_iff_of_openAt filled content opened
  rw [lost] at delivered
  exact ⟨_, reader, rfl, opened, delivered.1⟩

/-- Reading on after a failure may give out bytes that are not where they belong. -/
theorem not_delivered_prefix_of_openAt :
    ¬ ∀ (parameters : ContentParameters) (offset : UInt64) (source : Source) (plaintext : Bytes)
        (reader : DecryptingReader Source), Script.Filled source.pieces →
      Script.content source.pieces = (Counter.apply (cipherOf parameters.key) parameters.iv 0
        plaintext).drop (blockStart offset).toNat →
      openAt parameters offset source = .ok reader →
      ∀ sizes, Reader.delivered (Reader.requests sizes reader).1 <+:
        plaintext.drop offset.toNat := by
  intro unshifted
  have fits : Aes.IsKeyLength (ContentParameters.mk (List.replicate 16 7) 0).key.length := by decide
  obtain ⟨reader, opened, filled, content, lost⟩ :=
    exists_openAt_cutAfterFirst fits [0, 1, 2, 3] (by decide) rfl
  have account := SkippingReader.account (ρ := CounterReader Source) Script.Filled.of_answer id
  have within := (account.delivered_prefix_iff (filled_of_openAt opened filled) _).mp
    (unshifted _ 2 _ _ reader filled content opened)
  rw [left_of_openAt opened content, lost] at within
  exact absurd within (by decide)

end Engine

end KeyEnvelope
