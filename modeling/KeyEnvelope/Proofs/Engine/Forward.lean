import KeyEnvelope.Proofs.Engine.RoundTrip

/-!
# Two ways to a position

A position of encrypted content is reached by opening the content there, where the counter of
its block is computed and the beginning of the block is discarded, or by opening it earlier and
skipping, where the keystream runs over everything between.  A reader gives the same bytes
either way (`skip_reaches_openAt_add`), also past the end of the content, where it gives none.
-/

namespace KeyEnvelope.Engine

open ScriptedReader (script)

variable {parameters : ContentParameters} {ciphertext : Bytes} {offset : UInt64}
  {source : Source} {reader : DecryptingReader Source}

section Opened

variable (opened : openAt parameters offset source = .ok reader)
  (delivers : source.Delivers (ciphertext.drop (blockStart offset).toNat))

include opened delivers

theorem content_drop_pending_of_delivers :
    (script reader.inner).content.drop reader.pending =
      (Counter.apply (cipherOf parameters.key) parameters.iv 0 ciphertext).drop offset.toNat := by
  refine content_drop_pending_of_openAt opened ?_
  rw [Counter.apply_apply, Source.script_eq, delivers.content]

/-- A reader that was opened at an offset gives the plaintext from there on. -/
theorem gives_of_openAt :
    Reader.Gives reader
      ((Counter.apply (cipherOf parameters.key) parameters.iv 0 ciphertext).drop offset.toNat) := by
  rw [← content_drop_pending_of_delivers opened delivers]
  exact SkippingReader.gives_of_steady (steady_of_openAt opened delivers.steady)

/-- It is the same with the remainder of its offset discarded first, also where that is zero. -/
theorem gives_fromOffset_of_openAt :
    Reader.Gives (SkippingReader.fromOffset reader.inner offset)
      ((Counter.apply (cipherOf parameters.key) parameters.iv 0 ciphertext).drop offset.toNat) := by
  have steady : (script reader.inner).Steady := steady_of_openAt opened delivers.steady
  have pending : reader.pending = (SkippingReader.fromOffset reader.inner offset).pending :=
    (of_openAt opened).2.2
  rw [← content_drop_pending_of_delivers opened delivers, pending]
  exact SkippingReader.gives_of_steady (r := SkippingReader.fromOffset reader.inner offset) steady

/-- After a skip it gives the plaintext from where the skip has led. -/
theorem skip_of_openAt (n : Nat) :
    ∃ skipped, reader.skip n = .ok (min n (ciphertext.length - offset.toNat)) skipped ∧
      Reader.Gives skipped
        ((Counter.apply (cipherOf parameters.key) parameters.iv 0 ciphertext).drop
          (offset.toNat + n)) := by
  obtain ⟨skipped, moved, steady, none_pending, content⟩ :=
    SkippingReader.skip_of_steady (r := reader) n (steady_of_openAt opened delivers.steady)
  have gives := SkippingReader.gives_of_steady steady
  rw [content_drop_pending_of_delivers opened delivers] at moved content
  rw [List.length_drop, Counter.length_apply] at moved
  rw [none_pending, List.drop_zero, content, List.drop_drop] at gives
  exact ⟨skipped, moved, gives⟩

end Opened

/-- Content that is opened at one offset and skipped by a number of bytes gives the same bytes
as content that is opened at the sum of both, the whole plaintext from there on; and the skip
says how many bytes of plaintext it has passed over.  It makes no difference whether a position
at a block counts as one with a remainder of zero. -/
theorem skip_reaches_openAt_add (fits : Aes.IsKeyLength parameters.key.length) {a b : UInt64}
    (inside : a.toNat + b.toNat < UInt64.size) {source later : Source}
    (delivers : source.Delivers (ciphertext.drop (blockStart a).toNat))
    (delivers_later : later.Delivers (ciphertext.drop (blockStart (a + b)).toNat)) :
    ∃ opened skipped ahead bytes,
      bytes = (Counter.apply (cipherOf parameters.key) parameters.iv 0 ciphertext).drop
        (a.toNat + b.toNat) ∧
      openAt parameters a source = .ok opened ∧
      openAt parameters (a + b) later = .ok ahead ∧
      opened.skip b.toNat = .ok (min b.toNat (ciphertext.length - a.toNat)) skipped ∧
      Reader.Gives skipped bytes ∧ Reader.Gives ahead bytes ∧
      (a = 0 → opened = .fromStart opened.inner) ∧
      Reader.Gives (SkippingReader.fromOffset ahead.inner (a + b)) bytes := by
  obtain ⟨opened, opens⟩ := openAt_of_isKeyLength fits a source
  obtain ⟨ahead, opens_ahead⟩ := openAt_of_isKeyLength fits (a + b) later
  obtain ⟨skipped, moved, gives_skipped⟩ := skip_of_openAt opens delivers b.toNat
  have gives_ahead := gives_of_openAt opens_ahead delivers_later
  have gives_remainder := gives_fromOffset_of_openAt opens_ahead delivers_later
  have sum : (a + b).toNat = a.toNat + b.toNat := by rw [UInt64.toNat_add, Nat.mod_eq_of_lt inside]
  rw [sum] at gives_ahead gives_remainder
  refine ⟨opened, skipped, ahead, _, rfl, opens, opens_ahead, moved, gives_skipped, gives_ahead,
    fun start => ?_, gives_remainder⟩
  rw [(openAt_eq_ok.mp opens).2, if_pos start]
  rfl

/-- From the fourth byte over the end of a block, under a counter that begins anew there. -/
theorem skip_reaches_openAt_add_next_block :
    ∃ opened skipped ahead bytes,
      bytes = (Counter.apply (cipherOf (List.replicate 16 7)) (BitVec.allOnes 128) 0
        (List.replicate 24 9)).drop 18 ∧
      openAt ⟨List.replicate 16 7, BitVec.allOnes 128⟩ 3
        (⟨[.data (List.replicate 5 9), .data (List.replicate 19 9)], []⟩ : Source) = .ok opened ∧
      openAt ⟨List.replicate 16 7, BitVec.allOnes 128⟩ 18
        (⟨[.data (List.replicate 8 9)], []⟩ : Source) = .ok ahead ∧
      opened.skip 15 = .ok 15 skipped ∧
      Reader.Gives skipped bytes ∧ Reader.Gives ahead bytes := by
  have delivers : (⟨[.data (List.replicate 5 9), .data (List.replicate 19 9)], []⟩ :
      Source).Delivers ((List.replicate 24 9).drop (blockStart 3).toNat) :=
    ⟨⟨by simp [Script.Filled], by simp⟩, rfl⟩
  have delivers_later : (⟨[.data (List.replicate 8 9)], []⟩ : Source).Delivers
      ((List.replicate 24 9).drop (blockStart (3 + 15)).toNat) :=
    ⟨⟨by simp [Script.Filled], by simp⟩, rfl⟩
  obtain ⟨opened, skipped, ahead, bytes, whole, opens, opens_ahead, moved, gives, gives_ahead, -⟩ :=
    @skip_reaches_openAt_add ⟨List.replicate 16 7, BitVec.allOnes 128⟩ (List.replicate 24 9)
      (by decide) 3 15 (by decide) _ _ delivers delivers_later
  exact ⟨opened, skipped, ahead, bytes, whole, opens, opens_ahead, moved, gives, gives_ahead⟩

end KeyEnvelope.Engine
