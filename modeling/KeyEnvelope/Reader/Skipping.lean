import KeyEnvelope.Cipher.Block
import KeyEnvelope.Reader.Basic

/-!
# Reading from an offset

Decryption starts at a block, so a stream that is opened inside a block begins with
bytes nobody asked for.  A skipping reader discards them before the first byte it
returns, and can be moved forward.
-/

namespace KeyEnvelope

/-- How a skipping reader was opened. -/
inductive SkipMode
  | fromStart
  /-- Opened this many bytes behind the start of a block. -/
  | blockRemainder (count : UInt64)
  deriving DecidableEq, Repr

/-- A reader that first discards pending bytes of the inner one. -/
structure SkippingReader (ρ : Type) where
  inner : ρ
  mode : SkipMode
  /-- How many bytes are still to be discarded. -/
  pending : Nat

namespace SkippingReader

variable {ρ : Type}

/-- A reader of the whole stream. -/
def fromStart (inner : ρ) : SkippingReader ρ :=
  ⟨inner, .fromStart, 0⟩

/-- A reader from an offset on of a stream that begins at the block of that offset. -/
def fromOffset (inner : ρ) (offset : UInt64) : SkippingReader ρ :=
  ⟨inner, .blockRemainder (blockRemainder offset), (blockRemainder offset).toNat⟩

variable [Reader ρ]

/-- Discards what is pending.  A failure leaves the whole count pending. -/
def discardPending (r : SkippingReader ρ) : ReadResult (SkippingReader ρ) Unit :=
  if r.pending = 0 then .ok () r
  else
    match Reader.discard r.pending r.inner with
    | .ok _ inner => .ok () { r with inner, pending := 0 }
    | .error e inner => .error e { r with inner }

/-- Moves forward by up to `n` bytes and yields by how many. -/
def skip (n : Nat) (r : SkippingReader ρ) : ReadResult (SkippingReader ρ) Nat :=
  match r.discardPending with
  | .error e r => .error e r
  | .ok () r =>
    match Reader.discard n r.inner with
    | .ok count inner => .ok count { r with inner }
    | .error e inner => .error e { r with inner }

/-- One request, made on the inner reader once nothing is pending. -/
def read (n : Nat) (r : SkippingReader ρ) : ReadResult (SkippingReader ρ) Bytes :=
  match r.discardPending with
  | .error e r => .error e r
  | .ok () r =>
    match Reader.read n r.inner with
    | .ok data inner => .ok data { r with inner }
    | .error e inner => .error e { r with inner }

end SkippingReader

/-! ## Discarding takes off the bound -/

namespace Reader

variable {ρ : Type} [Reader ρ]

theorem remaining_of_discardLoop_ok (size count : Nat) (r : ρ) {missing : Nat} {r' : ρ}
    (h : discardLoop size count r = .ok missing r') : remaining r' ≤ remaining r := by
  fun_induction discardLoop size count r with
  | case1 r => cases h; exact Nat.le_refl _
  | case2 count r _ r₁ hr => cases h; simpa using remaining_of_ok hr
  | case3 count r _ byte data r₁ hr ih =>
    have := remaining_of_ok hr
    have := ih h
    omega
  | case4 count r _ e r₁ hr _ ih =>
    have := remaining_of_error hr
    have := ih h
    omega
  | case5 => cases h

theorem remaining_of_discardLoop_error (size count : Nat) (r : ρ) {e : StreamError} {r' : ρ}
    (h : discardLoop size count r = .error e r') : remaining r' < remaining r := by
  fun_induction discardLoop size count r with
  | case1 r => cases h
  | case2 count r _ r₁ hr => cases h
  | case3 count r _ byte data r₁ hr ih =>
    have := remaining_of_ok hr
    have := ih h
    omega
  | case4 count r _ e r₁ hr _ ih =>
    have := remaining_of_error hr
    have := ih h
    omega
  | case5 count r _ e r₁ hr => cases h; exact remaining_of_error hr

theorem remaining_of_discard_ok {n count : Nat} {r r' : ρ}
    (h : discard n r = .ok count r') : remaining r' ≤ remaining r := by
  unfold discard at h
  split at h <;> cases h
  exact remaining_of_discardLoop_ok _ _ _ ‹_›

theorem remaining_of_discard_error {n : Nat} {e : StreamError} {r r' : ρ}
    (h : discard n r = .error e r') : remaining r' < remaining r := by
  unfold discard at h
  split at h <;> cases h
  exact remaining_of_discardLoop_error _ _ _ ‹_›

end Reader

namespace SkippingReader

variable {ρ : Type} [Reader ρ]

theorem remaining_of_discardPending_ok {r r' : SkippingReader ρ}
    (h : r.discardPending = .ok () r') : Reader.remaining r'.inner ≤ Reader.remaining r.inner := by
  unfold discardPending at h
  split at h
  · cases h; exact Nat.le_refl _
  · split at h <;> cases h
    exact Reader.remaining_of_discard_ok ‹_›

theorem remaining_of_discardPending_error {e : StreamError} {r r' : SkippingReader ρ}
    (h : r.discardPending = .error e r') :
    Reader.remaining r'.inner < Reader.remaining r.inner := by
  unfold discardPending at h
  split at h
  · cases h
  · split at h <;> cases h
    exact Reader.remaining_of_discard_error ‹_›

variable {n : Nat} {r r' : SkippingReader ρ}

theorem length_le_of_read {data : Bytes} (h : r.read n = .ok data r') : data.length ≤ n := by
  unfold read at h
  split at h
  · cases h
  · split at h <;> cases h
    exact Reader.length_le ‹_›

theorem remaining_of_read_ok {data : Bytes} (h : r.read n = .ok data r') :
    Reader.remaining r'.inner + data.length ≤ Reader.remaining r.inner := by
  unfold read at h
  split at h
  · cases h
  · have discarded := remaining_of_discardPending_ok ‹_›
    split at h <;> cases h
    have taken := Reader.remaining_of_ok ‹_›
    dsimp only
    omega

theorem remaining_of_read_error {e : StreamError} (h : r.read n = .error e r') :
    Reader.remaining r'.inner < Reader.remaining r.inner := by
  unfold read at h
  split at h
  · cases h
    exact remaining_of_discardPending_error ‹_›
  · have discarded := remaining_of_discardPending_ok ‹_›
    split at h <;> cases h
    have failed := Reader.remaining_of_error ‹_›
    dsimp only
    omega

instance : Reader (SkippingReader ρ) where
  read := read
  remaining r := Reader.remaining r.inner
  length_le := length_le_of_read
  remaining_of_ok := remaining_of_read_ok
  remaining_of_error := remaining_of_read_error

end SkippingReader

end KeyEnvelope
