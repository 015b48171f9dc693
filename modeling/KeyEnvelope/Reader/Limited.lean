import KeyEnvelope.Reader.Basic

/-!
# Reading up to a limit

A reader that ends after a given number of bytes, however much the inner one holds.
At the limit it makes no further request.
-/

namespace KeyEnvelope

/-- A reader of at most `limit` more bytes. -/
structure LimitedReader (ρ : Type) where
  inner : ρ
  limit : Nat

namespace LimitedReader

variable {ρ : Type} [Reader ρ]

/-- One request, cut down to the limit. -/
def read (n : Nat) (r : LimitedReader ρ) : ReadResult (LimitedReader ρ) Bytes :=
  if r.limit = 0 then .ok [] r
  else
    match Reader.read (min n r.limit) r.inner with
    | .ok data inner => .ok data ⟨inner, r.limit - data.length⟩
    | .error e inner => .error e { r with inner }

instance : Reader (LimitedReader ρ) where
  read := read
  remaining r := Reader.remaining r.inner
  length_le := by
    intro n data r r' h
    unfold read at h
    split at h
    · cases h; simp
    · split at h <;> cases h
      have := Reader.length_le ‹_›
      omega
  remaining_of_ok := by
    intro n data r r' h
    unfold read at h
    split at h
    · cases h; simp
    · split at h <;> cases h
      exact Reader.remaining_of_ok ‹_›
  remaining_of_error := by
    intro n e r r' h
    unfold read at h
    split at h
    · cases h
    · split at h <;> cases h
      exact Reader.remaining_of_error ‹_›

end LimitedReader

end KeyEnvelope
