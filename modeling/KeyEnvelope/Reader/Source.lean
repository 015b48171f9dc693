import KeyEnvelope.Reader.Basic

/-!
# Sources

The stream at the bottom of every reader: content that arrives in pieces, with failures
between them.  A source keeps the sizes of the requests made on it, so that what a
reader above it asks for can be stated.
-/

namespace KeyEnvelope

/-- What arrives next on a source. -/
inductive Piece
  | data (bytes : Bytes)
  | failure (error : StreamError)
  deriving DecidableEq, Repr

/-- What a piece adds to the bound of a source: its bytes, and one for its end. -/
def Piece.size : Piece → Nat
  | .data bytes => bytes.length + 1
  | .failure _ => 1

/-- A stream that delivers pieces, each request from the first of them only. -/
structure Source where
  pieces : List Piece
  /-- The sizes of the requests so far, the last one first. -/
  requests : List Nat := []
  deriving DecidableEq, Repr

namespace Source

/-- A source that delivers content in one piece, or nothing if it is empty. -/
def ofBytes (bytes : Bytes) : Source :=
  ⟨if bytes.isEmpty then [] else [.data bytes], []⟩

/-- One request: the beginning of the first piece, which goes away once it is used up,
or the failure that stands there. -/
def read (n : Nat) (source : Source) : ReadResult Source Bytes :=
  let requests := n :: source.requests
  match source.pieces with
  | [] => .ok [] ⟨[], requests⟩
  | .failure error :: pieces => .error error ⟨pieces, requests⟩
  | .data bytes :: pieces =>
    let rest := bytes.drop n
    .ok (bytes.take n) ⟨if rest.isEmpty then pieces else .data rest :: pieces, requests⟩

/-- A bound on the bytes and failures that a source still delivers. -/
def remaining (source : Source) : Nat :=
  source.pieces.foldr (fun piece bound => piece.size + bound) 0

instance : Reader Source where
  read := read
  remaining := remaining
  length_le := by
    intro n data source source' h
    unfold read at h
    split at h <;> cases h
    · exact Nat.zero_le n
    · exact List.length_take_le n _
  remaining_of_ok := by
    intro n data source source' h
    unfold read at h
    split at h <;> cases h
    · simp [remaining]
    · rename_i bytes pieces hp
      simp only [remaining, hp]
      split <;> simp_all [Piece.size] <;> omega
  remaining_of_error := by
    intro n e source source' h
    unfold read at h
    split at h <;> cases h
    rename_i hp
    simp [remaining, hp, Piece.size]

end Source

end KeyEnvelope
