import KeyEnvelope.Bytes

/-!
# Strings as bytes

The UTF-8 form of a string and its reading.  `decode` accepts a byte string exactly if
it is the form of some string; otherwise it says where the first ill-formed sequence
begins and how long it is, or that the input ends inside a character.
-/

namespace KeyEnvelope.Utf8

/-- What is wrong with a byte string that is not the form of a string. -/
inductive Malformed
  /-- The `length` bytes from `index` on begin no character. -/
  | sequence (length index : Nat)
  /-- The input ends inside the character that begins at `index`. -/
  | incomplete (index : Nat)
  deriving DecidableEq, Repr

/-- The wording of a defect. -/
def Malformed.message : Malformed → String
  | sequence length index => s!"invalid utf-8 sequence of {length} bytes from index {index}"
  | incomplete index => s!"incomplete utf-8 byte sequence from index {index}"

/-- The bytes of a string. -/
def encode (text : String) : Bytes :=
  text.toByteArray.data.toList

/-! ## Where a byte string stops being text -/

/-- The ranges that the bytes after a leading byte have to lie in, or nothing if no
character begins so.  The first range is narrower where a wider one would admit an
overlong form, a surrogate or a number beyond the last code point. -/
def continuations (lead : UInt8) : Option (List (UInt8 × UInt8)) :=
  if lead < 0x80 then some []
  else if lead < 0xc2 then none
  else if lead < 0xe0 then some [(0x80, 0xbf)]
  else if lead = 0xe0 then some [(0xa0, 0xbf), (0x80, 0xbf)]
  else if lead = 0xed then some [(0x80, 0x9f), (0x80, 0xbf)]
  else if lead < 0xf0 then some [(0x80, 0xbf), (0x80, 0xbf)]
  else if lead = 0xf0 then some [(0x90, 0xbf), (0x80, 0xbf), (0x80, 0xbf)]
  else if lead < 0xf4 then some [(0x80, 0xbf), (0x80, 0xbf), (0x80, 0xbf)]
  else if lead = 0xf4 then some [(0x80, 0x8f), (0x80, 0xbf), (0x80, 0xbf)]
  else none

/-- How many bytes, one range after the other, lie in their ranges. -/
def fitting : List (UInt8 × UInt8) → Bytes → Nat
  | (low, high) :: ranges, byte :: bytes =>
    if low ≤ byte ∧ byte ≤ high then fitting ranges bytes + 1 else 0
  | _, _ => 0

/-- The first defect of a byte string whose first byte has the given index. -/
def firstDefect (index : Nat) : Bytes → Option Malformed
  | [] => none
  | lead :: rest =>
    match continuations lead with
    | none => some (.sequence 1 index)
    | some ranges =>
      let count := fitting ranges rest
      if count = ranges.length then
        firstDefect (index + 1 + count) (rest.drop count)
      else if count = rest.length then
        some (.incomplete index)
      else
        some (.sequence (1 + count) index)
termination_by bytes => bytes.length
decreasing_by
  simp only [List.length_drop, List.length_cons]
  omega

/-- The string that a byte string is the form of. -/
def decode (bytes : Bytes) : Except Malformed String :=
  match String.fromUTF8? ⟨bytes.toArray⟩ with
  | some text => .ok text
  | none => .error ((firstDefect 0 bytes).getD (.incomplete bytes.length))

/-! ## Reading is the inverse of writing -/

@[simp] theorem decode_encode (text : String) : decode (encode text) = .ok text := by
  have h : (⟨(encode text).toArray⟩ : ByteArray) = text.toByteArray := rfl
  simp [decode, h, String.fromUTF8?, text.isValidUTF8, String.fromUTF8]

theorem eq_encode_of_decode {bytes : Bytes} {text : String} (h : decode bytes = .ok text) :
    bytes = encode text := by
  unfold decode at h
  split at h
  · rename_i found hfound
    cases h
    simp only [String.fromUTF8?] at hfound
    split at hfound
    · cases hfound
      simp [encode, String.fromUTF8]
    · cases hfound
  · cases h

/-- A byte string reads as a text exactly if it is the form of that text. -/
theorem decode_eq_ok_iff {bytes : Bytes} {text : String} :
    decode bytes = .ok text ↔ bytes = encode text :=
  ⟨eq_encode_of_decode, fun h => h ▸ decode_encode text⟩

end KeyEnvelope.Utf8
