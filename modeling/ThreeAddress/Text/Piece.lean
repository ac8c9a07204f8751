import ThreeAddress.Text.Basic

/-!
# Texts as scalar values and stray bytes

A text splits from the left into pieces: the shortest UTF-8 encoding of a Unicode scalar value, or a
single byte that starts no such encoding. Surrogates and overlong forms count as stray bytes.
-/

namespace ThreeAddress.Text

/-- A unit of text: an encoded scalar value or a byte that belongs to none. -/
inductive Piece where
  /-- A scalar value with its encoding. -/
  | scalar (code : Nat) (encoding : Text)
  /-- A byte that starts no encoding. -/
  | stray (byte : UInt8)
  deriving DecidableEq

namespace Piece

/-- The bytes of a piece. -/
def bytes : Piece → Text
  | scalar _ encoding => encoding
  | stray b => [b]

/-- The character of a piece; the replacement character stands for a stray byte. -/
def char : Piece → Char
  | scalar code _ => Char.ofNat code
  | stray _ => '\ufffd'

/-- How an encoding starts, by its first byte. -/
structure Lead where
  /-- How many bytes follow the first. -/
  trailing : Nat
  /-- The bits that the first byte contributes. -/
  bits : Nat
  /-- The least scalar value that needs this many bytes. -/
  least : Nat

/-- The lead for a first byte, if it can start an encoding. -/
def lead? (b : UInt8) : Option Lead :=
  if b < 0x80 then some ⟨0, b.toNat, 0⟩
  else if b < 0xC0 then none
  else if b < 0xE0 then some ⟨1, b.toNat - 0xC0, 0x80⟩
  else if b < 0xF0 then some ⟨2, b.toNat - 0xE0, 0x800⟩
  else if b < 0xF8 then some ⟨3, b.toNat - 0xF0, 0x10000⟩
  else none

/-- Appends the six bits of each of the next `n` bytes, which must all be continuation bytes. -/
def continue? : (n code : Nat) → Text → Option Nat
  | 0, code, _ => some code
  | _ + 1, _, [] => none
  | n + 1, code, b :: rest =>
    if 0x80 ≤ b ∧ b < 0xC0 then continue? n (code * 64 + (b.toNat - 0x80)) rest else none

/-- The piece at the front of `b :: rest`. -/
def front (b : UInt8) (rest : Text) : Piece :=
  match lead? b with
  | none => stray b
  | some lead =>
    match continue? lead.trailing lead.bits rest with
    | none => stray b
    | some code =>
      if lead.least ≤ code ∧ code.isValidChar then scalar code (b :: rest.take lead.trailing)
      else stray b

/-- The front piece holds the first byte and an initial part of what follows it. -/
theorem front_bytes (b : UInt8) (rest : Text) : ∃ n, (front b rest).bytes = b :: rest.take n := by
  unfold front
  split
  · exact ⟨0, rfl⟩
  · split
    · exact ⟨0, rfl⟩
    · split
      · exact ⟨_, rfl⟩
      · exact ⟨0, rfl⟩

end Piece

/-- The pieces of a text after its first `skip` bytes. -/
def piecesAfter : (skip : Nat) → Text → List Piece
  | _, [] => []
  | skip + 1, _ :: rest => piecesAfter skip rest
  | 0, b :: rest =>
    let piece := Piece.front b rest
    piece :: piecesAfter (piece.bytes.length - 1) rest

/-- The pieces of a text, in order. -/
def pieces (t : Text) : List Piece := piecesAfter 0 t

theorem flatMap_bytes_piecesAfter (skip : Nat) (t : Text) :
    (piecesAfter skip t).flatMap Piece.bytes = t.drop skip := by
  induction t generalizing skip with
  | nil => simp [piecesAfter]
  | cons b rest ih =>
    cases skip with
    | succ skip => simpa [piecesAfter] using ih skip
    | zero =>
      obtain ⟨n, hn⟩ := Piece.front_bytes b rest
      simp only [piecesAfter, List.flatMap_cons, ih, hn, List.drop_zero]
      rw [List.length_cons, Nat.add_sub_cancel, List.length_take, List.cons_append]
      congr 1
      by_cases h : n ≤ rest.length
      · rw [Nat.min_eq_left h, List.take_append_drop]
      · rw [Nat.min_eq_right (by omega), List.take_of_length_le (by omega), List.drop_length,
          List.append_nil]

/-- Nothing is lost: the bytes of the pieces are the text. -/
theorem flatMap_bytes_pieces (t : Text) : t.pieces.flatMap Piece.bytes = t :=
  flatMap_bytes_piecesAfter 0 t

/-- The text as a string, in which the replacement character stands for every stray byte. -/
def toUnicode (t : Text) : String := String.ofList (t.pieces.map Piece.char)

/-- The encoding of a scalar value; the replacement character stands for a number that is none. -/
def ofScalar (code : Nat) : Text :=
  if code.isValidChar then String.utf8EncodeChar (Char.ofNat code) else "\ufffd"

end ThreeAddress.Text
