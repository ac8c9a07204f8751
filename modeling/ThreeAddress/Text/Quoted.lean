import ThreeAddress.Text.Piece
import ThreeAddress.Text.Printable

/-!
# Quoted texts

A quoted text stands between two quotes and shows what cannot be printed by an escape: a letter for
the common control characters, hexadecimal digits for the rest. Stray bytes are shown as bytes, so
different texts never look alike.
-/

namespace ThreeAddress.Text

/-- A number in lower-case hexadecimal, filled with zeros on the left to a least width. -/
def ofHex (width n : Nat) : Text :=
  let digits := (Nat.toDigits 16 n).map Char.toUInt8
  List.replicate (width - digits.length) 0x30 ++ digits

/-- The letter that names a control character in an escape, if it has one. -/
def escapeLetter? (code : Nat) : Option Text :=
  match code with
  | 0x07 => some "a"
  | 0x08 => some "b"
  | 0x09 => some "t"
  | 0x0a => some "n"
  | 0x0b => some "v"
  | 0x0c => some "f"
  | 0x0d => some "r"
  | _ => none

/-- The escape of a scalar value that is not printable. -/
def escape (code : Nat) : Text :=
  match escapeLetter? code with
  | some letter => "\\" ++ letter
  | none =>
    if code < 0x20 ∨ code = 0x7f then "\\x" ++ ofHex 2 code
    else if code < 0x10000 then "\\u" ++ ofHex 4 code
    else "\\U" ++ ofHex 8 code

/-- A piece as it stands between two quotes of the given kind. -/
def Piece.quoted (quote : UInt8) : Piece → Text
  | .stray b => "\\x" ++ ofHex 2 b.toNat
  | .scalar code encoding =>
    if code = quote.toNat ∨ code = 0x5c then "\\" ++ encoding
    else if isPrintable code then encoding
    else escape code

/-- The text between double quotes. -/
def quoted (t : Text) : Text :=
  "\"" ++ t.pieces.flatMap (Piece.quoted 0x22) ++ "\""

/-- A scalar value between single quotes; any other number is shown as the replacement character. -/
def quotedScalar (code : Int) : Text :=
  let encoding := match code with
    | .ofNat n => ofScalar n
    | .negSucc _ => "\ufffd"
  "'" ++ encoding.pieces.flatMap (Piece.quoted 0x27) ++ "'"

end ThreeAddress.Text
