/-!
# Byte texts

Names, operands and messages are finite sequences of bytes. Most are UTF-8, none has to be, and two
texts are equal only byte by byte. Numbers are written in decimal with the fewest digits.
-/

namespace ThreeAddress

/-- A text: any sequence of bytes. -/
abbrev Text := List UInt8

namespace Text

/-- The UTF-8 bytes of a string. -/
def ofString (s : String) : Text := s.toUTF8.data.toList

instance : Coe String Text := ⟨ofString⟩

/-- The byte that ends a line. -/
def newline : UInt8 := 10

/-- The decimal digits of a natural number, without leading zeros; zero is one digit. -/
def ofNat (n : Nat) : Text := (Nat.toDigits 10 n).map Char.toUInt8

/-- The decimal digits of an integer, after a minus sign when it is negative. -/
def ofInt : Int → Text
  | .ofNat n => ofNat n
  | .negSucc n => "-" ++ ofNat (n + 1)

/-- The decimal text of a signed 64-bit word. -/
def ofWord (w : Int64) : Text := ofInt w.toInt

/-- The text without its last byte, when that byte ends a line. -/
def chomp (t : Text) : Text :=
  if t.getLast? = some newline then t.dropLast else t

/-- The texts one after another, with a separator between neighbours. -/
def join (separator : Text) (parts : List Text) : Text := separator.intercalate parts

end Text

end ThreeAddress
