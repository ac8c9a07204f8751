import ThreeAddress.Text.Basic

/-!
# Three-address instructions

The five instructions of the target language, their kinds and the line of text that shows each.
-/

namespace ThreeAddress

/-- The kinds of instruction. -/
inductive Kind where
  /-- A binary operation whose result is stored. -/
  | assign
  /-- A jump taken when a relation holds. -/
  | condJump
  /-- An unconditional jump. -/
  | jump
  /-- A load of one array element. -/
  | load
  /-- A marker that jumps can name. -/
  | label
  deriving DecidableEq, Inhabited

namespace Kind

/-- The name under which a kind is shown and counted. -/
def name : Kind → Text
  | assign => "assign"
  | condJump => "condjump"
  | jump => "jump"
  | load => "load"
  | label => "label"

/-- The kind with a numeric code; the codes are 0 to 4. -/
def ofCode? (code : Int64) : Option Kind :=
  match code.toInt with
  | 0 => some assign
  | 1 => some condJump
  | 2 => some jump
  | 3 => some load
  | 4 => some label
  | _ => none

/-- The name of the kind with a numeric code, or `unknown` when there is none. -/
def nameOfCode (code : Int64) : Text := ((ofCode? code).map name).getD "unknown"

end Kind

/-- A three-address instruction. Operands, operators and targets are texts
that stand for themselves. -/
inductive Instr where
  /-- Stores the result of `left op right` in `dst`. -/
  | assign (dst left op right : Text)
  /-- Goes to `target` when `left relop right` holds. -/
  | condJump (left relop right target : Text)
  /-- Goes to `target`. -/
  | jump (target : Text)
  /-- Stores the element of `array` at `index` in `dst`. -/
  | load (dst array index : Text)
  /-- Marks the place that jumps to `name` reach. -/
  | label (name : Text)
  deriving DecidableEq, Inhabited

namespace Instr

/-- The kind of an instruction. -/
def kind : Instr → Kind
  | assign .. => .assign
  | condJump .. => .condJump
  | jump .. => .jump
  | load .. => .load
  | label .. => .label

/-- The line that shows an instruction, newline included. -/
def text : Instr → Text
  | assign dst left op right => dst ++ " = " ++ left ++ " " ++ op ++ " " ++ right ++ "\n"
  | condJump left relop right target =>
    "if " ++ left ++ " " ++ relop ++ " " ++ right ++ " goto " ++ target ++ "\n"
  | jump target => "goto " ++ target ++ "\n"
  | load dst array index => dst ++ " = " ++ array ++ "[" ++ index ++ "]\n"
  | label name => name ++ ":\n"

end Instr

end ThreeAddress
