import ThreeAddress.Instr
import ThreeAddress.Log
import ThreeAddress.NameSupply

/-!
# Requests for instructions

A request names the operands of an instruction; the name that receives a result is taken from the
supply when the instruction is made. Making an instruction leaves a trace in the log.
-/

namespace ThreeAddress

/-- The destination of an instruction that stores a result. -/
def Instr.dst? : Instr → Option Text
  | assign dst .. => some dst
  | load dst .. => some dst
  | _ => none

/-- The log line for an instruction that was made. -/
def Instr.traceLine (i : Instr) : LogLine :=
  .info ("emitting " ++ i.kind.name ++ " `" ++ i.text.chomp ++ "'")

/-- What making an instruction logs: a line for every kind but markers. -/
def Instr.trace (v : Verbosity) (i : Instr) : List LogLine :=
  if i.kind = .label then [] else Verbosity.atLeast 2 v [i.traceLine]

/-- A test of two operands; the operands are given as `τ`. -/
structure Relation (τ : Type) where
  /-- The left operand. -/
  left : τ
  /-- The relation. -/
  relop : τ
  /-- The right operand. -/
  right : τ
  deriving DecidableEq

/-- The same test with other operands. -/
def Relation.map {τ υ : Type} (f : τ → υ) (r : Relation τ) : Relation υ :=
  ⟨f r.left, f r.relop, f r.right⟩

/-- A request for an instruction; operands and targets are given as `τ`. -/
inductive Request (τ : Type) where
  /-- Compute `left op right`. -/
  | binary (left op right : τ)
  /-- Load the element of `array` at `index`. -/
  | index (array index : τ)
  /-- Go to `target` when the test holds. -/
  | branch (test : Relation τ) (target : τ)
  /-- Go to `target`. -/
  | jump (target : τ)
  /-- Mark this place with `name`. -/
  | mark (name : τ)
  deriving DecidableEq

namespace Request

/-- The same request with other operands. -/
def map {τ υ : Type} (f : τ → υ) : Request τ → Request υ
  | binary left op right => binary (f left) (f op) (f right)
  | index array i => index (f array) (f i)
  | branch test target => branch (test.map f) (f target)
  | jump target => jump (f target)
  | mark name => mark (f name)

/-- The instruction requested. A result is stored in a fresh temporary. -/
def build : Request Text → NameSupply → Except Overflow Instr × NameSupply
  | binary left op right, s =>
    let (name, s') := s.fresh .temp
    (name.map (.assign · left op right), s')
  | index array i, s =>
    let (name, s') := s.fresh .temp
    (name.map (.load · array i), s')
  | branch test target, s => (.ok (.condJump test.left test.relop test.right target), s)
  | jump target, s => (.ok (.jump target), s)
  | mark name, s => (.ok (.label name), s)

end Request

end ThreeAddress
