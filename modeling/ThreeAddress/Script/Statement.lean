import ThreeAddress.Request
import ThreeAddress.Script.Terms
import ThreeAddress.Symbol.Table

/-!
# Statements of a script

A script is a list of statements, each about one unit. An action is a single operation; a
conditional or a loop has blocks of further statements, which may be about other units.
-/

namespace ThreeAddress.Script

/-- The number of a unit in its session. -/
abbrev UnitId := Nat

/-- An operation on the symbol table of a unit. -/
inductive TableOp where
  /-- Declare a symbol. -/
  | declare (d : Declaration)
  /-- Look a name up from a scope. -/
  | lookup (name : Operand) (scope : Scope)
  /-- Ask for the symbol with a number. -/
  | symbol (id : Int)
  /-- Ask for the number of symbols. -/
  | size
  /-- Ask for all symbols. -/
  | symbols
  /-- Ask for the symbols never found. -/
  | unused
  /-- Ask for a dump. -/
  | dump
  deriving DecidableEq

/-- The table operation that is meant. -/
def TableOp.read (b : Bindings) : TableOp → SymbolTable.Op
  | declare d => .declare (d.read b)
  | lookup name scope => .lookup (name.read b) scope
  | symbol id => .symbol id
  | size => .size
  | symbols => .symbols
  | unused => .unused
  | dump => .dump

/-- A single operation on a unit. A result is bound to the name given, if any. -/
inductive Action where
  /-- Declare a symbol; `typePos` is the place of its type when that stands apart from the name. -/
  | declare (d : Declaration) (typePos : Option Place)
  /-- Find what a name stands for in a scope. -/
  | resolve (pos : Option Place) (name : Operand) (scope : Scope) (bind : Option Operand)
  /-- Emit an instruction. -/
  | emit (r : Request Operand) (bind : Option Operand)
  /-- Take a fresh label. -/
  | label (bind : Option Operand)
  /-- Report a fault. -/
  | report (pos : Option Place) (cause : Cause)
  /-- Set both counters. -/
  | setCounters (temps labels : Int64)
  /-- Work on the symbol table directly. -/
  | table (op : TableOp)
  /-- Ask for the diagnostics. -/
  | errors
  /-- End the compilation. -/
  | finish
  /-- Ask for the first node of a kind among the diagnostics. -/
  | find (kind : FaultKind)
  deriving DecidableEq

/-- A statement about a unit. -/
inductive Statement where
  /-- A single operation. -/
  | act (u : UnitId) (a : Action)
  /-- Run a block if a test holds. -/
  | ifThen (u : UnitId) (test : Relation Operand) (yes : List Statement)
  /-- Run one of two blocks. -/
  | ifElse (u : UnitId) (test : Relation Operand) (yes no : List Statement)
  /-- Run a block as long as a test holds; the statements of `pre` prepare each test. -/
  | loop (u : UnitId) (pre : List Statement) (test : Relation Operand) (body : List Statement)

end ThreeAddress.Script
