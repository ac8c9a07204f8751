import Std.Data.TreeMap
import ThreeAddress.Log
import ThreeAddress.Symbol.Basic
import ThreeAddress.Text.Quoted

/-!
# Symbol tables

A table numbers its symbols in the order of their declaration. A name is declared at most once in a
scope; it is found in the scope asked for or else globally, and every symbol found is marked as
used. A table may have a limit on the number of its symbols. An index from keys to numbers answers
look-ups without a scan of the entries.
-/

namespace ThreeAddress

/-- A table of symbols with the marks of those that were looked up. -/
structure SymbolTable where
  /-- The symbols, each at its number. -/
  symbols : Array Symbol := #[]
  /-- For each symbol whether a look-up has found it. -/
  used : Array Bool := #[]
  /-- The number of the symbol with a key. -/
  index : Std.TreeMap Symbol.Key Nat := {}
  /-- How many symbols the table may hold; no limit unless positive. -/
  limit : Int64 := 0

namespace SymbolTable

/-- An empty table. Of several limits the last one counts. -/
def withLimits (limits : List Int64) : SymbolTable := { limit := limits.getLastD 0 }

/-- How many symbols the table holds. -/
def size (t : SymbolTable) : Nat := t.symbols.size

/-- Whether the table holds as many symbols as it may. -/
def isFull (t : SymbolTable) : Bool := 0 < t.limit ∧ t.limit.toInt ≤ t.size

/-- The table with one more symbol, not yet used. -/
def push (t : SymbolTable) (s : Symbol) : SymbolTable :=
  { t with
    symbols := t.symbols.push s
    used := t.used.push false
    index := t.index.insert s.key t.size }

/-- Declares a symbol and gives its number. A full table refuses every declaration; otherwise a key
that the table already holds is refused. -/
def declare (s : Symbol) (t : SymbolTable) : Except SymbolError Nat × SymbolTable :=
  if t.isFull then (.error (.capacity t.limit), t)
  else match t.index[s.key]? with
    | some id => (.error (.redeclaration s.name s.scope s.pos (t.symbols.getD id {})), t)
    | none => (.ok t.size, t.push s)

/-- The number of the symbol that a name stands for in a scope. -/
def find? (t : SymbolTable) (name : Text) (scope : Scope) : Option Nat :=
  t.index[(⟨name, scope⟩ : Symbol.Key)]? <|> t.index[(⟨name, globalScope⟩ : Symbol.Key)]?

/-- The table with a symbol marked as used. -/
def mark (t : SymbolTable) (id : Nat) : SymbolTable :=
  { t with used := t.used.setIfInBounds id true }

/-- Looks a name up from a scope, gives the number of its symbol and marks it as used. -/
def lookup (name : Text) (scope : Scope) (t : SymbolTable) : Except SymbolError Nat × SymbolTable :=
  match t.find? name scope with
  | some id => (.ok id, t.mark id)
  | none => (.error (.notFound name scope), t)

/-- The symbol with a number, if there is one. -/
def symbol? (t : SymbolTable) (id : Int) : Option Symbol :=
  if 0 ≤ id then t.symbols[id.toNat]? else none

/-- The symbols, each with its mark, in order. -/
def entries (t : SymbolTable) : List (Symbol × Bool) := t.symbols.toList.zip t.used.toList

/-- The symbols that no look-up has found, in order. -/
def unused (t : SymbolTable) : List Symbol := (t.entries.filter fun e => !e.2).map Prod.fst

/-- The line of a dump for the symbol with a number. -/
def dumpLine (id : Nat) (s : Symbol) (used : Bool) : Text :=
  "\t" ++ Text.ofNat id ++ ": " ++ s.name.quoted ++ " " ++ s.type.quoted ++ " scope " ++
    Text.ofWord s.scope ++ " used " ++ (if used then "true" else "false") ++ "\n"

/-- The lines for symbols numbered from `id` on. -/
def dumpFrom : (id : Nat) → List (Symbol × Bool) → Text
  | _, [] => []
  | id, (s, used) :: rest => dumpLine id s used ++ dumpFrom (id + 1) rest

/-- The body of a dump: a line for each symbol and the closing brace. -/
def dump (t : SymbolTable) : Text := dumpFrom 0 t.entries ++ "\x7d\n"

/-- The log line for a symbol that was declared. -/
def declaredLine (s : Symbol) (id : Nat) : LogLine :=
  .info ("declared " ++ s.name.quoted ++ " type " ++ s.type.quoted ++ " in scope " ++
    Text.ofWord s.scope ++ " as symbol " ++ Text.ofNat id)

/-- What a declaration logs: a line when it succeeded. -/
def declareLog (v : Verbosity) (s : Symbol) : Except SymbolError Nat → List LogLine
  | .ok id => Verbosity.atLeast 2 v [declaredLine s id]
  | .error _ => []

/-- An operation on a table. -/
inductive Op where
  /-- Declare a symbol. -/
  | declare (s : Symbol)
  /-- Look a name up from a scope. -/
  | lookup (name : Text) (scope : Scope)
  /-- Ask for the symbol with a number. -/
  | symbol (id : Int)
  /-- Ask for the number of symbols. -/
  | size
  /-- Ask for all symbols. -/
  | symbols
  /-- Ask for the symbols never found. -/
  | unused
  /-- Ask for a dump. -/
  | dump
  deriving DecidableEq

/-- The answer to an operation. -/
inductive Answer where
  /-- The number of a symbol, or why there is none. -/
  | id (result : Except SymbolError Nat)
  /-- The symbol asked for. -/
  | symbol (found : Option Symbol)
  /-- The number of symbols. -/
  | size (n : Nat)
  /-- Several symbols. -/
  | symbols (all : List Symbol)
  /-- A dump. -/
  | text (t : Text)

/-- The answer to an operation and the table after it. -/
def Op.apply : Op → SymbolTable → Answer × SymbolTable
  | declare s, t => let (r, t') := t.declare s; (.id r, t')
  | lookup name scope, t => let (r, t') := t.lookup name scope; (.id r, t')
  | symbol id, t => (.symbol (t.symbol? id), t)
  | size, t => (.size t.size, t)
  | symbols, t => (.symbols t.symbols.toList, t)
  | unused, t => (.symbols t.unused, t)
  | dump, t => (.text t.dump, t)

/-- What an operation logs, given its answer. -/
def Op.log (v : Verbosity) : Op → Answer → List LogLine
  | declare s, .id result => declareLog v s result
  | _, _ => []

/-- What one step of a run showed. -/
structure Step where
  /-- The answer. -/
  answer : Answer
  /-- What was logged. -/
  log : List LogLine

/-- The steps of a run, in order, and the table after it. -/
def run (v : Verbosity) : List Op → SymbolTable → List Step × SymbolTable
  | [], t => ([], t)
  | op :: ops, t =>
    let (answer, t') := op.apply t
    let (steps, last) := run v ops t'
    (⟨answer, op.log v answer⟩ :: steps, last)

end SymbolTable

end ThreeAddress
