import ThreeAddress.Diagnostic.Sinks
import ThreeAddress.Program
import ThreeAddress.Symbol.Table

/-!
# Compilations

A compilation is one unit of work: its symbols, its counters for fresh names, the program emitted so
far and the diagnostics reported so far, with the reporter that hears of them too.
-/

namespace ThreeAddress

/-- One unit of work. -/
structure Compilation where
  /-- Its name. -/
  name : Text := []
  /-- The symbols declared. -/
  table : SymbolTable := {}
  /-- The counters for fresh names. -/
  supply : NameSupply := {}
  /-- The instructions emitted, in order. -/
  program : Program := []
  /-- The diagnostics reported, in order. -/
  errors : ErrorList := []
  /-- Who else hears of its diagnostics. -/
  reporter : Reporter := []
  /-- Whether the program is logged at the end. -/
  dumps : Bool := false

namespace Compilation

/-- The compilation with one more instruction. -/
def emit (c : Compilation) (i : Instr) : Compilation := { c with program := c.program ++ [i] }

/-- The compilation with one more diagnostic. -/
def record (c : Compilation) (d : Diagnostic) : Compilation := { c with errors := c.errors ++ [d] }

/-- The log line that shows the program. -/
def dumpLine (c : Compilation) : LogLine := .info (c.name ++ " TAC:\n" ++ c.program.text)

/-- The log line for a symbol that was never looked up. -/
def unusedLine (c : Compilation) (s : Symbol) : LogLine :=
  .info (c.name ++ ": declaration of `" ++ s.name ++ "' in scope " ++ Text.ofWord s.scope ++
    " is never used")

/-- What the end of a compilation logs: the program, if asked for, and the symbols never used. -/
def finishLog (v : Verbosity) (c : Compilation) : List LogLine :=
  (if c.dumps then [c.dumpLine] else []) ++
    Verbosity.atLeast 1 v (c.table.unused.map c.unusedLine)

end Compilation

end ThreeAddress
