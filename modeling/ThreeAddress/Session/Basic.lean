import ThreeAddress.Compilation.Setting
import ThreeAddress.Metric
import ThreeAddress.Script.Statement

/-!
# Sessions

A session holds several compilations and what they share: the sinks, the metrics, the results bound
by the script and the log. Work in a session can end early with an overflow; what it did until then
stays. This file has the single steps from which all work is made.
-/

namespace ThreeAddress

open Script (Bindings Operand UnitId)

/-- Several compilations and what they share. -/
structure Session where
  /-- The units; a unit whose start was refused has no compilation. -/
  units : List (Option Compilation)
  /-- The named lists. -/
  sinks : Sinks := {}
  /-- What was counted. -/
  metrics : Tally Metric := {}
  /-- The results bound so far. -/
  bindings : Bindings := []
  /-- What was logged by the statement that runs. -/
  log : List LogLine := []

/-- Work in a session that gives an `α` or ends with an overflow. -/
abbrev SessionM := ExceptT Overflow (StateM Session)

namespace Session

/-- A unit to be started: its name and settings. -/
structure UnitPlan where
  /-- The name. -/
  name : Text
  /-- The settings, in order. -/
  settings : List Setting

/-- Starts every unit in order. All lists that settings name are among the sinks, whether or not the
unit could be started. -/
def start (plans : List UnitPlan) : List Setting.Start × Session :=
  let starts := plans.map fun p => Compilation.start p.name p.settings
  let lists := plans.flatMap fun p => p.settings.flatMap Setting.lists
  (starts, { units := starts.map (·.outcome.toOption), sinks := ({} : Sinks).mention lists })

/-- The compilation of a unit, if it has one. -/
def unit? (s : Session) (u : UnitId) : Option Compilation := s.units[u]?.join

/-- The compilation of a unit; a blank one stands for a missing one. -/
def unit (s : Session) (u : UnitId) : Compilation := (s.unit? u).getD {}

/-- The session with another compilation for a unit that has one. -/
def setUnit (s : Session) (u : UnitId) (c : Compilation) : Session :=
  { s with units := s.units.modify u (·.map fun _ => c) }

/-- Replacing one compilation leaves the others alone. -/
theorem unit?_setUnit (s : Session) (u w : UnitId) (c : Compilation) :
    (s.setUnit u c).unit? w = if u = w then (s.unit? w).map fun _ => c else s.unit? w := by
  simp only [unit?, setUnit, List.getElem?_modify]
  by_cases h : u = w
  · subst h
    cases hu : s.units[u]? with
    | none => simp
    | some unit => cases unit <;> simp
  · simp [h]

/-- The compilation of a unit. -/
def getUnit (u : UnitId) : SessionM Compilation := return (← get).unit u

/-- Replaces the compilation of a unit. -/
def putUnit (u : UnitId) (c : Compilation) : SessionM Unit := modify (·.setUnit u c)

/-- Adds lines to the log. -/
def write (lines : List LogLine) : SessionM Unit := modify fun s => { s with log := s.log ++ lines }

/-- Counts one occurrence. -/
def tally (m : Metric) : SessionM Unit := modify fun s => { s with metrics := s.metrics.bump m }

/-- The results bound so far. -/
def getBindings : SessionM Bindings := return (← get).bindings

/-- Binds a result to the name that an operand stands for, when one is given. -/
def bindResult (name : Option Operand) (t : Text) : SessionM Unit :=
  modify fun s => { s with bindings := s.bindings.bind name t }

/-- Appends an instruction to the program of a unit and counts it. -/
def append (u : UnitId) (i : Instr) : SessionM Unit := do
  putUnit u ((← getUnit u).emit i)
  tally (.instructions i.kind)

/-- Takes a fresh name from the supply of a unit. -/
def fresh (u : UnitId) (category : Category) : SessionM Text := do
  let c ← getUnit u
  let (name, supply) := c.supply.fresh category
  putUnit u { c with supply }
  ofExcept name

/-- Makes the instruction requested, traces it and appends it. -/
def emit (v : Verbosity) (u : UnitId) (r : Request Text) : SessionM Instr := do
  let c ← getUnit u
  let (made, supply) := r.build c.supply
  putUnit u { c with supply }
  let i ← ofExcept made
  write (i.trace v)
  append u i
  return i

/-- Counts a diagnostic of a unit, records it there and passes it on to the reporter of the unit. -/
def report (u : UnitId) (d : Diagnostic) : SessionM Unit := do
  tally (.diagnostics d.value.classify)
  let c ← getUnit u
  putUnit u (c.record d)
  let (sinks, lines) := c.reporter.relay d (← get).sinks
  modify fun s => { s with sinks }
  write lines

/-- Declares a symbol in a unit. Success is counted and failure reported at the symbol's place. -/
def declare (v : Verbosity) (u : UnitId) (s : Symbol) : SessionM (Except SymbolError Nat) := do
  let c ← getUnit u
  let (result, table) := c.table.declare s
  putUnit u { c with table }
  write (SymbolTable.declareLog v s result)
  match result with
  | .ok _ => tally .symbolsDeclared
  | .error e => report u ⟨s.pos, .symbol e⟩
  return result

/-- Finds what a name stands for in a scope of a unit and gives the operand for it. Failure is
reported. -/
def resolve (u : UnitId) (pos : Option Position) (name : Text) (scope : Scope) :
    SessionM (Except SymbolError Text) := do
  let c ← getUnit u
  let (result, table) := c.table.lookup name scope
  putUnit u { c with table }
  match result with
  | .ok id => return .ok ((table.symbol? id).getD {}).name
  | .error e =>
    report u ⟨pos, .symbol e⟩
    return .error e

/-- Works on the symbol table of a unit. -/
def onTable (v : Verbosity) (u : UnitId) (op : SymbolTable.Op) : SessionM SymbolTable.Answer := do
  let c ← getUnit u
  let (answer, table) := op.apply c.table
  putUnit u { c with table }
  write (op.log v answer)
  return answer

/-- Sets both counters of a unit. -/
def setCounters (u : UnitId) (supply : NameSupply) : SessionM Unit := do
  putUnit u { ← getUnit u with supply }

/-- Ends the compilation of a unit, with what there is to log. -/
def finish (v : Verbosity) (u : UnitId) : SessionM Compilation := do
  let c ← getUnit u
  write (c.finishLog v)
  return c

end Session

end ThreeAddress
