import ThreeAddress.Session.Lowering

/-!
# Running a script

Every statement gives an answer: what it found or made, and the length its unit's program then has.
A statement about a unit without a compilation does nothing. An overflow ends the outermost
statement that runs; the statements after it go on from what was done until then.
-/

namespace ThreeAddress.Session

open Script (Action Operand Place Statement UnitId)

/-- What an action found or made. -/
inductive Result where
  /-- Nothing to tell. -/
  | done
  /-- The number of the symbol declared, or why there is none. -/
  | declared (r : Except SymbolError Nat)
  /-- The operand that a name stands for, or why there is none. -/
  | resolved (r : Except SymbolError Text)
  /-- A fresh temporary. -/
  | temp (name : Text)
  /-- A fresh label. -/
  | label (name : Text)
  /-- The answer of the symbol table. -/
  | table (a : SymbolTable.Answer)
  /-- The diagnostics so far as one fault, if there are any. -/
  | errors (f : Option Fault)
  /-- The program at the end, and the diagnostics as one fault, if there are any. -/
  | finished (p : Program) (f : Option Fault)
  /-- The first node of the kind asked for. -/
  | found (f : Option Fault)

/-- The answer of a statement. -/
inductive Answer where
  /-- The unit has no compilation. -/
  | noUnit
  /-- An action, with the length of the program after it. -/
  | action (length : Nat) (result : Result)
  /-- A conditional or a loop, with the answers of its statements in the order in which they ran. -/
  | block (length : Nat) (answers : List Answer)

/-- Runs an action on a unit. -/
def runAction (v : Verbosity) (u : UnitId) : Action → SessionM Result
  | .declare d typePos => do
    let b ← getBindings
    let s := d.read b
    return .declared (← declare v u { s with pos := Position.merge s.pos (typePos.map (·.read b)) })
  | .resolve pos name scope bind => do
    let b ← getBindings
    let result ← resolve u (pos.map (·.read b)) (name.read b) scope
    bindResult bind (match result with
      | .ok operand => operand
      | .error _ => [])
    return .resolved result
  | .emit r bind => do
    let i ← emit v u (r.map (·.read (← getBindings)))
    match i.dst? with
    | none => return .done
    | some dst =>
      bindResult bind dst
      return .temp dst
  | .label bind => do
    let name ← fresh u .label
    bindResult bind name
    return .label name
  | .report pos cause => do
    let b ← getBindings
    modify fun s => { s with sinks := s.sinks.mention (cause.lists b) }
    match cause.build? b (← get).sinks with
    -- Only faults are reported; an action without one stands for no report.
    | none => return .done
    | some f =>
      report u ⟨pos.map (·.read b), f⟩
      return .done
  | .setCounters temps labels => do
    setCounters u ⟨temps, labels⟩
    return .done
  | .table op => return .table (← onTable v u (op.read (← getBindings)))
  | .errors => return .errors (← getUnit u).errors.fault?
  | .finish => do
    let c ← finish v u
    return .finished c.program c.errors.fault?
  | .find kind => return .found ((← getUnit u).errors.fault?.bind (·.find? kind))

/-- The length of the program of a unit. -/
def programLength (u : UnitId) : SessionM Nat := return (← getUnit u).program.length

/-- Does work on a unit if it has a compilation. -/
def onUnit (u : UnitId) (work : SessionM Answer) : SessionM Answer := do
  if ((← get).unit? u).isSome then work else return .noUnit

mutual

/-- Runs a statement. The operands of a conditional's test are read before anything is emitted,
those of a loop's test after its preparation. -/
def runStatement (v : Verbosity) : Statement → SessionM Answer
  | .act u a => onUnit u do
    let result ← runAction v u a
    return .action (← programLength u) result
  | .ifThen u test yes => onUnit u do
    let relation := test.map (·.read (← getBindings))
    let answers ← ifThen v u relation (runBlock v yes)
    return .block (← programLength u) answers
  | .ifElse u test yes no => onUnit u do
    let relation := test.map (·.read (← getBindings))
    let answers ← ifElse v u relation (runBlock v yes) (runBlock v no)
    return .block (← programLength u) answers
  | .loop u pre test body => onUnit u do
    let prepared : SessionM (List Answer × Relation Text) := do
      let answers ← runBlock v pre
      return (answers, test.map (·.read (← getBindings)))
    let answers ← loop v u prepared (runBlock v body)
    return .block (← programLength u) answers

/-- Runs the statements of a block in order. -/
def runBlock (v : Verbosity) : List Statement → SessionM (List Answer)
  | [] => return []
  | s :: rest => do
    let answer ← runStatement v s
    let answers ← runBlock v rest
    return answer :: answers

end

/-- What an outermost statement showed. -/
structure Step where
  /-- Its answer, or the overflow that ended it. -/
  outcome : Except Overflow Answer
  /-- What was logged. -/
  log : List LogLine

/-- Runs an outermost statement with an empty log. -/
def step (v : Verbosity) (st : Statement) (s : Session) : Step × Session :=
  let (outcome, s') := (runStatement v st).run { s with log := [] }
  (⟨outcome, s'.log⟩, s')

/-- The steps of a script, in order, and the session after it. -/
def run (v : Verbosity) : List Statement → Session → List Step × Session
  | [], s => ([], s)
  | st :: rest, s =>
    let (first, s') := step v st s
    let (later, last) := run v rest s'
    (first :: later, last)

end ThreeAddress.Session
