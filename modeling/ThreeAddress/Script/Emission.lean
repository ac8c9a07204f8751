import ThreeAddress.Program
import ThreeAddress.Request
import ThreeAddress.Script.Terms

/-!
# Runs of requests

A script that only makes instructions: requests and fresh labels from one supply, with the
instructions made so far. A request that fails leaves the run as it is, and the run goes on.
-/

namespace ThreeAddress.Script.Emission

/-- An operation of a run; results are bound to the names given. -/
inductive Op where
  /-- Make an instruction. -/
  | emit (r : Request Operand) (bind : Option Operand)
  /-- Take a fresh label. -/
  | label (bind : Option Operand)
  /-- Start both counters again at zero. -/
  | reset
  /-- Set both counters. -/
  | set (temps labels : Int64)

/-- What an operation gave. -/
inductive Result where
  /-- An instruction. -/
  | instr (i : Instr)
  /-- A label. -/
  | label (name : Text)
  /-- Nothing. -/
  | done

/-- What a run has reached. -/
structure State where
  /-- The counters. -/
  supply : NameSupply := {}
  /-- The results bound so far. -/
  bindings : Bindings := []
  /-- The instructions made so far. -/
  program : Program := []

/-- The result of an operation and the state after it. -/
def Op.apply : Op → State → Except Overflow Result × State
  | emit r bind, s =>
    match (r.map (·.read s.bindings)).build s.supply with
    | (.error e, supply) => (.error e, { s with supply })
    | (.ok i, supply) =>
      let bindings := match i.dst? with
        | none => s.bindings
        | some dst => s.bindings.bind bind dst
      (.ok (.instr i), ⟨supply, bindings, s.program ++ [i]⟩)
  | label bind, s =>
    match s.supply.fresh .label with
    | (.error e, supply) => (.error e, { s with supply })
    | (.ok name, supply) =>
      (.ok (.label name), { s with supply, bindings := s.bindings.bind bind name })
  | reset, s => (.ok .done, { s with supply := {} })
  | set temps labels, s => (.ok .done, { s with supply := ⟨temps, labels⟩ })

/-- What an operation logs, given its result. -/
def Result.log (v : Verbosity) : Except Overflow Result → List LogLine
  | .ok (.instr i) => i.trace v
  | _ => []

/-- What one step of a run showed. -/
structure Step where
  /-- The result. -/
  result : Except Overflow Result
  /-- The counters after the step. -/
  supply : NameSupply
  /-- What was logged. -/
  log : List LogLine

/-- The steps of a run, in order, and the state after it. -/
def run (v : Verbosity) : List Op → State → List Step × State
  | [], s => ([], s)
  | op :: ops, s =>
    let (result, s') := op.apply s
    let (steps, last) := run v ops s'
    (⟨result, s'.supply, Result.log v result⟩ :: steps, last)

end ThreeAddress.Script.Emission
