import ThreeAddress.Script.Terms

/-!
# Runs over named lists

Operations on named lists of diagnostics: add to a list, append one list to another, pass
a diagnostic on to several, ask for what a list holds. A list reported as a fault is
taken as it is at that moment.
-/

namespace ThreeAddress.Script.Lists

/-- An operation on the list it is applied to. -/
inductive Op where
  /-- Add a plain message. -/
  | add (pos : Option Position) (message : Text)
  /-- Add a fault. -/
  | report (pos : Option Position) (cause : Cause)
  /-- Add what another list holds. -/
  | append (source : Text)
  /-- Pass a fault on to a reporter. -/
  | relay (targets : Reporter) (pos : Option Position) (cause : Cause)
  /-- Ask for the wording. -/
  | text
  /-- Ask whether the list is empty. -/
  | isEmpty
  /-- Ask for the faults. -/
  | faults
  /-- Ask for an entry and the first node of a kind in it. -/
  | entry (i : Nat) (kind : FaultKind)
  /-- Ask for the first node of a kind. -/
  | find (kind : FaultKind)

/-- The answer to an operation. -/
inductive Answer where
  /-- How many diagnostics the list holds. -/
  | length (n : Nat)
  /-- The wording. -/
  | text (t : Text)
  /-- Whether the list is empty. -/
  | isEmpty (b : Bool)
  /-- The faults. -/
  | faults (fs : List Fault)
  /-- The wording of an entry and the node found in it. -/
  | entry (t : Text) (found : Option Fault)
  /-- The node found. -/
  | found (f : Option Fault)

/-- The lists that an operation names beside the one it is applied to. -/
def Op.lists : Op → List Text
  | report _ cause => cause.lists []
  | append source => [source]
  | relay targets _ cause => cause.lists [] ++ targets.filterMap fun
    | .list name => some name
    | .log => none
  | _ => []

/-- Passes the fault that a cause stands for on to a reporter. Where there is no fault nothing is
passed on: a reporter is handed faults only, and an operation without one stands for no call. -/
def relayCause (targets : Reporter) (pos : Option Position) (cause : Cause) (s : Sinks) :
    Sinks × List LogLine :=
  match cause.build? [] s with
  | none => (s, [])
  | some f => targets.relay ⟨pos, f⟩ s

/-- The sinks after an operation on the list `name`, and what was logged. -/
def Op.apply (name : Text) : Op → Sinks → Sinks × List LogLine
  | add pos message, s => (s.report name ⟨pos, .message message⟩, [])
  | report pos cause, s => relayCause [.list name] pos cause s
  | append source, s => (s.append name source, [])
  | relay targets pos cause, s => relayCause targets pos cause s
  | _, s => (s, [])

/-- The answer of an operation from the list as it is after it. -/
def Op.answer (l : ErrorList) : Op → Answer
  | text => .text l.text
  | isEmpty => .isEmpty l.isEmpty
  | faults => .faults l.faults
  | entry i kind => match l[i]? with
    | none => .entry [] none
    | some d => .entry d.text (d.find? kind)
  | find kind => .found (Fault.find? kind (.list l))
  | _ => .length l.length

/-- What one step of a run showed. -/
structure Step where
  /-- The answer. -/
  answer : Answer
  /-- What was logged. -/
  log : List LogLine

/-- The steps of a run, each an operation on a named list, and the sinks after it. -/
def run : List (Text × Op) → Sinks → List Step × Sinks
  | [], s => ([], s)
  | (name, op) :: ops, s =>
    let (s', log) := op.apply name (s.mention (name :: op.lists))
    let (steps, last) := run ops s'
    (⟨op.answer (s'.get name), log⟩ :: steps, last)

end ThreeAddress.Script.Lists
