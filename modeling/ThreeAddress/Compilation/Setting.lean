import ThreeAddress.Compilation.Basic

/-!
# Settings of a compilation

A compilation starts from a list of settings, applied in order. A later limit or reporter replaces
an earlier one. A registry is asked to accept the three collectors of metrics and may refuse; the
first refusal ends the start, and the settings after it are not applied.
-/

namespace ThreeAddress

/-- What a registry answers when asked to accept a collector. -/
inductive Registration where
  /-- It accepts. -/
  | accepted
  /-- It has the collector already. -/
  | duplicate
  /-- It has the collector already, said with some context. -/
  | wrappedDuplicate
  /-- It refuses for some other reason. -/
  | refused (reason : Text)
  deriving DecidableEq

/-- Why a registration failed; a collector that is there already is no failure. -/
def Registration.refusal? : Registration → Option Text
  | refused reason => some reason
  | _ => none

/-- Asks a registry with the given answers to accept `n` collectors, up to the first refusal: how
often it was asked, and the refusal. It accepts whatever is asked when it has no answers left. -/
def register : (n : Nat) → List Registration → Nat × Option Text
  | 0, _ => (0, none)
  | n + 1, [] => (n + 1, none)
  | n + 1, answer :: rest =>
    match answer.refusal? with
    | some reason => (1, some reason)
    | none =>
      let (calls, refusal) := register n rest
      (calls + 1, refusal)

/-- How many collectors there are: symbols, instructions, diagnostics. -/
def collectors : Nat := 3

/-- A setting. -/
inductive Setting where
  /-- Limit the number of symbols; no limit unless positive. -/
  | limit (n : Int64)
  /-- Log the program at the end. -/
  | dump
  /-- Pass diagnostics on to a reporter. -/
  | reporter (r : Reporter)
  /-- Register with a registry that accepts everything. -/
  | registry
  /-- Register with a registry that gives these answers. -/
  | scripted (answers : List Registration)
  deriving DecidableEq

namespace Setting

/-- The lists that a setting names. -/
def lists : Setting → List Text
  | reporter r => r.filterMap fun
    | .list name => some name
    | .log => none
  | _ => []

/-- Whether a setting brings a registry whose calls are counted. -/
def isScripted : Setting → Bool
  | scripted _ => true
  | _ => false

/-- Applies a setting that does not ask a scripted registry. -/
def apply (c : Compilation) : Setting → Compilation
  | limit n => { c with table := { c.table with limit := n } }
  | dump => { c with dumps := true }
  | reporter r => { c with reporter := r }
  | registry => c
  | scripted _ => c

/-- The fault of a start that a registry refused. -/
def refusalFault (reason : Text) : Fault :=
  .wrapped "registering compiler metrics" (.message reason)

/-- What came of a start. -/
structure Start where
  /-- How often each scripted registry was asked, in order. -/
  calls : List Nat
  /-- The compilation, or why there is none. -/
  outcome : Except Fault Compilation

/-- Applies settings in order, up to the first refusal. -/
def applyAll (c : Compilation) : List Setting → Start
  | [] => ⟨[], .ok c⟩
  | .scripted answers :: rest =>
    match register collectors answers with
    | (calls, some reason) =>
      ⟨calls :: (rest.filter isScripted).map (fun _ => 0), .error (refusalFault reason)⟩
    | (calls, none) =>
      let later := applyAll c rest
      ⟨calls :: later.calls, later.outcome⟩
  | s :: rest => applyAll (s.apply c) rest

end Setting

/-- Starts a compilation with a name and settings. -/
def Compilation.start (name : Text) (settings : List Setting) : Setting.Start :=
  Setting.applyAll { name } settings

end ThreeAddress
