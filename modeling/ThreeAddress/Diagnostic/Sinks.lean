import ThreeAddress.Diagnostic.Fault
import ThreeAddress.Log

/-!
# Where diagnostics go

A reporter passes every diagnostic on to its targets, one after another: the log, where it becomes a
warning, or a named list, which keeps it. The named lists together are the sinks.
-/

namespace ThreeAddress

/-- A place to which diagnostics can be passed on. -/
inductive Target where
  /-- The log. -/
  | log
  /-- The list with a name. -/
  | list (name : Text)
  deriving DecidableEq

/-- Targets in the order in which they are served; one that occurs twice is served twice. -/
abbrev Reporter := List Target

namespace Reporter

/-- A reporter with at most one target. -/
def single (target : Option Target) : Reporter := target.toList

/-- A reporter with several targets, of which some may be missing. -/
def tee (targets : List (Option Target)) : Reporter := targets.filterMap id

end Reporter

/-- Named lists of diagnostics. -/
structure Sinks where
  /-- Each list that was ever named, with its name. -/
  lists : List (Text × ErrorList) := []

namespace Sinks

/-- The list with a name; empty when nothing was put there. -/
def get (s : Sinks) (name : Text) : ErrorList := (s.lists.lookup name).getD []

/-- Changes the entry with a name, which is added when missing. -/
def update (name : Text) (f : ErrorList → ErrorList) :
    List (Text × ErrorList) → List (Text × ErrorList)
  | [] => [(name, f [])]
  | (n, l) :: rest => if n = name then (n, f l) :: rest else (n, l) :: update name f rest

/-- Changes the list with a name. -/
def modify (s : Sinks) (name : Text) (f : ErrorList → ErrorList) : Sinks :=
  ⟨update name f s.lists⟩

/-- A change of one list leaves the others alone. -/
theorem get_modify (s : Sinks) (name other : Text) (f : ErrorList → ErrorList) :
    (s.modify name f).get other = if other = name then f (s.get other) else s.get other := by
  obtain ⟨lists⟩ := s
  simp only [get, modify]
  induction lists with
  | nil =>
    by_cases h : other = name
    · simp [update, h]
    · have hb : (other == name) = false := by simpa using h
      simp [update, List.lookup_cons, h, hb]
  | cons entry rest ih =>
    obtain ⟨n, l⟩ := entry
    by_cases ho : other = n
    · subst ho
      by_cases hn : other = name <;> simp [update, hn]
    · have hb : (other == n) = false := by simpa using ho
      by_cases hn : n = name
      · subst hn
        simp [update, List.lookup_cons, ho, hb]
      · simpa [update, hn, List.lookup_cons, hb] using ih

/-- Makes sure that the names are among the named lists. -/
def mention (s : Sinks) (names : List Text) : Sinks :=
  names.foldl (fun s name => s.modify name id) s

/-- Adds a diagnostic at the end of a list. -/
def report (s : Sinks) (name : Text) (d : Diagnostic) : Sinks := s.modify name (· ++ [d])

/-- Adds the diagnostics that one list holds at the end of another, which may be the same. -/
def append (s : Sinks) (name source : Text) : Sinks := s.modify name (· ++ s.get source)

end Sinks

/-- The warning that shows a diagnostic in the log. -/
def Diagnostic.warning (d : Diagnostic) : LogLine := .warning d.text

/-- Passes a diagnostic on to every target of a reporter: the sinks after it and what was logged. -/
def Reporter.relay (d : Diagnostic) : Reporter → Sinks → Sinks × List LogLine
  | [], s => (s, [])
  | .log :: rest, s =>
    let (s', log) := relay d rest s
    (s', d.warning :: log)
  | .list name :: rest, s => relay d rest (s.report name d)

end ThreeAddress
