import ThreeAddress.Text.Basic

/-!
# Log lines

What the library reports about its own work, beside its results. Some lines are written always and
some only from a level of verbosity on; no result depends on them.
-/

namespace ThreeAddress

/-- How serious a log line is. -/
inductive Severity where
  /-- A note on progress. -/
  | info
  /-- Something the user should look at. -/
  | warning
  deriving DecidableEq

/-- One entry of a log. -/
structure LogLine where
  /-- How serious the entry is. -/
  severity : Severity
  /-- The text handed to the log. -/
  text : Text
  deriving DecidableEq

/-- How much is logged; higher levels show more. -/
abbrev Verbosity := Int

namespace LogLine

/-- The line as the log shows it: the newline that ends an entry is no part of its message. -/
def message (l : LogLine) : Text := l.text.chomp

/-- A note on progress. -/
def info (text : Text) : LogLine := ⟨.info, text⟩

/-- A warning. -/
def warning (text : Text) : LogLine := ⟨.warning, text⟩

end LogLine

/-- The given lines from a level of verbosity on, and none below it. -/
def Verbosity.atLeast (level v : Verbosity) (lines : List LogLine) : List LogLine :=
  if level ≤ v then lines else []

end ThreeAddress
