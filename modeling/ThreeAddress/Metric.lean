import ThreeAddress.Diagnostic.Fault
import ThreeAddress.Instr

/-!
# Metrics

What is counted over all compilations of a session: symbols declared, instructions by kind,
diagnostics by class. A tally keeps the counts of the things that occurred.
-/

namespace ThreeAddress

/-- How often each thing occurred; what is not listed did not occur. -/
structure Tally (α : Type) where
  /-- The things that occurred, with their counts. -/
  counts : List (α × Nat) := []

namespace Tally

variable {α : Type} [DecidableEq α]

/-- How often a thing occurred. -/
def count (t : Tally α) (a : α) : Nat := (t.counts.lookup a).getD 0

/-- The counts after one more occurrence. -/
def bumpIn (a : α) : List (α × Nat) → List (α × Nat)
  | [] => [(a, 1)]
  | (b, n) :: rest => if b = a then (b, n + 1) :: rest else (b, n) :: bumpIn a rest

/-- The tally after one more occurrence. -/
def bump (t : Tally α) (a : α) : Tally α := ⟨bumpIn a t.counts⟩

/-- Counting an occurrence changes the count of that thing only. -/
theorem count_bump (t : Tally α) (a b : α) :
    (t.bump a).count b = t.count b + if a = b then 1 else 0 := by
  obtain ⟨counts⟩ := t
  simp only [count, bump]
  induction counts with
  | nil =>
    by_cases h : b = a
    · simp [bumpIn, h]
    · have hb : (b == a) = false := by simpa using h
      simp [bumpIn, List.lookup_cons, hb, Ne.symm h]
  | cons entry rest ih =>
    obtain ⟨c, n⟩ := entry
    by_cases hc : b = c
    · subst hc
      by_cases ha : b = a
      · simp [bumpIn, ha]
      · simp [bumpIn, ha, Ne.symm ha]
    · have hb : (b == c) = false := by simpa using hc
      by_cases ha : c = a
      · subst ha
        simp [bumpIn, List.lookup_cons, hb, Ne.symm hc]
      · simpa [bumpIn, ha, List.lookup_cons, hb] using ih

end Tally

/-- A thing that is counted. -/
inductive Metric where
  /-- A symbol declared by a compilation. -/
  | symbolsDeclared
  /-- An instruction of a kind. -/
  | instructions (k : Kind)
  /-- A diagnostic of a class. -/
  | diagnostics (c : FaultClass)
  deriving DecidableEq

/-- The name under which a count is shown. -/
def Metric.name : Metric → Text
  | symbolsDeclared => "symbols_declared"
  | instructions k => "instructions." ++ k.name
  | diagnostics c => "diagnostics." ++ c.name

end ThreeAddress
