import Mathlib.Logic.Function.Basic
import ThreeAddress.Proofs.Names
import ThreeAddress.Proofs.Positions

/-!
# Executing a program

A machine for programs, over any values. It stands at a position of the program with an environment
that gives names their values; a jump goes to the marker with its target's name. What the texts of
operands, operators, relations and arrays mean is left to an interpretation. Main statements: a step
of the machine can be taken or undone in front of any run to the end of the program, and a piece of
code lies in a program instruction by instruction.
-/

namespace ThreeAddress

variable {V : Type*}

/-- What the texts in a program mean, given an environment. -/
structure Interpretation (V : Type*) where
  /-- The value of an operand. -/
  operand : (Text → V) → Text → V
  /-- The result of a binary operator. -/
  operator : Text → V → V → V
  /-- Whether a relation holds between two values. -/
  relop : Text → V → V → Bool
  /-- The element of an array at an index. -/
  element : (Text → V) → Text → V → V

namespace Interpretation

/-- The value that an assignment stores. -/
def binary (I : Interpretation V) (E : Text → V) (left op right : Text) : V :=
  I.operator op (I.operand E left) (I.operand E right)

/-- The value that a load stores. -/
def load (I : Interpretation V) (E : Text → V) (array index : Text) : V :=
  I.element E array (I.operand E index)

/-- Whether a test holds. -/
def holds (I : Interpretation V) (E : Text → V) (test : Relation Text) : Bool :=
  I.relop test.relop (I.operand E test.left) (I.operand E test.right)

end Interpretation

/-- The position of the marker with a name, of the first one if there are several. -/
def Program.markerAt? (P : Program) (name : Text) : Option Nat := P.findIdx? (· = Instr.label name)

namespace Machine

/-- One step from a position and an environment. There is none from a position without an
instruction, nor to a marker that the program does not have. -/
def step (I : Interpretation V) (P : Program) (pc : Nat) (E : Text → V) :
    Option (Nat × (Text → V)) :=
  match P[pc]? with
  | none => none
  | some (.assign dst left op right) =>
    some (pc + 1, Function.update E dst (I.binary E left op right))
  | some (.load dst array index) => some (pc + 1, Function.update E dst (I.load E array index))
  | some (.condJump left relop right target) =>
    if I.holds E ⟨left, relop, right⟩ then (P.markerAt? target).map (·, E) else some (pc + 1, E)
  | some (.jump target) => (P.markerAt? target).map (·, E)
  | some (.label _) => some (pc + 1, E)

/-- Execution first reaches the position `stop` after the given number of steps,
with the environment `E'`. -/
inductive ReachesIn (I : Interpretation V) (P : Program) (stop : Nat) (E' : Text → V) :
    Nat → Nat → (Text → V) → Prop where
  /-- Execution stands there. -/
  | here : ReachesIn I P stop E' 0 stop E'
  /-- Execution stands elsewhere and reaches it after one more step. -/
  | step {n pc pc₁ : Nat} {E E₁ : Text → V} (hpc : pc ≠ stop)
      (hstep : step I P pc E = some (pc₁, E₁)) (hrest : ReachesIn I P stop E' n pc₁ E₁) :
      ReachesIn I P stop E' (n + 1) pc E

/-- Execution from a position and an environment first reaches the position `stop`
with the environment `E'`. -/
def FirstReaches (I : Interpretation V) (P : Program) (stop pc : Nat) (E E' : Text → V) : Prop :=
  ∃ n, ReachesIn I P stop E' n pc E

section Steps

variable {I : Interpretation V} {P : Program} {pc b : Nat} {E : Text → V}

theorem step_assign {dst left op right : Text} (h : P[pc]? = some (.assign dst left op right)) :
    step I P pc E = some (pc + 1, Function.update E dst (I.binary E left op right)) := by
  simp only [step, h]

theorem step_load {dst array index : Text} (h : P[pc]? = some (.load dst array index)) :
    step I P pc E = some (pc + 1, Function.update E dst (I.load E array index)) := by
  simp only [step, h]

theorem step_label {name : Text} (h : P[pc]? = some (.label name)) :
    step I P pc E = some (pc + 1, E) := by
  simp only [step, h]

theorem step_jump {target : Text} (h : P[pc]? = some (.jump target))
    (hb : P.markerAt? target = some b) : step I P pc E = some (b, E) := by
  simp only [step, h, hb, Option.map_some]

theorem step_condJump_of_holds {test : Relation Text} {target : Text}
    (h : P[pc]? = some (.condJump test.left test.relop test.right target))
    (hb : P.markerAt? target = some b) (ht : I.holds E test = true) :
    step I P pc E = some (b, E) := by
  simp only [step, h, hb, ht, if_true, Option.map_some]

theorem step_condJump_of_not_holds {test : Relation Text} {target : Text}
    (h : P[pc]? = some (.condJump test.left test.relop test.right target))
    (ht : I.holds E test = false) : step I P pc E = some (pc + 1, E) := by
  simp only [step, h, ht, Bool.false_eq_true, if_false]

end Steps

/-- Execution goes from one place to another in a number of steps, inside the program: what reaches
the end of the program from the first place does so by way of the second. -/
def Leads (I : Interpretation V) (P : Program) (k a : Nat) (E : Text → V) (b : Nat)
    (E₁ : Text → V) :
    Prop :=
  ∀ E' n, ReachesIn I P P.length E' n a E ↔ ∃ m, n = m + k ∧ ReachesIn I P P.length E' m b E₁

namespace Leads

variable {I : Interpretation V} {P : Program} {j k a b c : Nat} {E E₁ E₂ E' : Text → V}

theorem of_step (h : Machine.step I P a E = some (b, E₁)) : Leads I P 1 a E b E₁ := by
  -- Nothing stands at the end of the program, so a place with a step is not the end.
  have ha : a ≠ P.length := by
    rintro rfl
    rw [Machine.step, List.getElem?_eq_none (Nat.le_refl _)] at h
    cases h
  intro E' n
  constructor
  · intro hn
    cases hn with
    | here => exact absurd rfl ha
    | step hpc hstep hrest =>
      rw [h] at hstep
      cases hstep
      exact ⟨_, rfl, hrest⟩
  · rintro ⟨m, rfl, hm⟩
    exact .step ha h hm

theorem trans (h₁ : Leads I P j a E b E₁) (h₂ : Leads I P k b E₁ c E₂) :
    Leads I P (k + j) a E c E₂ := by
  intro E' n
  rw [h₁]
  constructor
  · rintro ⟨m, rfl, hm⟩
    obtain ⟨l, rfl, hl⟩ := (h₂ E' m).mp hm
    exact ⟨l, by omega, hl⟩
  · rintro ⟨l, rfl, hl⟩
    exact ⟨l + k, by omega, (h₂ E' _).mpr ⟨l, rfl, hl⟩⟩

/-- What reaches the end from the second place reaches it from the first. -/
theorem back (h : Leads I P k a E b E₁) (hb : FirstReaches I P P.length b E₁ E') :
    FirstReaches I P P.length a E E' := by
  obtain ⟨m, hm⟩ := hb
  exact ⟨m + k, (h E' _).mpr ⟨m, rfl, hm⟩⟩

end Leads

/-- A piece of code lies in a program from a position on. -/
def At (P : Program) : Nat → Program → Prop
  | _, [] => True
  | a, i :: rest => P[a]? = some i ∧ At P (a + 1) rest

theorem at_nil (P : Program) (a : Nat) : At P a [] ↔ True := Iff.rfl

theorem at_cons (P : Program) (a : Nat) (i : Instr) (rest : Program) :
    At P a (i :: rest) ↔ P[a]? = some i ∧ At P (a + 1) rest := Iff.rfl

theorem at_append (P : Program) (a : Nat) (p q : Program) :
    At P a (p ++ q) ↔ At P a p ∧ At P (a + p.length) q := by
  induction p generalizing a with
  | nil => simp only [List.nil_append, at_nil, List.length_nil, Nat.add_zero, true_and]
  | cons i rest ih =>
    have hlength : a + (i :: rest).length = a + 1 + rest.length := by
      rw [List.length_cons]
      omega
    rw [List.cons_append, at_cons, at_cons, ih, hlength, and_assoc]

/-- The end of a program lies in it. -/
theorem at_length (p q : Program) : At (p ++ q) p.length q := by
  induction q generalizing p with
  | nil => trivial
  | cons i rest ih =>
    have hi : (p ++ i :: rest)[p.length]? = some i := by
      rw [List.getElem?_append_right (Nat.le_refl _), Nat.sub_self, List.getElem?_cons_zero]
    have hrest := ih (p ++ [i])
    rw [List.append_assoc, List.length_append, List.length_singleton] at hrest
    exact ⟨hi, hrest⟩

/-- The labels numbered from `first` on mark at most one position each. -/
def Distinct (P : Program) (first : Int) : Prop :=
  ∀ k, first ≤ k → ∀ i j : Nat, P[i]? = some (.label (Category.label.named k)) →
    P[j]? = some (.label (Category.label.named k)) → i = j

theorem Distinct.mono {P : Program} {first later : Int} (h : Distinct P first)
    (hle : first ≤ later) : Distinct P later :=
  fun k hk => h k (Int.le_trans hle hk)

/-- A marker with a distinct name is the one that jumps find. -/
theorem Distinct.markerAt? {P : Program} {first k : Int} {i : Nat} (h : Distinct P first)
    (hk : first ≤ k) (hi : P[i]? = some (.label (Category.label.named k))) :
    P.markerAt? (Category.label.named k) = some i := by
  have hmem : Instr.label (Category.label.named k) ∈ P := List.mem_of_getElem? hi
  cases hj : P.markerAt? (Category.label.named k) with
  | none =>
    have hnone := List.findIdx?_eq_none_iff.mp hj _ hmem
    rw [decide_eq_false_iff_not] at hnone
    exact absurd rfl hnone
  | some j =>
    obtain ⟨hlt, hlabel, -⟩ := List.findIdx?_eq_some_iff_getElem.mp hj
    have hj' : P[j]? = some (.label (Category.label.named k)) := by
      rw [List.getElem?_eq_getElem hlt, of_decide_eq_true hlabel]
    rw [h k hk i j hi hj']

end Machine

end ThreeAddress
