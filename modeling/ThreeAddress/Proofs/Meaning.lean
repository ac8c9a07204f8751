import ThreeAddress.Proofs.Structured
import ThreeAddress.Proofs.Unbounded

/-!
# Lowering keeps the meaning

The statements of a script, with the answers that they gave, stand for structured code: an operation
stores its result in the temporary that it gave. Main statement: the program that the statements
appended does what that code does.
-/

namespace ThreeAddress

open Script (Action Bindings Statement UnitId)
open Session (Answer)

/-- An action that computes a value: a binary operation or a load. -/
def Script.Action.computes : Action → Bool
  | .emit r _ => r.stores
  | _ => false

/-- The code for a request that computes a value, which is stored in `dst`. -/
def Request.code (dst : Text) : Request Text → Code
  | binary left op right => .assign dst left op right
  | index array i => .load dst array i
  | branch .. | jump .. | mark .. => .skip

namespace Script

mutual

/-- The bindings after a statement that gave an answer, and the code that it stands for. -/
def Statement.code (b : Bindings) : Statement → Answer → Bindings × Code
  | .act _ (.emit r bind), .action _ (.temp dst) => (b.bind bind dst, (r.map (·.read b)).code dst)
  | .ifThen _ test yes, .block _ answers =>
    let block := blockCode b yes answers
    (block.1, .ifThen (test.map (·.read b)) block.2)
  | .ifElse _ test yes no, .block _ answers =>
    let second := blockCode b no (answers.take no.length)
    let first := blockCode second.1 yes (answers.drop no.length)
    (first.1, .ifElse (test.map (·.read b)) first.2 second.2)
  | .loop _ pre test body, .block _ answers =>
    let prepared := blockCode b pre (answers.take pre.length)
    let block := blockCode prepared.1 body (answers.drop pre.length)
    (block.1, .loop prepared.2 (test.map (·.read prepared.1)) block.2)
  | _, _ => (b, .skip)

/-- The bindings after a block that gave answers, and the code that it stands for. -/
def blockCode (b : Bindings) : List Statement → List Answer → Bindings × Code
  | st :: rest, answer :: answers =>
    let first := st.code b answer
    let later := blockCode first.1 rest answers
    (later.1, .seq first.2 later.2)
  | _, _ => (b, .skip)

end

/-- The answers of a conditional with two blocks are those of the second
block and then of the first. -/
theorem Statement.code_ifElse (b : Bindings) (u : UnitId) (test : Relation Operand)
    {yes no : List Statement} (n : Nat) {earlier : List Answer} (later : List Answer)
    (h : earlier.length = no.length) :
    (Statement.ifElse u test yes no).code b (.block n (earlier ++ later)) =
      let second := blockCode b no earlier
      let first := blockCode second.1 yes later
      (first.1, .ifElse (test.map (·.read b)) first.2 second.2) := by
  rw [Statement.code, List.take_left' h, List.drop_left' h]

/-- The answers of a loop are those of its preparation and then of its block. -/
theorem Statement.code_loop (b : Bindings) (u : UnitId) (test : Relation Operand)
    {pre body : List Statement} (n : Nat) {earlier : List Answer} (later : List Answer)
    (h : earlier.length = pre.length) :
    (Statement.loop u pre test body).code b (.block n (earlier ++ later)) =
      let prepared := blockCode b pre earlier
      let block := blockCode prepared.1 body later
      (block.1, .loop prepared.2 (test.map (·.read prepared.1)) block.2) := by
  rw [Statement.code, List.take_left' h, List.drop_left' h]

end Script

namespace Unbounded

variable {α : Type}

/-- The unit with one more instruction. -/
def extend (σ : Unbounded) (i : Instr) : Unbounded := { σ with program := σ.program ++ [i] }

/-- The unit after the labels and the test of a conditional. -/
def openBranch (σ : Unbounded) (test : Relation Text) : Unbounded :=
  ((σ.advance .label).advance .label).extend
    (.condJump test.left test.relop test.right (Category.label.named σ.labels))

/-- The unit where the block starts that runs if the test holds; `n` numbers the first label. -/
def openYes (σ : Unbounded) (n : Int) : Unbounded :=
  (σ.extend (.jump (Category.label.named (n + 1)))).extend (.label (Category.label.named n))

/-- The unit after the labels and the head of a loop. -/
def openLoop (σ : Unbounded) : Unbounded :=
  (((σ.advance .label).advance .label).advance .label).extend
    (.label (Category.label.named σ.labels))

/-- The unit where the block of a loop starts; `n` numbers the first label. -/
def openBody (σ : Unbounded) (test : Relation Text) (n : Int) : Unbounded :=
  ((σ.extend (.condJump test.left test.relop test.right (Category.label.named (n + 1)))).extend
    (.jump (Category.label.named (n + 1 + 1)))).extend (.label (Category.label.named (n + 1)))

/-- The unit after a loop; `n` numbers the first label. -/
def closeLoop (σ : Unbounded) (n : Int) : Unbounded :=
  (σ.extend (.jump (Category.label.named n))).extend (.label (Category.label.named (n + 1 + 1)))

theorem run_ifElse (u : UnitId) (test : Relation Script.Operand) (yes no : List Statement)
    (σ : Unbounded) :
    (host.runStatement (.ifElse u test yes no)).run σ =
      let earlier := (host.runBlock no).run (σ.openBranch (test.map (·.read σ.bindings)))
      let later := (host.runBlock yes).run (earlier.2.openYes σ.labels)
      let last := later.2.extend (.label (Category.label.named (σ.labels + 1)))
      (.block last.program.length (earlier.1 ++ later.1), last) := by
  rw [Host.runStatement]
  rfl

theorem run_loop (u : UnitId) (pre : List Statement) (test : Relation Script.Operand)
    (body : List Statement) (σ : Unbounded) :
    (host.runStatement (.loop u pre test body)).run σ =
      let earlier := (host.runBlock pre).run σ.openLoop
      let later := (host.runBlock body).run
        (earlier.2.openBody (test.map (·.read earlier.2.bindings)) σ.labels)
      let last := later.2.closeLoop σ.labels
      (.block last.program.length (earlier.1 ++ later.1), last) := by
  rw [Host.runStatement]
  rfl

/-- What a run did to the unlimited unit: it appended the lowered form of code, took the labels of
that code and left bindings. -/
structure Lowered (σ τ : Unbounded) (after : Bindings × Code) : Prop where
  program : τ.program = σ.program ++ after.2.lower σ.labels
  labels : τ.labels = σ.labels + after.2.labels
  bindings : τ.bindings = after.1

namespace Lowered

variable {σ τ τ₁ τ₂ : Unbounded} {after after₁ after₂ : Bindings × Code} {test : Relation Text}

theorem skip (σ : Unbounded) : Lowered σ σ (σ.bindings, .skip) where
  program := (List.append_nil _).symm
  labels := (Int.add_zero _).symm
  bindings := rfl

theorem seq (h₁ : Lowered σ τ₁ after₁) (h₂ : Lowered τ₁ τ₂ after₂) :
    Lowered σ τ₂ (after₂.1, .seq after₁.2 after₂.2) where
  program := by rw [h₂.program, h₁.program, h₁.labels, List.append_assoc, Code.lower]
  labels := by
    have hcount : (Code.seq after₁.2 after₂.2).labels = after₁.2.labels + after₂.2.labels := rfl
    rw [h₂.labels, h₁.labels, hcount]
    omega
  bindings := h₂.bindings

/-- A conditional with one block, around the lowered block. -/
theorem ifThen (h : Lowered ((σ.openBranch test).openYes σ.labels) τ after) :
    Lowered σ (τ.extend (.label (Category.label.named (σ.labels + 1))))
      (after.1, .ifThen test after.2) where
  program := by
    have hp := h.program
    have htwo : σ.labels + 1 + 1 = σ.labels + 2 := by omega
    simp only [openBranch, openYes, extend, advance, htwo] at hp ⊢
    rw [hp]
    simp only [Code.lower, Code.labelName, List.append_assoc, List.cons_append, List.nil_append]
  labels := by
    have hl := h.labels
    have hcount : (Code.ifThen test after.2).labels = 2 + after.2.labels := rfl
    simp only [openBranch, openYes, extend, advance] at hl ⊢
    rw [hl, hcount]
    omega
  bindings := h.bindings

/-- A conditional with two blocks, around the lowered blocks. -/
theorem ifElse (h₁ : Lowered (σ.openBranch test) τ₁ after₁)
    (h₂ : Lowered (τ₁.openYes σ.labels) τ₂ after₂) :
    Lowered σ (τ₂.extend (.label (Category.label.named (σ.labels + 1))))
      (after₂.1, .ifElse test after₂.2 after₁.2) where
  program := by
    have hp₁ := h₁.program
    have hp₂ := h₂.program
    have hl₁ := h₁.labels
    have htwo : σ.labels + 1 + 1 = σ.labels + 2 := by omega
    simp only [openBranch, openYes, extend, advance, htwo] at hp₁ hp₂ hl₁ ⊢
    rw [hp₂, hp₁, hl₁]
    simp only [Code.lower, Code.labelName, List.append_assoc, List.cons_append, List.nil_append]
  labels := by
    have hl₁ := h₁.labels
    have hl₂ := h₂.labels
    have hcount : (Code.ifElse test after₂.2 after₁.2).labels =
        2 + after₁.2.labels + after₂.2.labels := rfl
    simp only [openBranch, openYes, extend, advance] at hl₁ hl₂ ⊢
    rw [hl₂, hl₁, hcount]
    omega
  bindings := h₂.bindings

/-- A loop, around the lowered preparation and the lowered block. -/
theorem loop (h₁ : Lowered σ.openLoop τ₁ after₁)
    (h₂ : Lowered (τ₁.openBody test σ.labels) τ₂ after₂) :
    Lowered σ (τ₂.closeLoop σ.labels) (after₂.1, .loop after₁.2 test after₂.2) where
  program := by
    have hp₁ := h₁.program
    have hp₂ := h₂.program
    have hl₁ := h₁.labels
    have htwo : σ.labels + 1 + 1 = σ.labels + 2 := by omega
    have hthree : σ.labels + 2 + 1 = σ.labels + 3 := by omega
    simp only [openLoop, openBody, closeLoop, extend, advance, htwo, hthree] at hp₁ hp₂ hl₁ ⊢
    rw [hp₂, hp₁, hl₁]
    simp only [Code.lower, Code.labelName, List.append_assoc, List.cons_append, List.nil_append]
  labels := by
    have hl₁ := h₁.labels
    have hl₂ := h₂.labels
    have hcount : (Code.loop after₁.2 test after₂.2).labels =
        3 + after₁.2.labels + after₂.2.labels := rfl
    simp only [openLoop, openBody, closeLoop, extend, advance] at hl₁ hl₂ ⊢
    rw [hl₂, hl₁, hcount]
    omega
  bindings := h₂.bindings

end Lowered

/-- A block gives an answer for each of its statements. -/
theorem length_runBlock (block : List Statement) (σ : Unbounded) :
    ((host.runBlock block).run σ).1.length = block.length := by
  induction block generalizing σ with
  | nil => rfl
  | cons st rest ih =>
    have hrun : ((host.runBlock (st :: rest)).run σ).1 = ((host.runStatement st).run σ).1 ::
        ((host.runBlock rest).run ((host.runStatement st).run σ).2).1 := by
      rw [Host.runBlock]
      rfl
    rw [hrun, List.length_cons, List.length_cons, ih]

/-- An action that computes a value is lowered to the one instruction that stores it. -/
theorem lowered_perform {a : Action} (h : a.computes = true) (u : UnitId) (n : Nat)
    (σ : Unbounded) :
    Lowered σ ((perform a).run σ).2
      ((Statement.act u a).code σ.bindings (.action n ((perform a).run σ).1)) := by
  cases a with
  | emit r bind =>
    cases r with
    | binary left op right => exact ⟨rfl, (Int.add_zero _).symm, rfl⟩
    | index array i => exact ⟨rfl, (Int.add_zero _).symm, rfl⟩
    | _ => cases h
  | _ => cases h

mutual

/-- A statement of computations is lowered to the code that it stands for. -/
theorem lowered_runStatement : (st : Statement) → (∀ x ∈ st.actions, x.2.computes = true) →
    (σ : Unbounded) → Lowered σ ((host.runStatement st).run σ).2
      (st.code σ.bindings ((host.runStatement st).run σ).1)
  | .act u a, hacts, σ => by
    have ha : a.computes = true := hacts (u, a) (by simp [Statement.actions])
    rw [Host.runStatement]
    exact lowered_perform ha u _ σ
  | .ifThen u test yes, hacts, σ => by
    rw [Host.runStatement]
    exact (lowered_runBlock yes hacts _).ifThen
  | .ifElse u test yes no, hacts, σ => by
    have hno := lowered_runBlock no (fun x hx => hacts x (by simp [Statement.actions, hx]))
      (σ.openBranch (test.map (·.read σ.bindings)))
    have hyes := lowered_runBlock yes (fun x hx => hacts x (by simp [Statement.actions, hx]))
      (((host.runBlock no).run (σ.openBranch (test.map (·.read σ.bindings)))).2.openYes σ.labels)
    have hboth := hno.ifElse hyes
    rw [run_ifElse, Statement.code_ifElse _ _ _ _ _ (length_runBlock no _)]
    dsimp only
    rw [← show _ = (Script.blockCode σ.bindings no _).1 from hno.bindings]
    exact hboth
  | .loop u pre test body, hacts, σ => by
    have hpre :=
      lowered_runBlock pre (fun x hx => hacts x (by simp [Statement.actions, hx])) σ.openLoop
    have hbody := lowered_runBlock body (fun x hx => hacts x (by simp [Statement.actions, hx]))
      (((host.runBlock pre).run σ.openLoop).2.openBody
        (test.map (·.read ((host.runBlock pre).run σ.openLoop).2.bindings)) σ.labels)
    have hboth := hpre.loop hbody
    rw [run_loop, Statement.code_loop _ _ _ _ _ (length_runBlock pre _)]
    dsimp only
    rw [← show _ = (Script.blockCode σ.bindings pre _).1 from hpre.bindings]
    exact hboth

/-- A block of computations is lowered to the code that it stands for. -/
theorem lowered_runBlock : (block : List Statement) →
    (∀ x ∈ Script.blockActions block, x.2.computes = true) → (σ : Unbounded) →
    Lowered σ ((host.runBlock block).run σ).2
      (Script.blockCode σ.bindings block ((host.runBlock block).run σ).1)
  | [], _, σ => .skip σ
  | st :: rest, hacts, σ => by
    have hst := lowered_runStatement st (fun x hx => hacts x (by simp [Script.blockActions, hx])) σ
    have hrest := lowered_runBlock rest (fun x hx => hacts x (by simp [Script.blockActions, hx]))
      ((host.runStatement st).run σ).2
    rw [hst.bindings] at hrest
    exact hst.seq hrest

end

end Unbounded

/-- Statements of computations that end without an overflow append the lowered form of the code that
they stand for. -/
theorem program_of_runBlock {v : Verbosity} {u : UnitId} {block : List Statement} {s : Session}
    {c : Compilation} {answers : List Answer} (hunits : ∀ w ∈ Script.blockUnits block, w = u)
    (hacts : ∀ x ∈ Script.blockActions block, x.2.computes = true) (hc : s.unit? u = some c)
    (hrun : ((Session.runBlock v block).run s).1 = .ok answers) :
    ∃ c', ((Session.runBlock v block).run s).2.unit? u = some c' ∧
      c'.program = c.program ++
        (Script.blockCode s.bindings block answers).2.lower c.supply.labels.toInt := by
  have hemits : ∀ x ∈ Script.blockActions block, x.2.emits = true := by
    intro x hx
    have hcomputes := hacts x hx
    cases ha : x.2 with
    | emit r bind => rfl
    | _ =>
      rw [ha] at hcomputes
      cases hcomputes
  have hsim := (Truncates.simulation v u).runBlock block hunits hemits
  rw [Session.host_runBlock] at hsim
  have hstart := agrees_ofCompilation hc
  have hlowered := Unbounded.lowered_runBlock block hacts (.ofCompilation c s.bindings)
  cases hover : ((Unbounded.host.runBlock block).run (.ofCompilation c s.bindings)).2.overflow? with
  | some category =>
    obtain ⟨s', c', hstop, -⟩ := hsim.stopped hstart hover
    rw [hstop] at hrun
    cases hrun
  | none =>
    obtain ⟨s', c', hdone, hagree⟩ := hsim.finished hstart hover
    rw [hdone] at hrun ⊢
    cases hrun
    exact ⟨c', hagree.unit, hagree.program.trans hlowered.program⟩

/-- If something is made of the value of an outcome, the outcome has that value. -/
theorem exists_ok_of_toOption {ε α β : Type} {x : Except ε α} {f : α → β} {b : β}
    (h : x.toOption.map f = some b) : ∃ a, x = .ok a ∧ f a = b := by
  cases x with
  | ok a => exact ⟨a, rfl, Option.some.inj h⟩
  | error e => cases h

/-- The program that statements of computations append does what they mean. From the first
instruction appended, execution first reaches the end of the program with an environment
exactly when the structured execution of the statements ends with it; each operation stores its
result in the temporary that it gave. The program before them must not use a label that the
supply has still to give. -/
theorem lowered_statements_keep_meaning {V : Type*} (I : Interpretation V) (v : Verbosity)
    (u : UnitId) (block : List Statement) (s : Session) (c : Compilation) (answers : List Answer)
    (hunits : ∀ w ∈ Script.blockUnits block, w = u)
    (hacts : ∀ x ∈ Script.blockActions block, x.2.computes = true) (hc : s.unit? u = some c)
    (hfree : ∀ k, c.supply.labels.toInt ≤ k → Instr.label (Category.label.named k) ∉ c.program)
    (hrun : ((Session.runBlock v block).run s).1 = .ok answers) :
    ∃ c', ((Session.runBlock v block).run s).2.unit? u = some c' ∧ c.program <+: c'.program ∧
      ∀ E E' : Text → V,
        Machine.FirstReaches I c'.program c'.program.length c.program.length E E' ↔
          (Script.blockCode s.bindings block answers).2.Exec I E E' := by
  obtain ⟨c', hc', hprogram⟩ := program_of_runBlock hunits hacts hc hrun
  refine ⟨c', hc', ?_, ?_⟩
  · rw [hprogram]
    exact List.prefix_append _ _
  · intro E E'
    rw [hprogram]
    exact Code.firstReaches_lower_iff _ hfree E

/-- Whole numbers with addition and comparison; the operands `1` and `3` are numbers and every
element of an array is its index. -/
def counting : Interpretation Int where
  operand E t := if t = "1" then 1 else if t = "3" then 3 else E t
  operator _ left right := left + right
  relop _ left right := left < right
  element _ _ index := index

/-- Counts `t0` up to three; the first round goes through one block of a conditional and the second
round through the other. -/
def countToThree : List Statement :=
  [.loop 0
    [.act 0 (.emit (.binary (.literal "t0") (.literal "+") (.literal "1")) (some (.literal "x")))]
    ⟨.named "x", .literal "<", .literal "3"⟩
    [.ifElse 0 ⟨.literal "t2", .literal "<", .literal "1"⟩
      [.act 0 (.emit (.binary (.literal "t2") (.literal "+") (.literal "1")) none)]
      [.act 0 (.emit (.index (.literal "a") (.named "x")) none)]]]

/-- The instructions for counting to three, in a unit without code, count to three. -/
theorem lowered_count_reaches_three :
    ∃ c' E', ((Session.runBlock 0 countToThree).run { units := [some {}] }).2.unit? 0 = some c' ∧
      Machine.FirstReaches counting c'.program c'.program.length 0 (fun _ => 0) E' ∧
      E' "t0" = 3 ∧ E' "t1" = 2 ∧ E' "t2" = 1 := by
  have hcode : (((Session.runBlock 0 countToThree).run { units := [some {}] }).1.toOption.map
      fun answers => (Script.blockCode [] countToThree answers).2) =
        some (.seq (.loop (.seq (.assign "t0" "t0" "+" "1") .skip) ⟨"t0", "<", "3"⟩
          (.seq (.ifElse ⟨"t2", "<", "1"⟩ (.seq (.assign "t2" "t2" "+" "1") .skip)
            (.seq (.load "t1" "a" "t0") .skip)) .skip)) .skip) := by decide +kernel
  obtain ⟨answers, hrun, hcode⟩ := exists_ok_of_toOption hcode
  obtain ⟨c', hc', -, hmeaning⟩ := lowered_statements_keep_meaning counting 0 0 countToThree _ {} _
    (by decide) (by decide) rfl (fun _ _ h => by cases h) hrun
  have hexec : ∃ E', Code.Exec counting (Script.blockCode [] countToThree answers).2
      (fun _ => 0) E' ∧ E' "t0" = 3 ∧ E' "t1" = 2 ∧ E' "t2" = 1 := by
    rw [hcode]
    refine ⟨_, .seq (.loop_again (.seq .assign .skip) ?_
      (.seq (.ifElse_yes ?_ (.seq .assign .skip)) .skip)
      (.loop_again (.seq .assign .skip) ?_
        (.seq (.ifElse_no ?_ (.seq .load .skip)) .skip)
        (.loop_done (.seq .assign .skip) ?_))) .skip, ?_⟩
    all_goals decide +kernel
  obtain ⟨E', hexec, hvalues⟩ := hexec
  exact ⟨c', E', hc', (hmeaning _ _).mpr hexec, hvalues⟩

end ThreeAddress
