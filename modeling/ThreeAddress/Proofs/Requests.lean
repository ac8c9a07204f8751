import Mathlib.Data.List.Forall2
import ThreeAddress.Proofs.Steps
import ThreeAddress.Script.Emission

/-!
# Requests alone and on a unit

Instructions can be made from a supply alone or by actions on a unit of a session. Main statement: a
run of requests and the script of the same actions on a unit that has the same counters and program
give the same results and log the same lines, overflows included, and the unit ends with the
counters and the program of the run. So what holds of scripts holds of runs of requests.
-/

namespace ThreeAddress

open Script (Action Statement UnitId)

/-- An action as an outermost statement: its answer tells how long the
program of its unit then is. -/
theorem Session.step_act (v : Verbosity) {u : UnitId} {s : Session} {c : Compilation}
    (h : s.unit? u = some c) (a : Action) :
    step v (.act u a) s =
      let (result, s') := (runAction v u a).run { s with log := [] }
      (⟨result.map (.action (s'.unit u).program.length), s'.log⟩, s') := by
  have hpresent : (({ s with log := [] } : Session).unit? u).isSome = true :=
    Option.isSome_iff_exists.mpr ⟨c, h⟩
  have hunit : ∀ work : SessionM Answer, (onUnit u work).run { s with log := [] } =
      (if (({ s with log := [] } : Session).unit? u).isSome then work
        else return .noUnit : SessionM Answer).run { s with log := [] } := fun _ => rfl
  rw [step, runStatement, hunit, if_pos hpresent, run_bind]
  rcases (runAction v u a).run { s with log := [] } with ⟨result, s'⟩
  cases result <;> rfl

namespace Script.Emission

/-- The action on a unit that does what an operation does. -/
def Op.action : Op → Action
  | emit r bind => .emit r bind
  | label bind => .label bind
  | reset => .setCounters 0 0
  | set temps labels => .setCounters temps labels

/-- What the action gives where the operation gives a result. -/
def Result.shown : Result → Session.Result
  | instr i => Session.emitted i
  | label name => .label name
  | done => .done

/-- A unit of a session stands where a run of requests stands. -/
structure State.HeldBy (e : State) (u : UnitId) (s : Session) : Prop where
  unit : ∃ c, s.unit? u = some c ∧ c.supply = e.supply ∧ c.program = e.program
  bindings : s.bindings = e.bindings

/-- A step of a run of requests and one of a script show the same. -/
structure Step.Agrees (a : Step) (b : Session.Step) : Prop where
  outcome : ∃ length, b.outcome = a.result.map fun result => .action length result.shown
  log : b.log = a.log

/-- An operation and its action on a unit give and log the same, and come to the same counters,
program and bindings. -/
theorem State.HeldBy.apply {e : State} {u : UnitId} {s : Session} (h : e.HeldBy u s) (v : Verbosity)
    (op : Op) :
    Step.Agrees ⟨(op.apply e).1, (op.apply e).2.supply, Result.log v (op.apply e).1⟩
        (Session.step v (.act u op.action) s).1 ∧
      (op.apply e).2.HeldBy u (Session.step v (.act u op.action) s).2 := by
  obtain ⟨supply, bindings, program⟩ := e
  obtain ⟨⟨c, hc, rfl, rfl⟩, rfl⟩ := h
  have hcleared : ({ s with log := [] } : Session).unit? u = some c := hc
  -- Replacing the compilation of the unit is all that an action does to the units.
  have hput : ∀ (s' : Session) (c' : Compilation), s'.units = (s.setUnit u c').units →
      s'.unit? u = some c' := fun s' c' hunits =>
    (Session.unit?_of_units hc hunits u).trans (if_pos rfl)
  have hperformed := Session.performed_runAction v hcleared op.action
  rw [Session.step_act v hc]
  generalize (Session.runAction v u op.action).run { s with log := [] } = ran at hperformed ⊢
  obtain ⟨result, s'⟩ := ran
  cases op with
  | emit r bind =>
    cases hperformed with
    | emitted _ _ i supply hbuild =>
      rw [Op.apply, hbuild]
      exact ⟨⟨⟨_, rfl⟩, rfl⟩, ⟨_, hput _ _ rfl, rfl, rfl⟩, rfl⟩
    | exhausted _ _ e supply hbuild =>
      rw [Op.apply, hbuild]
      exact ⟨⟨⟨0, rfl⟩, rfl⟩, ⟨_, hput _ _ rfl, rfl, rfl⟩, rfl⟩
  | label bind =>
    cases hperformed with
    | labelled _ name hname =>
      have hfresh : c.supply.fresh .label = (.ok name, (c.take .label).supply) :=
        Prod.ext hname rfl
      rw [Op.apply, hfresh]
      exact ⟨⟨⟨_, rfl⟩, rfl⟩, ⟨_, hput _ _ rfl, rfl, rfl⟩, rfl⟩
    | unlabelled _ e hname =>
      have hfresh : c.supply.fresh .label = (.error e, (c.take .label).supply) :=
        Prod.ext hname rfl
      rw [Op.apply, hfresh]
      exact ⟨⟨⟨0, rfl⟩, rfl⟩, ⟨_, hput _ _ rfl, rfl, rfl⟩, rfl⟩
  | reset =>
    cases hperformed with
    | counters => exact ⟨⟨⟨_, rfl⟩, rfl⟩, ⟨_, hput _ _ rfl, rfl, rfl⟩, rfl⟩
  | set temps labels =>
    cases hperformed with
    | counters => exact ⟨⟨⟨_, rfl⟩, rfl⟩, ⟨_, hput _ _ rfl, rfl, rfl⟩, rfl⟩

/-- A run of requests shows, step by step, what the script of its actions shows on a unit that
stands where the run begins, and the unit stands where the run ends. -/
theorem run_agrees_with_script (v : Verbosity) (ops : List Op) {e : State} {u : UnitId}
    {s : Session} (h : e.HeldBy u s) :
    let script := ops.map fun op => Statement.act u op.action
    List.Forall₂ Step.Agrees (run v ops e).1 (Session.run v script s).1 ∧
      (run v ops e).2.HeldBy u (Session.run v script s).2 := by
  induction ops generalizing e s with
  | nil => exact ⟨.nil, h⟩
  | cons op ops ih =>
    obtain ⟨hfirst, hnext⟩ := h.apply v op
    obtain ⟨hlater, hlast⟩ := ih hnext
    exact ⟨.cons hfirst hlater, hlast⟩

end Script.Emission

end ThreeAddress
