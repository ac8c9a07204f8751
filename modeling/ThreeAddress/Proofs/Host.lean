import ThreeAddress.Session.Run

/-!
# Scripts over any host

The run of a script, with its conditionals and loops, written against what it needs of its
surroundings: a host that takes labels, emits instructions, performs actions and hears of every
conditional or loop that ended. The session is one host. Two hosts whose operations are related, by
a relation that sequencing keeps, run every script in related ways.
-/

namespace ThreeAddress

open Script (Action Bindings Statement UnitId)

namespace Script

mutual

/-- The actions of a statement with their units, in the order in which they are performed. -/
def Statement.actions : Statement → List (UnitId × Action)
  | .act u a => [(u, a)]
  | .ifThen _ _ yes => blockActions yes
  | .ifElse _ _ yes no => blockActions no ++ blockActions yes
  | .loop _ pre _ body => blockActions pre ++ blockActions body

/-- The actions of a block with their units, in the order in which they are performed. -/
def blockActions : List Statement → List (UnitId × Action)
  | [] => []
  | st :: rest => st.actions ++ blockActions rest

end

mutual

/-- The units that a statement and the statements in it are about. -/
def Statement.units : Statement → List UnitId
  | .act u _ => [u]
  | .ifThen u _ yes => u :: blockUnits yes
  | .ifElse u _ yes no => u :: (blockUnits no ++ blockUnits yes)
  | .loop u pre _ body => u :: (blockUnits pre ++ blockUnits body)

/-- The units that the statements of a block are about. -/
def blockUnits : List Statement → List UnitId
  | [] => []
  | st :: rest => st.units ++ blockUnits rest

end

end Script

/-- A conditional or a loop that ended: the stretch of the program that it appended, and where in it
stand the jumps that it emitted itself, in order. -/
structure Frame where
  /-- The unit whose program was extended. -/
  unit : UnitId
  /-- The position of the first instruction appended. -/
  start : Nat
  /-- The position after the last instruction appended. -/
  stop : Nat
  /-- The positions of its own jumps. -/
  jumps : List Nat
  /-- The position of the jump back to the head, for a loop. -/
  back : Option Nat
  deriving DecidableEq

/-- What the run of a script needs of its surroundings. -/
structure Host (m : Type → Type) where
  /-- The results bound so far. -/
  bindings : m Bindings
  /-- Whether a unit has a compilation. -/
  present : UnitId → m Bool
  /-- The length of the program of a unit. -/
  length : UnitId → m Nat
  /-- Takes a label for a conditional or a loop. -/
  label : UnitId → m Text
  /-- Emits an instruction of a conditional or a loop. -/
  emit : UnitId → Request Text → m Unit
  /-- Performs an action. -/
  perform : UnitId → Action → m Session.Result
  /-- Hears of a conditional or a loop that ended. -/
  close : Frame → m Unit

namespace Host

open Session (Answer)

variable {m n : Type → Type} [Monad m] [Monad n] {α : Type}

/-- Emits an instruction and gives its position. -/
def emitAt (h : Host m) (u : UnitId) (r : Request Text) : m Nat := do
  let position ← h.length u
  h.emit u r
  return position

/-- A conditional with one block. -/
def ifThen (h : Host m) (u : UnitId) (test : Relation Text) (block : m (List α)) : m (List α) := do
  let start ← h.length u
  let yes ← h.label u
  let done ← h.label u
  let first ← h.emitAt u (.branch test yes)
  let second ← h.emitAt u (.jump done)
  h.emit u (.mark yes)
  let results ← block
  h.emit u (.mark done)
  let stop ← h.length u
  h.close ⟨u, start, stop, [first, second], none⟩
  return results

/-- A conditional with two blocks, of which the second is emitted first. -/
def ifElse (h : Host m) (u : UnitId) (test : Relation Text) (first second : m (List α)) :
    m (List α) := do
  let start ← h.length u
  let yes ← h.label u
  let done ← h.label u
  let branch ← h.emitAt u (.branch test yes)
  let earlier ← second
  let jump ← h.emitAt u (.jump done)
  h.emit u (.mark yes)
  let later ← first
  h.emit u (.mark done)
  let stop ← h.length u
  h.close ⟨u, start, stop, [branch, jump], none⟩
  return earlier ++ later

/-- A loop whose test has a preparation. -/
def loop (h : Host m) (u : UnitId) (test : m (List α × Relation Text)) (block : m (List α)) :
    m (List α) := do
  let start ← h.length u
  let top ← h.label u
  let body ← h.label u
  let done ← h.label u
  h.emit u (.mark top)
  let prepared ← test
  let branch ← h.emitAt u (.branch prepared.2 body)
  let exit ← h.emitAt u (.jump done)
  h.emit u (.mark body)
  let later ← block
  let back ← h.emitAt u (.jump top)
  h.emit u (.mark done)
  let stop ← h.length u
  h.close ⟨u, start, stop, [branch, exit, back], some back⟩
  return prepared.1 ++ later

/-- Does work on a unit if it has a compilation. -/
def onUnit (h : Host m) (u : UnitId) (work : m Answer) : m Answer := do
  if ← h.present u then work else return .noUnit

mutual

/-- Runs a statement. -/
def runStatement (h : Host m) : Statement → m Answer
  | .act u a => h.onUnit u do
    let result ← h.perform u a
    return .action (← h.length u) result
  | .ifThen u test yes => h.onUnit u do
    let b ← h.bindings
    let answers ← h.ifThen u (test.map (·.read b)) (h.runBlock yes)
    return .block (← h.length u) answers
  | .ifElse u test yes no => h.onUnit u do
    let b ← h.bindings
    let answers ← h.ifElse u (test.map (·.read b)) (h.runBlock yes) (h.runBlock no)
    return .block (← h.length u) answers
  | .loop u pre test body => h.onUnit u do
    let prepared : m (List Answer × Relation Text) := do
      let answers ← h.runBlock pre
      let b ← h.bindings
      return (answers, test.map (·.read b))
    let answers ← h.loop u prepared (h.runBlock body)
    return .block (← h.length u) answers

/-- Runs the statements of a block in order. -/
def runBlock (h : Host m) : List Statement → m (List Answer)
  | [] => return []
  | st :: rest => do
    let answer ← h.runStatement st
    let answers ← h.runBlock rest
    return answer :: answers

end

/-- A relation between the work of two hosts that sequencing keeps and in which their operations
stand, for the units and actions that a script may have. -/
structure Simulation (h : Host m) (k : Host n) (units : UnitId → Prop)
    (acts : UnitId → Action → Prop) (R : ∀ {α : Type}, m α → n α → Prop) : Prop where
  /-- Giving a result without work is related to itself. -/
  pure : ∀ {α : Type} (a : α), R (Pure.pure a : m α) (Pure.pure a : n α)
  /-- Sequences of related work are related. -/
  bind : ∀ {α β : Type} {x : m α} {y : n α} {f : α → m β} {g : α → n β},
    R x y → (∀ a, R (f a) (g a)) → R (x >>= f) (y >>= g)
  bindings : R h.bindings k.bindings
  present : ∀ u, units u → R (h.present u) (k.present u)
  length : ∀ u, units u → R (h.length u) (k.length u)
  label : ∀ u, units u → R (h.label u) (k.label u)
  emit : ∀ u r, units u → R (h.emit u r) (k.emit u r)
  perform : ∀ u a, units u → acts u a → R (h.perform u a) (k.perform u a)
  close : ∀ f : Frame, units f.unit → R (h.close f) (k.close f)

namespace Simulation

variable {h : Host m} {k : Host n} {units : UnitId → Prop} {acts : UnitId → Action → Prop}
  {R : ∀ {α : Type}, m α → n α → Prop} (sim : Simulation h k units acts R)

/-- Work done on a unit only if it has a compilation is related as soon as the work is related for a
unit that a script may have. -/
def Guards (_ : Simulation h k units acts R) (u : UnitId) : Prop :=
  ∀ (x : m Answer) (y : n Answer), (units u → R x y) → R (h.onUnit u x) (k.onUnit u y)

include sim

theorem emitAt {u : UnitId} (hu : units u) (r : Request Text) :
    R (h.emitAt u r) (k.emitAt u r) := by
  refine sim.bind (sim.length u hu) fun position => ?_
  exact sim.bind (sim.emit u r hu) fun _ => sim.pure position

theorem ifThen {u : UnitId} (hu : units u) (test : Relation Text) {x : m (List α)} {y : n (List α)}
    (hxy : R x y) : R (h.ifThen u test x) (k.ifThen u test y) := by
  refine sim.bind (sim.length u hu) fun start => ?_
  refine sim.bind (sim.label u hu) fun yes => ?_
  refine sim.bind (sim.label u hu) fun done => ?_
  refine sim.bind (sim.emitAt hu _) fun first => ?_
  refine sim.bind (sim.emitAt hu _) fun second => ?_
  refine sim.bind (sim.emit u _ hu) fun _ => ?_
  refine sim.bind hxy fun results => ?_
  refine sim.bind (sim.emit u _ hu) fun _ => ?_
  refine sim.bind (sim.length u hu) fun stop => ?_
  exact sim.bind (sim.close _ hu) fun _ => sim.pure results

theorem ifElse {u : UnitId} (hu : units u) (test : Relation Text)
    {x y : m (List α)} {z w : n (List α)} (h₁ : R x z) (h₂ : R y w) :
    R (h.ifElse u test x y) (k.ifElse u test z w) := by
  refine sim.bind (sim.length u hu) fun start => ?_
  refine sim.bind (sim.label u hu) fun yes => ?_
  refine sim.bind (sim.label u hu) fun done => ?_
  refine sim.bind (sim.emitAt hu _) fun branch => ?_
  refine sim.bind h₂ fun earlier => ?_
  refine sim.bind (sim.emitAt hu _) fun jump => ?_
  refine sim.bind (sim.emit u _ hu) fun _ => ?_
  refine sim.bind h₁ fun later => ?_
  refine sim.bind (sim.emit u _ hu) fun _ => ?_
  refine sim.bind (sim.length u hu) fun stop => ?_
  exact sim.bind (sim.close _ hu) fun _ => sim.pure (earlier ++ later)

theorem loop {u : UnitId} (hu : units u) {x : m (List α × Relation Text)} {y : m (List α)}
    {z : n (List α × Relation Text)} {w : n (List α)} (h₁ : R x z) (h₂ : R y w) :
    R (h.loop u x y) (k.loop u z w) := by
  refine sim.bind (sim.length u hu) fun start => ?_
  refine sim.bind (sim.label u hu) fun top => ?_
  refine sim.bind (sim.label u hu) fun body => ?_
  refine sim.bind (sim.label u hu) fun done => ?_
  refine sim.bind (sim.emit u _ hu) fun _ => ?_
  refine sim.bind h₁ fun prepared => ?_
  refine sim.bind (sim.emitAt hu _) fun branch => ?_
  refine sim.bind (sim.emitAt hu _) fun exit => ?_
  refine sim.bind (sim.emit u _ hu) fun _ => ?_
  refine sim.bind h₂ fun later => ?_
  refine sim.bind (sim.emitAt hu _) fun back => ?_
  refine sim.bind (sim.emit u _ hu) fun _ => ?_
  refine sim.bind (sim.length u hu) fun stop => ?_
  exact sim.bind (sim.close _ hu) fun _ => sim.pure (prepared.1 ++ later)

theorem onUnit {u : UnitId} (hu : units u) {x : m Answer} {y : n Answer} (hxy : R x y) :
    R (h.onUnit u x) (k.onUnit u y) := by
  refine sim.bind (sim.present u hu) fun present => ?_
  cases present with
  | true => exact hxy
  | false => exact sim.pure Answer.noUnit

theorem guards_of_units {u : UnitId} (hu : units u) : sim.Guards u :=
  fun _ _ hxy => sim.onUnit hu (hxy hu)

mutual

/-- Related hosts run every statement about guarded units in related ways. -/
theorem runStatement_of_guards : (st : Statement) → (∀ u ∈ st.units, sim.Guards u) →
    (∀ x ∈ st.actions, acts x.1 x.2) → R (h.runStatement st) (k.runStatement st)
  | .act u a, hu, ha => by
    refine hu u (by simp [Statement.units]) _ _ fun hunit => ?_
    refine sim.bind (sim.perform u a hunit (ha (u, a) ?_)) fun result => ?_
    · simp [Statement.actions]
    · exact sim.bind (sim.length u hunit) fun _ => sim.pure _
  | .ifThen u test yes, hu, ha => by
    have hyes := runBlock_of_guards yes (fun w hw => hu w (by simp [Statement.units, hw])) ha
    refine hu u (by simp [Statement.units]) _ _ fun hunit => sim.bind sim.bindings fun b => ?_
    refine sim.bind (sim.ifThen hunit _ hyes) fun answers => ?_
    exact sim.bind (sim.length u hunit) fun _ => sim.pure _
  | .ifElse u test yes no, hu, ha => by
    have hyes := runBlock_of_guards yes (fun w hw => hu w (by simp [Statement.units, hw]))
      (fun x hx => ha x (by simp [Statement.actions, hx]))
    have hno := runBlock_of_guards no (fun w hw => hu w (by simp [Statement.units, hw]))
      (fun x hx => ha x (by simp [Statement.actions, hx]))
    refine hu u (by simp [Statement.units]) _ _ fun hunit => sim.bind sim.bindings fun b => ?_
    refine sim.bind (sim.ifElse hunit _ hyes hno) fun answers => ?_
    exact sim.bind (sim.length u hunit) fun _ => sim.pure _
  | .loop u pre test body, hu, ha => by
    have hpre := runBlock_of_guards pre (fun w hw => hu w (by simp [Statement.units, hw]))
      (fun x hx => ha x (by simp [Statement.actions, hx]))
    have hbody := runBlock_of_guards body (fun w hw => hu w (by simp [Statement.units, hw]))
      (fun x hx => ha x (by simp [Statement.actions, hx]))
    refine hu u (by simp [Statement.units]) _ _ fun hunit =>
      sim.bind (sim.loop hunit ?_ hbody) fun answers => ?_
    · exact sim.bind hpre fun answers => sim.bind sim.bindings fun b => sim.pure _
    · exact sim.bind (sim.length u hunit) fun _ => sim.pure _

/-- Related hosts run every block about guarded units in related ways. -/
theorem runBlock_of_guards :
    (block : List Statement) → (∀ u ∈ Script.blockUnits block, sim.Guards u) →
    (∀ x ∈ Script.blockActions block, acts x.1 x.2) → R (h.runBlock block) (k.runBlock block)
  | [], _, _ => sim.pure []
  | st :: rest, hu, ha => by
    have hst := runStatement_of_guards st (fun w hw => hu w (by simp [Script.blockUnits, hw]))
      (fun x hx => ha x (by simp [Script.blockActions, hx]))
    have hrest := runBlock_of_guards rest (fun w hw => hu w (by simp [Script.blockUnits, hw]))
      (fun x hx => ha x (by simp [Script.blockActions, hx]))
    exact sim.bind hst fun answer => sim.bind hrest fun answers => sim.pure (answer :: answers)

end

/-- Related hosts run every statement in related ways. -/
theorem runStatement (st : Statement) (hu : ∀ u ∈ st.units, units u)
    (ha : ∀ x ∈ st.actions, acts x.1 x.2) : R (h.runStatement st) (k.runStatement st) :=
  sim.runStatement_of_guards st (fun u hmem => sim.guards_of_units (hu u hmem)) ha

/-- Related hosts run every block in related ways. -/
theorem runBlock (block : List Statement) (hu : ∀ u ∈ Script.blockUnits block, units u)
    (ha : ∀ x ∈ Script.blockActions block, acts x.1 x.2) :
    R (h.runBlock block) (k.runBlock block) :=
  sim.runBlock_of_guards block (fun u hmem => sim.guards_of_units (hu u hmem)) ha

end Simulation

end Host

namespace Session

variable {α : Type}

/-- The session as a host; it takes no note of conditionals and loops that ended. -/
def host (v : Verbosity) : Host SessionM where
  bindings := getBindings
  present u := return ((← get).unit? u).isSome
  length := programLength
  label u := fresh u .label
  emit u r := do
    let _ ← emit v u r
  perform := runAction v
  close _ := return ()

/-- Asking for a length that is not used does nothing. -/
theorem programLength_bind (u : UnitId) (work : SessionM α) :
    (programLength u >>= fun _ => work) = work :=
  funext fun _ => rfl

theorem host_ifThen (v : Verbosity) (u : UnitId) (test : Relation Text)
    (block : SessionM (List α)) : (host v).ifThen u test block = ifThen v u test block := by
  simp only [Host.ifThen, Host.emitAt, host, ifThen, bind_assoc, pure_bind, programLength_bind]

theorem host_ifElse (v : Verbosity) (u : UnitId) (test : Relation Text)
    (first second : SessionM (List α)) :
    (host v).ifElse u test first second = ifElse v u test first second := by
  simp only [Host.ifElse, Host.emitAt, host, ifElse, bind_assoc, pure_bind, programLength_bind]

theorem host_loop (v : Verbosity) (u : UnitId) (test : SessionM (List α × Relation Text))
    (block : SessionM (List α)) : (host v).loop u test block = loop v u test block := by
  simp only [Host.loop, Host.emitAt, host, loop, bind_assoc, pure_bind, programLength_bind]

theorem host_onUnit (v : Verbosity) (u : UnitId) (work : SessionM Answer) :
    (host v).onUnit u work = onUnit u work := by
  simp only [Host.onUnit, host, onUnit, bind_assoc, pure_bind]

mutual

/-- Running a statement with the session as host is running it in the session. -/
theorem host_runStatement (v : Verbosity) : (st : Statement) →
    (host v).runStatement st = runStatement v st
  | .act u a => by
    rw [Host.runStatement, host_onUnit, runStatement]
    rfl
  | .ifThen u test yes => by
    rw [Host.runStatement, host_onUnit, runStatement, host_runBlock v yes]
    simp only [host_ifThen]
    rfl
  | .ifElse u test yes no => by
    rw [Host.runStatement, host_onUnit, runStatement, host_runBlock v yes, host_runBlock v no]
    simp only [host_ifElse]
    rfl
  | .loop u pre test body => by
    rw [Host.runStatement, host_onUnit, runStatement, host_runBlock v pre, host_runBlock v body]
    simp only [host_loop]
    rfl

/-- Running a block with the session as host is running it in the session. -/
theorem host_runBlock (v : Verbosity) : (block : List Statement) →
    (host v).runBlock block = runBlock v block
  | [] => by rw [Host.runBlock, runBlock]
  | st :: rest => by
    rw [Host.runBlock, runBlock, host_runStatement v st, host_runBlock v rest]

end

end Session

end ThreeAddress
