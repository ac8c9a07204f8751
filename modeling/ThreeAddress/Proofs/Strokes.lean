import Mathlib.Logic.Function.Basic
import ThreeAddress.Proofs.Operands

/-!
# Scripts as lists of strokes

A script with its conditionals and loops comes down to single strokes of work: an action, a label
taken for a conditional or a loop, an instruction emitted for it. A stroke on a unit reads and
changes its compilation, the labels that are open there and the named lists, and nothing of the
other units. Main statement: if all texts are given outright and every unit has a compilation, then
a script does what its strokes do one after another, each statement up to its first overflow.
-/

namespace ThreeAddress

open Script (Action Bindings Operand Statement UnitId)

namespace Script

/-- A text of an instruction that a conditional or a loop emits. -/
inductive Slot where
  /-- A text of the script. -/
  | given (o : Operand)
  /-- A label that was taken, counted from the latest. -/
  | taken (i : Nat)

/-- The text that is meant, given the labels taken; operands are texts given outright. -/
def Slot.read (labels : List Text) : Slot → Text
  | given o => o.read []
  | taken i => labels.getD i []

/-- What a conditional or a loop does itself, around its blocks. -/
inductive Joint where
  /-- Take a label. -/
  | label
  /-- Emit an instruction. -/
  | put (r : Request Slot)
  /-- Forget labels that are not needed any more. -/
  | forget (n : Nat)

/-- The test of a conditional or a loop. -/
def Joint.test (r : Relation Operand) (target : Slot) : Joint := put (.branch (r.map .given) target)

/-- Work on a unit that is done in one go. -/
inductive Stroke where
  /-- Perform an action. -/
  | act (a : Action)
  /-- Do a part of a conditional or a loop. -/
  | joint (j : Joint)

/-- Parts of a conditional or a loop on a unit. -/
def joints (u : UnitId) (js : List Joint) : List (UnitId × Stroke) := js.map fun j => (u, .joint j)

mutual

/-- The strokes of a statement with their units, in the order in which they are done. -/
def Statement.strokes : Statement → List (UnitId × Stroke)
  | .act u a => [(u, .act a)]
  | .ifThen u test yes =>
    joints u [.label, .label, .test test (.taken 1), .put (.jump (.taken 0)),
      .put (.mark (.taken 1))] ++
      (blockStrokes yes ++ joints u [.put (.mark (.taken 0)), .forget 2])
  | .ifElse u test yes no =>
    joints u [.label, .label, .test test (.taken 1)] ++ (blockStrokes no ++
      (joints u [.put (.jump (.taken 0)), .put (.mark (.taken 1))] ++ (blockStrokes yes ++
        joints u [.put (.mark (.taken 0)), .forget 2])))
  | .loop u pre test body =>
    joints u [.label, .label, .label, .put (.mark (.taken 2))] ++ (blockStrokes pre ++
      (joints u [.test test (.taken 1), .put (.jump (.taken 0)), .put (.mark (.taken 1))] ++
        (blockStrokes body ++
          joints u [.put (.jump (.taken 2)), .put (.mark (.taken 0)), .forget 3])))

/-- The strokes of a block with their units, in the order in which they are done. -/
def blockStrokes : List Statement → List (UnitId × Stroke)
  | [] => []
  | st :: rest => st.strokes ++ blockStrokes rest

end

theorem blockStrokes_append (first second : List Statement) :
    blockStrokes (first ++ second) = blockStrokes first ++ blockStrokes second := by
  induction first with
  | nil => rfl
  | cons st rest ih => rw [List.cons_append, blockStrokes, blockStrokes, ih, List.append_assoc]

theorem blockStrokes_eq_flatten (block : List Statement) :
    blockStrokes block = (block.map Statement.strokes).flatten := by
  induction block with
  | nil => rfl
  | cons st rest ih => rw [blockStrokes, ih, List.map_cons, List.flatten_cons]

/-- The operands that a stroke reads. -/
def Stroke.operands : Stroke → List Operand
  | act a => a.operands
  | joint (.put r) => r.terms.filterMap fun
    | .given o => some o
    | .taken _ => none
  | joint _ => []

namespace Stroke

@[simp] theorem operands_label : (joint .label).operands = [] := rfl

@[simp] theorem operands_test (test : Relation Operand) (i : Nat) :
    (joint (.test test (.taken i))).operands = test.terms := rfl

@[simp] theorem operands_jump (i : Nat) : (joint (.put (.jump (.taken i)))).operands = [] := rfl

@[simp] theorem operands_mark (i : Nat) : (joint (.put (.mark (.taken i)))).operands = [] := rfl

@[simp] theorem operands_forget (n : Nat) : (joint (.forget n)).operands = [] := rfl

end Stroke

/-- A stroke on one of the units that reads only the operands and performs only the actions
given. -/
structure Stroke.Among (units : List UnitId) (operands : List Operand)
    (actions : List (UnitId × Action)) (x : UnitId × Stroke) : Prop where
  unit : x.1 ∈ units
  operands : x.2.operands ⊆ operands
  action : ∀ a, x.2 = .act a → (x.1, a) ∈ actions

theorem Stroke.Among.mono {units units' : List UnitId} {operands operands' : List Operand}
    {actions actions' : List (UnitId × Action)} {x : UnitId × Stroke}
    (h : Among units operands actions x) (hunits : units ⊆ units')
    (hoperands : operands ⊆ operands') (hactions : actions ⊆ actions') :
    Among units' operands' actions' x :=
  ⟨hunits h.unit, List.Subset.trans h.operands hoperands, fun a ha => hactions (h.action a ha)⟩

/-- A stroke is about the units, the operands and the actions of a statement. -/
abbrev Stroke.In (st : Statement) : UnitId × Stroke → Prop := Among st.units st.operands st.actions

/-- The parts of a conditional or a loop are about its unit and its test. -/
theorem joints_among {units : List UnitId} {operands : List Operand}
    {actions : List (UnitId × Action)} {u : UnitId} (hu : u ∈ units) {js : List Joint}
    (hjs : ∀ j ∈ js, (Stroke.joint j).operands ⊆ operands) :
    ∀ x ∈ joints u js, Stroke.Among units operands actions x := by
  intro x hx
  obtain ⟨j, hj, rfl⟩ := List.mem_map.mp hx
  exact ⟨hu, hjs j hj, fun a ha => nomatch ha⟩

mutual

/-- The strokes of a statement are about its units, its operands and its actions. -/
theorem Statement.strokes_among : (st : Statement) → ∀ x ∈ st.strokes, Stroke.In st x
  | .act u a => by
    rw [Statement.strokes, List.forall_mem_singleton]
    refine ⟨List.mem_singleton.mpr rfl, List.Subset.refl _, fun b hb => ?_⟩
    cases hb
    exact List.mem_singleton.mpr rfl
  | .ifThen u test yes => by
    have hu : u ∈ (Statement.ifThen u test yes).units := by simp [Statement.units]
    have hyes : ∀ x ∈ blockStrokes yes, Stroke.In (.ifThen u test yes) x := fun x hx =>
      (blockStrokes_among yes x hx).mono (by simp [Statement.units]) (by simp [Statement.operands])
        (by simp [Statement.actions])
    simp only [Statement.strokes, List.forall_mem_append]
    exact ⟨joints_among hu (by simp [Statement.operands]), hyes,
      joints_among hu (by simp)⟩
  | .ifElse u test yes no => by
    have hu : u ∈ (Statement.ifElse u test yes no).units := by simp [Statement.units]
    have hyes : ∀ x ∈ blockStrokes yes, Stroke.In (.ifElse u test yes no) x := fun x hx =>
      (blockStrokes_among yes x hx).mono (by simp [Statement.units]) (by simp [Statement.operands])
        (by simp [Statement.actions])
    have hno : ∀ x ∈ blockStrokes no, Stroke.In (.ifElse u test yes no) x := fun x hx =>
      (blockStrokes_among no x hx).mono (by simp [Statement.units]) (by simp [Statement.operands])
        (by simp [Statement.actions])
    simp only [Statement.strokes, List.forall_mem_append]
    exact ⟨joints_among hu (by simp [Statement.operands]), hno,
      joints_among hu (by simp), hyes, joints_among hu (by simp)⟩
  | .loop u pre test body => by
    have hu : u ∈ (Statement.loop u pre test body).units := by simp [Statement.units]
    have hpre : ∀ x ∈ blockStrokes pre, Stroke.In (.loop u pre test body) x := fun x hx =>
      (blockStrokes_among pre x hx).mono (by simp [Statement.units]) (by simp [Statement.operands])
        (by simp [Statement.actions])
    have hbody : ∀ x ∈ blockStrokes body, Stroke.In (.loop u pre test body) x := fun x hx =>
      (blockStrokes_among body x hx).mono (by simp [Statement.units]) (by simp [Statement.operands])
        (by simp [Statement.actions])
    simp only [Statement.strokes, List.forall_mem_append]
    exact ⟨joints_among hu (by simp), hpre,
      joints_among hu (by simp [Statement.operands]), hbody,
      joints_among hu (by simp)⟩

/-- The strokes of a block are about its units, its operands and its actions. -/
theorem blockStrokes_among : (block : List Statement) →
    ∀ x ∈ blockStrokes block,
      Stroke.Among (blockUnits block) (blockOperands block) (blockActions block) x
  | [] => by simp [blockStrokes]
  | st :: rest => by
    rw [blockStrokes, List.forall_mem_append]
    constructor
    · intro x hx
      exact (st.strokes_among x hx).mono (by simp [blockUnits]) (by simp [blockOperands])
        (by simp [blockActions])
    · intro x hx
      exact (blockStrokes_among rest x hx).mono (by simp [blockUnits]) (by simp [blockOperands])
        (by simp [blockActions])

end

end Script

open Script (Joint Slot Stroke blockStrokes joints)

/-- What an action gave, or the overflow that ended it, with the action and its unit. -/
abbrev Told := UnitId × Action × Except Overflow Session.Result

/-- What a deed gave. -/
def Deed.told (deed : Deed) : Told := (deed.unit, deed.action, deed.outcome)

/-- The overflow that ended some work, if one did. -/
def Overflow.ofOutcome? {α : Type} : Except Overflow α → Option Overflow
  | .ok _ => none
  | .error e => some e

/-- A request to a unit with a compilation changes that compilation only. -/
theorem Session.emit_run (v : Verbosity) {s : Session} {u : UnitId} {c : Compilation}
    (h : s.unit? u = some c) (r : Request Text) :
    ∃ s', (emit v u r).run s = ((r.build c.supply).1, s') ∧
      s'.units = (s.setUnit u (c.request r)).units ∧ s'.sinks = s.sinks := by
  rw [Compilation.request]
  rcases hbuild : r.build c.supply with ⟨made, supply⟩
  cases made with
  | ok i => exact ⟨_, emit_run_ok v h hbuild, rfl, rfl⟩
  | error e => exact ⟨_, emit_run_error v h hbuild, rfl, rfl⟩

/-- What strokes work on. -/
structure Workshop where
  /-- The compilation of each unit. -/
  units : UnitId → Compilation
  /-- The labels of the conditionals and loops that are open on each unit, the latest first. -/
  labels : UnitId → List Text
  /-- The named lists. -/
  sinks : Sinks
  /-- What the actions gave, in order. -/
  told : List Told

namespace Workshop

/-- The overflow that ends a stroke on a unit, if one does, and the workshop after it. -/
def stroke (u : UnitId) : Stroke → Workshop → Option Overflow × Workshop
  | .act a, w =>
    let e := a.effect [] (w.units u) w.sinks
    (Overflow.ofOutcome? e.outcome,
      { w with
        units := Function.update w.units u e.unit
        sinks := e.sinks
        told := w.told ++ [(u, a, e.outcome)] })
  | .joint .label, w =>
    let name := ((w.units u).supply.fresh .label).1
    (Overflow.ofOutcome? name,
      { w with
        units := Function.update w.units u ((w.units u).take .label)
        labels := Function.update w.labels u (name.toOption.toList ++ w.labels u) })
  | .joint (.put r), w =>
    let r := r.map (Slot.read (w.labels u))
    (Overflow.ofOutcome? (r.build (w.units u).supply).1,
      { w with units := Function.update w.units u ((w.units u).request r) })
  | .joint (.forget n), w =>
    (none, { w with labels := Function.update w.labels u ((w.labels u).drop n) })

/-- Strokes one after another, up to the first overflow. -/
def run : List (UnitId × Stroke) → Workshop → Option Overflow × Workshop
  | [], w => (none, w)
  | (u, k) :: rest, w =>
    match stroke u k w with
    | (none, w') => run rest w'
    | (some e, w') => (some e, w')

/-- Lists of strokes one after another, each up to its first overflow. -/
def runEach : List (List (UnitId × Stroke)) → Workshop → List (Option Overflow) × Workshop
  | [], w => ([], w)
  | strokes :: rest, w =>
    let (first, w') := run strokes w
    let (later, last) := runEach rest w'
    (first :: later, last)

theorem run_append (first second : List (UnitId × Stroke)) (w : Workshop) :
    run (first ++ second) w = match run first w with
      | (none, w') => run second w'
      | (some e, w') => (some e, w') := by
  induction first generalizing w with
  | nil => rfl
  | cons x rest ih =>
    obtain ⟨u, k⟩ := x
    rw [List.cons_append, run, run]
    rcases stroke u k w with ⟨_ | e, w'⟩
    · exact ih w'
    · rfl

theorem runEach_cons (strokes : List (UnitId × Stroke)) (rest : List (List (UnitId × Stroke)))
    (w : Workshop) : runEach (strokes :: rest) w =
      ((run strokes w).1 :: (runEach rest (run strokes w).2).1,
        (runEach rest (run strokes w).2).2) := rfl

theorem run_singleton (u : UnitId) (k : Stroke) (w : Workshop) : run [(u, k)] w = stroke u k w := by
  rw [run]
  rcases stroke u k w with ⟨_ | e, w'⟩ <;> rfl

/-- Lists of strokes are done without an overflow exactly if all their
strokes are, one after another. -/
theorem run_flatten (lists : List (List (UnitId × Stroke))) (w : Workshop) :
    ((run lists.flatten w).1 = none ↔ ∀ o ∈ (runEach lists w).1, o = none) ∧
      ((run lists.flatten w).1 = none → (run lists.flatten w).2 = (runEach lists w).2) := by
  induction lists generalizing w with
  | nil => simp [run, runEach]
  | cons strokes rest ih =>
    rw [List.flatten_cons, run_append, runEach_cons]
    rcases run strokes w with ⟨_ | e, w'⟩
    · obtain ⟨hiff, hlast⟩ := ih w'
      refine ⟨?_, hlast⟩
      simp only [List.forall_mem_cons, true_and]
      exact hiff
    · constructor
      · simp only [List.forall_mem_cons, reduceCtorEq, false_and]
      · intro h
        cases h

/-- What a workshop has in common with a journal: the compilations of the units given, the named
lists and what the actions gave. -/
structure Shows (there : UnitId → Prop) (χ : Journal) (w : Workshop) : Prop where
  units : ∀ u, there u → χ.session.unit? u = some (w.units u)
  sinks : χ.session.sinks = w.sinks
  told : χ.deeds.map Deed.told = w.told

theorem Shows.after {there : UnitId → Prop} {χ : Journal} {w : Workshop} (h : Shows there χ w)
    {u : UnitId} (hu : there u) {s' : Session} {c : Compilation}
    (hunits : s'.units = (χ.session.setUnit u c).units)
    (labels : UnitId → List Text) {deeds : List Deed} {told : List Told}
    (htold : deeds.map Deed.told = told) :
    Shows there ⟨s', deeds⟩ ⟨Function.update w.units u c, labels, s'.sinks, told⟩ where
  units x hx := by
    have hunit := h.units x hx
    rw [Session.unit?_of_units (h.units u hu) hunits]
    dsimp only
    rw [Function.update_apply]
    by_cases hxu : x = u
    · rw [if_pos hxu.symm, if_pos hxu]
    · rw [if_neg (Ne.symm hxu), if_neg hxu, hunit]
  sinks := rfl
  told := htold

end Workshop

open Workshop (Shows)

namespace Journal

variable {α β : Type} {there : UnitId → Prop} {v : Verbosity} {u : UnitId}

/-- Work with a journal does what strokes do, and if it ends without an overflow it leaves the
labels given for its result. -/
def Follows (there : UnitId → Prop) (labels : UnitId → List Text) (after : α → UnitId → List Text)
    (x : JournalM α) (strokes : List (UnitId × Stroke)) : Prop :=
  ∀ χ w, Shows there χ w → w.labels = labels →
    ∃ w', Workshop.run strokes w = (Overflow.ofOutcome? (x.run χ).1, w') ∧
      Shows there (x.run χ).2 w' ∧
      ∀ a, (x.run χ).1 = .ok a → w'.labels = after a

namespace Follows

variable {L : UnitId → List Text}

theorem bind {M : α → UnitId → List Text} {N : β → UnitId → List Text} {x : JournalM α}
    {f : α → JournalM β} {first second : List (UnitId × Stroke)} (hx : Follows there L M x first)
    (hf : ∀ a, Follows there (M a) N (f a) second) :
    Follows there L N (x >>= f) (first ++ second) := by
  intro χ w hshows hlabels
  obtain ⟨w₁, hrun, hshows₁, hafter⟩ := hx χ w hshows hlabels
  rw [run_bind, Workshop.run_append, hrun]
  rcases hfirst : x.run χ with ⟨r, χ₁⟩
  rw [hfirst] at hshows₁ hafter
  cases r with
  | error e => exact ⟨w₁, rfl, hshows₁, fun _ h => nomatch h⟩
  | ok a => exact hf a χ₁ w₁ hshows₁ (hafter a rfl)

/-- Work that is a single stroke, with more to follow. -/
theorem bind_cons {M : α → UnitId → List Text} {N : β → UnitId → List Text} {x : JournalM α}
    {f : α → JournalM β} {k : UnitId × Stroke} {rest : List (UnitId × Stroke)}
    (hx : Follows there L M x [k]) (hf : ∀ a, Follows there (M a) N (f a) rest) :
    Follows there L N (x >>= f) (k :: rest) :=
  hx.bind hf

/-- Work that is no stroke at all, with more to follow. -/
theorem bind_nil {N : β → UnitId → List Text} {x : JournalM α} {f : α → JournalM β}
    {strokes : List (UnitId × Stroke)} (hx : Follows there L (fun _ => L) x [])
    (hf : ∀ a, Follows there L N (f a) strokes) : Follows there L N (x >>= f) strokes :=
  hx.bind hf

/-- Looking at the session is no stroke. -/
theorem look {x : JournalM α} (h : ∀ χ, ∃ a, x.run χ = (.ok a, χ)) :
    Follows there L (fun _ => L) x [] := by
  intro χ w hshows hlabels
  obtain ⟨a, hrun⟩ := h χ
  rw [hrun]
  exact ⟨w, rfl, hshows, fun _ _ => hlabels⟩

theorem length : Follows there L (fun _ => L) ((host v).length u) [] := look fun _ => ⟨_, rfl⟩

/-- Giving a result, when the labels of a conditional or a loop are not needed any more. -/
theorem forget {M : UnitId → List Text} {n : Nat}
    (h : Function.update L u ((L u).drop n) = M) (a : α) :
    Follows there L (fun _ => M) (pure a) [(u, .joint (.forget n))] := by
  intro χ w hshows hlabels
  rw [Workshop.run_singleton]
  refine ⟨_, rfl, ⟨hshows.units, hshows.sinks, hshows.told⟩, fun _ _ => ?_⟩
  subst hlabels
  exact h

theorem label (hu : there u) :
    Follows there L (fun name => Function.update L u (name :: L u)) ((host v).label u)
      [(u, .joint .label)] := by
  intro χ w hshows hlabels
  have hrun : ((host v).label u).run χ = (((Session.fresh u .label).run χ.session).1,
      { χ with session := ((Session.fresh u .label).run χ.session).2 }) := rfl
  rw [hrun, Session.fresh_run (hshows.units u hu), Workshop.run_singleton]
  refine ⟨_, rfl, ?_, fun name hname => ?_⟩
  · dsimp only
    rw [← hshows.sinks]
    exact hshows.after hu rfl _ hshows.told
  · dsimp only at hname
    rw [hname, ← hlabels]
    rfl

/-- Emitting an instruction of a conditional or a loop, with the labels taken for it. -/
theorem emit (hu : there u) {r : Request Slot} {r' : Request Text}
    (hr : r.map (Slot.read (L u)) = r') :
    Follows there L (fun _ => L) ((host v).emit u r') [(u, .joint (.put r))] := by
  intro χ w hshows hlabels
  obtain ⟨s', hemit, hunits, hsinks⟩ := Session.emit_run v (hshows.units u hu) r'
  have hrun : ((host v).emit u r').run χ =
      ((((Session.emit v u r') >>= fun _ => pure ()).run χ.session).1,
        { χ with session := ((Session.emit v u r' >>= fun _ => pure ()).run χ.session).2 }) := rfl
  have hafter := hshows.after hu hunits w.labels hshows.told
  subst hlabels hr
  rw [hsinks, hshows.sinks] at hafter
  rw [hrun, run_bind, hemit, Workshop.run_singleton, Workshop.stroke]
  cases ((r.map (Slot.read (w.labels u))).build (w.units u).supply).1 with
  | ok i => exact ⟨_, rfl, hafter, fun _ _ => rfl⟩
  | error e => exact ⟨_, rfl, hafter, fun _ _ => rfl⟩

theorem emitAt (hu : there u) {r : Request Slot} {r' : Request Text}
    (hr : r.map (Slot.read (L u)) = r') :
    Follows there L (fun _ => L) ((host v).emitAt u r') [(u, .joint (.put r))] :=
  bind_nil length fun _ => bind_cons (emit hu hr) fun _ => look fun _ => ⟨_, rfl⟩

/-- Performing an action whose operands are texts given outright. -/
theorem perform (hu : there u) {a : Action} (ha : ∀ o ∈ a.operands, o.isLiteral = true) :
    Follows there L (fun _ => L) ((host v).perform u a) [(u, .act a)] := by
  intro χ w hshows hlabels
  have hunit := hshows.units u hu
  have hagree : χ.session.bindings.Agree [] a.operands :=
    fun o ho => Operand.read_of_isLiteral (ha o ho) _ _
  obtain ⟨houtcome, hunits, hsinks⟩ := (Session.performed_runAction v hunit a).effect hunit
  rw [Action.effect_congr hagree, hshows.sinks] at houtcome hunits hsinks
  have htold : (χ.deeds ++ [Deed.mk u a χ.session ((Session.runAction v u a).run χ.session).1]).map
      Deed.told = w.told ++ [(u, a, ((Session.runAction v u a).run χ.session).1)] := by
    rw [List.map_append, hshows.told]
    rfl
  have hafter := hshows.after hu hunits w.labels htold
  rw [hsinks] at hafter
  have hrun : ((host v).perform u a).run χ = Journal.perform v u a χ := rfl
  rw [Workshop.run_singleton, Workshop.stroke, ← houtcome, hrun, Journal.perform]
  exact ⟨_, rfl, hafter, fun _ _ => hlabels⟩

/-- The test of a conditional or a loop, with the label taken for its target. -/
theorem emitTest (hu : there u) {test : Relation Operand}
    (htest : ∀ o ∈ test.terms, o.isLiteral = true) (b : Bindings) {i : Nat} {target : Text}
    (htarget : (L u).getD i [] = target) :
    Follows there L (fun _ => L) ((host v).emitAt u (.branch (test.map (·.read b)) target))
      [(u, .joint (.test test (.taken i)))] := by
  refine emitAt hu ?_
  have hread : test.map (·.read []) = test.map (·.read b) :=
    Relation.map_congr fun o ho => Operand.read_of_isLiteral (htest o ho) _ _
  rw [← hread, ← htarget]
  rfl

section Frames

variable {test : Relation Operand} (htest : ∀ o ∈ test.terms, o.isLiteral = true) (hu : there u)

include htest hu

theorem ifThen (b : Bindings) {block : JournalM (List α)} {yes : List (UnitId × Stroke)}
    (hyes : ∀ L, Follows there L (fun _ => L) block yes) :
    Follows there L (fun _ => L) ((host v).ifThen u (test.map (·.read b)) block)
      (joints u [.label, .label, .test test (.taken 1), .put (.jump (.taken 0)),
        .put (.mark (.taken 1))] ++ (yes ++ joints u [.put (.mark (.taken 0)), .forget 2])) := by
  simp only [joints, List.map_cons, List.map_nil, List.cons_append, List.nil_append]
  refine bind_nil length fun start => ?_
  refine bind_cons (label hu) fun yes => bind_cons (label hu) fun done => ?_
  refine bind_cons (emitTest hu htest b (by simp)) fun first => ?_
  refine bind_cons (emitAt hu (by simp [Request.map, Slot.read])) fun second => ?_
  refine bind_cons (emit hu (by simp [Request.map, Slot.read])) fun _ => ?_
  refine bind (hyes _) fun results => ?_
  refine bind_cons (emit hu (by simp [Request.map, Slot.read])) fun _ => ?_
  refine bind_nil length fun stop => bind_nil (look fun _ => ⟨_, rfl⟩) fun _ => ?_
  exact forget (by simp) results

theorem ifElse (b : Bindings) {block other : JournalM (List α)} {yes no : List (UnitId × Stroke)}
    (hyes : ∀ L, Follows there L (fun _ => L) block yes)
    (hno : ∀ L, Follows there L (fun _ => L) other no) :
    Follows there L (fun _ => L) ((host v).ifElse u (test.map (·.read b)) block other)
      (joints u [.label, .label, .test test (.taken 1)] ++ (no ++
        (joints u [.put (.jump (.taken 0)), .put (.mark (.taken 1))] ++ (yes ++
          joints u [.put (.mark (.taken 0)), .forget 2])))) := by
  simp only [joints, List.map_cons, List.map_nil, List.cons_append, List.nil_append]
  refine bind_nil length fun start => ?_
  refine bind_cons (label hu) fun yes => bind_cons (label hu) fun done => ?_
  refine bind_cons (emitTest hu htest b (by simp)) fun branch => ?_
  refine bind (hno _) fun earlier => ?_
  refine bind_cons (emitAt hu (by simp [Request.map, Slot.read])) fun jump => ?_
  refine bind_cons (emit hu (by simp [Request.map, Slot.read])) fun _ => ?_
  refine bind (hyes _) fun later => ?_
  refine bind_cons (emit hu (by simp [Request.map, Slot.read])) fun _ => ?_
  refine bind_nil length fun stop => bind_nil (look fun _ => ⟨_, rfl⟩) fun _ => ?_
  exact forget (by simp) (earlier ++ later)

theorem loop {block before : JournalM (List α)} {body pre : List (UnitId × Stroke)}
    (hbody : ∀ L, Follows there L (fun _ => L) block body)
    (hpre : ∀ L, Follows there L (fun _ => L) before pre) :
    Follows there L (fun _ => L)
      ((host v).loop u (do
        let answers ← before
        let b ← (host v).bindings
        return (answers, test.map (·.read b))) block)
      (joints u [.label, .label, .label, .put (.mark (.taken 2))] ++ (pre ++
        (joints u [.test test (.taken 1), .put (.jump (.taken 0)), .put (.mark (.taken 1))] ++
          (body ++ joints u [.put (.jump (.taken 2)), .put (.mark (.taken 0)), .forget 3])))) := by
  -- The preparation is taken apart, so that the test is seen to be read from some bindings.
  rw [Host.loop]
  simp only [joints, List.map_cons, List.map_nil, List.cons_append, List.nil_append,
    bind_assoc, pure_bind]
  refine bind_nil length fun start => ?_
  refine bind_cons (label hu) fun top => bind_cons (label hu) fun body =>
    bind_cons (label hu) fun done => ?_
  refine bind_cons (emit hu (by simp [Request.map, Slot.read])) fun _ => ?_
  refine bind (hpre _) fun earlier => bind_nil (look fun _ => ⟨_, rfl⟩) fun b => ?_
  refine bind_cons (emitTest hu htest b (by simp)) fun branch => ?_
  refine bind_cons (emitAt hu (by simp [Request.map, Slot.read])) fun exit => ?_
  refine bind_cons (emit hu (by simp [Request.map, Slot.read])) fun _ => ?_
  refine bind (hbody _) fun later => ?_
  refine bind_cons (emitAt hu (by simp [Request.map, Slot.read])) fun back => ?_
  refine bind_cons (emit hu (by simp [Request.map, Slot.read])) fun _ => ?_
  refine bind_nil length fun stop => bind_nil (look fun _ => ⟨_, rfl⟩) fun _ => ?_
  exact forget (by simp) (earlier ++ later)

end Frames

theorem onUnit (hu : there u) {x : JournalM Session.Answer} {strokes : List (UnitId × Stroke)}
    (hx : Follows there L (fun _ => L) x strokes) :
    Follows there L (fun _ => L) ((host v).onUnit u x) strokes := by
  intro χ w hshows hlabels
  have hrun : ((host v).onUnit u x).run χ =
      (if (χ.session.unit? u).isSome then x else return .noUnit : JournalM _).run χ := rfl
  rw [hrun, hshows.units u hu, Option.isSome_some, if_pos rfl]
  exact hx χ w hshows hlabels

/-- Work on a unit ends with a look at the length of its program. -/
theorem answered {x : JournalM α} {strokes : List (UnitId × Stroke)}
    (hx : Follows there L (fun _ => L) x strokes) (answer : Nat → α → Session.Answer) :
    Follows there L (fun _ => L) (do
      let a ← x
      return answer (← (host v).length u) a) strokes := by
  have hboth := hx.bind fun a => bind_nil (length (v := v) (u := u)) fun n =>
    look (x := pure (answer n a)) fun _ => ⟨_, rfl⟩
  rw [List.append_nil] at hboth
  exact hboth

end Follows

/-- A stroke on a unit that has a compilation, all of whose texts are given outright. -/
def Plain (there : UnitId → Prop) (x : UnitId × Stroke) : Prop :=
  there x.1 ∧ ∀ o ∈ x.2.operands, o.isLiteral = true

mutual

/-- A statement does what its strokes do. -/
theorem follows_runStatement : (st : Statement) → (∀ x ∈ st.strokes, Plain there x) →
    ∀ L, Follows there L (fun _ => L) ((host v).runStatement st) st.strokes
  | .act u a, h, L => by
    obtain ⟨hu, ha⟩ := h (u, .act a) (by simp [Statement.strokes])
    exact .onUnit hu (.answered (.perform hu ha) .action)
  | .ifThen u test yes, h, L => by
    have hyes := follows_runBlock yes fun x hx => h x (by simp [Statement.strokes, hx])
    obtain ⟨hu, htest⟩ :=
      h (u, .joint (.test test (.taken 1))) (by simp [Statement.strokes, joints])
    refine .onUnit hu (.bind_nil (.look fun _ => ⟨_, rfl⟩) fun b => ?_)
    exact .answered (.ifThen htest hu b hyes) .block
  | .ifElse u test yes no, h, L => by
    have hyes := follows_runBlock yes fun x hx => h x (by simp [Statement.strokes, hx])
    have hno := follows_runBlock no fun x hx => h x (by simp [Statement.strokes, hx])
    obtain ⟨hu, htest⟩ :=
      h (u, .joint (.test test (.taken 1))) (by simp [Statement.strokes, joints])
    refine .onUnit hu (.bind_nil (.look fun _ => ⟨_, rfl⟩) fun b => ?_)
    exact .answered (.ifElse htest hu b hyes hno) .block
  | .loop u pre test body, h, L => by
    have hpre := follows_runBlock pre fun x hx => h x (by simp [Statement.strokes, hx])
    have hbody := follows_runBlock body fun x hx => h x (by simp [Statement.strokes, hx])
    obtain ⟨hu, htest⟩ :=
      h (u, .joint (.test test (.taken 1))) (by simp [Statement.strokes, joints])
    exact .onUnit hu (.answered (.loop htest hu hbody hpre) .block)

/-- A block does what its strokes do. -/
theorem follows_runBlock : (block : List Statement) → (∀ x ∈ blockStrokes block, Plain there x) →
    ∀ L, Follows there L (fun _ => L) ((host v).runBlock block) (blockStrokes block)
  | [], _, _ => .look fun _ => ⟨_, rfl⟩
  | st :: rest, h, L => by
    have hst := follows_runStatement st fun x hx => h x (by simp [blockStrokes, hx])
    have hrest := follows_runBlock rest fun x hx => h x (by simp [blockStrokes, hx])
    refine (hst L).bind fun answer => ?_
    have hlast :=
      (hrest L).bind fun answers => .look (x := pure (answer :: answers)) fun _ => ⟨_, rfl⟩
    rw [List.append_nil] at hlast
    exact hlast

end

/-- A script does what its strokes do, each statement up to its first overflow. -/
theorem shows_run (script : List Statement) (hplain : ∀ x ∈ blockStrokes script, Plain there x)
    {χ : Journal} {w : Workshop} (h : Shows there χ w) :
    ∃ w', Workshop.runEach (script.map Statement.strokes) w =
        ((run v script χ).1.map fun step => Overflow.ofOutcome? step.outcome, w') ∧
      Shows there (run v script χ).2 w' := by
  induction script generalizing χ w with
  | nil => exact ⟨w, rfl, h⟩
  | cons st rest ih =>
    obtain ⟨hst, hrest⟩ := List.forall_mem_append.mp hplain
    have hcleared : Shows there χ.clearLog w := ⟨h.units, h.sinks, h.told⟩
    obtain ⟨w₁, hrun, hshows, -⟩ :=
      follows_runStatement (v := v) st hst w.labels χ.clearLog w hcleared rfl
    obtain ⟨w₂, hruns, hlast⟩ := ih hrest hshows
    refine ⟨w₂, ?_, hlast⟩
    rw [List.map_cons, Workshop.runEach_cons, hrun, hruns]
    rfl

end Journal

end ThreeAddress
