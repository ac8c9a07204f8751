import ThreeAddress.Proofs.Strokes

/-!
# Leaving parts of a script out

From a script actions can be left out, and conditionals and loops can be replaced by the statements
in their blocks, in the order in which these run. The strokes of what is kept are the strokes that
are kept. Main statements: what is kept leads where the whole script leads, up to a relation in
which the strokes left out do not matter. That is so if the script runs without an overflow, or if
nothing that is left out can overflow and conditionals and loops are kept.
-/

namespace ThreeAddress

open Script (Action Joint Statement Stroke UnitId blockStrokes joints)

/-! ## Selections -/

namespace Script

/-- What is kept of a script. -/
structure Selection where
  /-- Whether an action on a unit is kept. -/
  action : UnitId → Action → Bool
  /-- Whether the conditionals and loops on a unit are kept; of others the blocks stay. -/
  frame : UnitId → Bool

/-- Whether a stroke is kept. -/
def Selection.keeps (p : Selection) (x : UnitId × Stroke) : Bool :=
  match x.2 with
  | .act a => p.action x.1 a
  | .joint _ => p.frame x.1

mutual

/-- What is kept of a statement: the blocks of a conditional or a loop that is not kept take its
place, in the order in which they run. -/
def Statement.select (p : Selection) : Statement → List Statement
  | .act u a => if p.action u a then [.act u a] else []
  | .ifThen u test yes =>
    if p.frame u then [.ifThen u test (selectBlock p yes)] else selectBlock p yes
  | .ifElse u test yes no =>
    if p.frame u then [.ifElse u test (selectBlock p yes) (selectBlock p no)]
    else selectBlock p no ++ selectBlock p yes
  | .loop u pre test body =>
    if p.frame u then [.loop u (selectBlock p pre) test (selectBlock p body)]
    else selectBlock p pre ++ selectBlock p body

/-- What is kept of the statements of a block. -/
def selectBlock (p : Selection) : List Statement → List Statement
  | [] => []
  | st :: rest => st.select p ++ selectBlock p rest

end

theorem filter_joints (p : Selection) (u : UnitId) (js : List Joint) :
    (joints u js).filter p.keeps = if p.frame u then joints u js else [] := by
  cases hframe : p.frame u with
  | true =>
    refine List.filter_eq_self.mpr fun x hx => ?_
    obtain ⟨j, -, rfl⟩ := List.mem_map.mp hx
    exact hframe
  | false =>
    refine List.filter_eq_nil_iff.mpr fun x hx hkeeps => ?_
    obtain ⟨j, -, rfl⟩ := List.mem_map.mp hx
    exact Bool.false_ne_true (hframe.symm.trans hkeeps)

mutual

/-- The strokes of what is kept are the strokes that are kept. -/
theorem strokes_select (p : Selection) : (st : Statement) →
    blockStrokes (st.select p) = st.strokes.filter p.keeps
  | .act u a => by
    rw [Statement.select, Statement.strokes, List.filter_singleton]
    have hkeeps : p.keeps (u, .act a) = p.action u a := rfl
    rw [hkeeps]
    cases p.action u a <;> rfl
  | .ifThen u test yes => by
    have hyes := strokes_selectBlock p yes
    rw [Statement.select]
    cases hframe : p.frame u <;>
      simp [Statement.strokes, blockStrokes, filter_joints, hframe, hyes]
  | .ifElse u test yes no => by
    have hyes := strokes_selectBlock p yes
    have hno := strokes_selectBlock p no
    rw [Statement.select]
    cases hframe : p.frame u <;>
      simp [Statement.strokes, blockStrokes, blockStrokes_append, filter_joints, hframe, hyes, hno]
  | .loop u pre test body => by
    have hpre := strokes_selectBlock p pre
    have hbody := strokes_selectBlock p body
    rw [Statement.select]
    cases hframe : p.frame u <;>
      simp [Statement.strokes, blockStrokes, blockStrokes_append, filter_joints, hframe,
        hpre, hbody]

theorem strokes_selectBlock (p : Selection) : (block : List Statement) →
    blockStrokes (selectBlock p block) = (blockStrokes block).filter p.keeps
  | [] => rfl
  | st :: rest => by
    rw [selectBlock, blockStrokes_append, strokes_select p st, strokes_selectBlock p rest,
      blockStrokes, List.filter_append]

end

/-- If conditionals and loops are kept, then one statement at most is left of a statement. -/
theorem select_of_frames {p : Selection} (hframe : ∀ u, p.frame u = true) (st : Statement) :
    st.select p = [] ∨ ∃ st', st.select p = [st'] := by
  cases st with
  | act u a =>
    rw [Statement.select]
    cases p.action u a with
    | true => exact .inr ⟨_, rfl⟩
    | false => exact .inl rfl
  | ifThen u test yes => exact .inr ⟨_, by rw [Statement.select, if_pos (hframe u)]⟩
  | ifElse u test yes no => exact .inr ⟨_, by rw [Statement.select, if_pos (hframe u)]⟩
  | loop u pre test body => exact .inr ⟨_, by rw [Statement.select, if_pos (hframe u)]⟩

end Script

open Script (Selection selectBlock)

/-! ## Two runs -/

namespace Workshop

/-- A relation between workshops that strokes keep: the strokes that are kept when both do them, and
the others when only the first does them. -/
structure Ignores (keeps : UnitId × Stroke → Bool) (fit : UnitId × Stroke → Prop)
    (R : Workshop → Workshop → Prop) : Prop where
  /-- A stroke that is kept ends alike on both sides. -/
  kept : ∀ {u k w w'}, fit (u, k) → keeps (u, k) = true → R w w' →
    (stroke u k w).1 = (stroke u k w').1 ∧ R (stroke u k w).2 (stroke u k w').2
  /-- A stroke that is left out does not matter. -/
  leftOut : ∀ {u k w w'}, fit (u, k) → keeps (u, k) = false → R w w' → R (stroke u k w).2 w'

/-- No stroke that is left out can end by an overflow. -/
def Silent (keeps : UnitId × Stroke → Bool) (fit : UnitId × Stroke → Prop) : Prop :=
  ∀ u k w, fit (u, k) → keeps (u, k) = false → (stroke u k w).1 = none

variable {keeps : UnitId × Stroke → Bool} {fit : UnitId × Stroke → Prop}
    {R : Workshop → Workshop → Prop}

/-- Strokes of which some are left out end as all of them do, if those left
out end without an overflow. -/
theorem Ignores.run_filter (h : Ignores keeps fit R) {strokes : List (UnitId × Stroke)}
    {w w' : Workshop} (hfit : ∀ x ∈ strokes, fit x) (hR : R w w')
    (hdone : (run strokes w).1 = none ∨ Silent keeps fit) :
    (run strokes w).1 = (run (strokes.filter keeps) w').1 ∧
      R (run strokes w).2 (run (strokes.filter keeps) w').2 := by
  induction strokes generalizing w w' with
  | nil => exact ⟨rfl, hR⟩
  | cons x rest ih =>
    obtain ⟨u, k⟩ := x
    obtain ⟨hfirst, hrest⟩ := List.forall_mem_cons.mp hfit
    rw [run] at hdone ⊢
    cases hkeeps : keeps (u, k) with
    | true =>
      obtain ⟨hends, hR'⟩ := h.kept hfirst hkeeps hR
      rw [List.filter_cons_of_pos hkeeps, run]
      rcases hstroke : stroke u k w with ⟨ends, w₁⟩
      rcases hstroke' : stroke u k w' with ⟨ends', w₁'⟩
      rw [hstroke, hstroke'] at hends hR'
      rw [hstroke] at hdone
      cases hends
      cases ends with
      | none => exact ih hrest hR' hdone
      | some e => exact ⟨rfl, hR'⟩
    | false =>
      have hR' := h.leftOut hfirst hkeeps hR
      have hnot : ¬keeps (u, k) = true := by rw [hkeeps]; exact Bool.false_ne_true
      rw [List.filter_cons_of_neg hnot]
      rcases hstroke : stroke u k w with ⟨_ | e, w₁⟩ <;> rw [hstroke] at hR' hdone
      · exact ih hrest hR' hdone
      · -- An overflow here would end the first run, or come from a stroke that cannot have one.
        rcases hdone with hdone | hsilent
        · cases hdone
        · have hnone := hsilent u k w hfirst hkeeps
          rw [hstroke] at hnone
          cases hnone

/-- Statement by statement, as long as conditionals and loops are kept. -/
theorem Ignores.runEach_select {p : Selection} (h : Ignores p.keeps fit R)
    (hsilent : Silent p.keeps fit) (hframe : ∀ u, p.frame u = true) {script : List Statement}
    {w w' : Workshop}
    (hfit : ∀ x ∈ blockStrokes script, fit x) (hR : R w w') :
    (runEach (script.map Statement.strokes) w).1.filterMap id =
        (runEach ((selectBlock p script).map Statement.strokes) w').1.filterMap id ∧
      R (runEach (script.map Statement.strokes) w).2
        (runEach ((selectBlock p script).map Statement.strokes) w').2 := by
  induction script generalizing w w' with
  | nil => exact ⟨rfl, hR⟩
  | cons st rest ih =>
    obtain ⟨hst, hrest⟩ := List.forall_mem_append.mp hfit
    obtain ⟨hends, hR'⟩ := h.run_filter hst hR (.inr hsilent)
    obtain ⟨hlater, hlast⟩ := ih hrest hR'
    rw [← Script.strokes_select] at hends hlater hlast
    rw [selectBlock, List.map_append, List.map_cons, runEach_cons, List.filterMap_cons]
    rcases Script.select_of_frames hframe st with hnone | ⟨st', hone⟩
    · rw [hnone] at hends hlater hlast ⊢
      rw [hends]
      exact ⟨hlater, hlast⟩
    · have hstrokes : blockStrokes [st'] = st'.strokes := List.append_nil _
      rw [hone, hstrokes] at hends hlater hlast
      rw [hone, List.map_singleton, List.singleton_append, runEach_cons, List.filterMap_cons,
        hends, hlater]
      exact ⟨rfl, hlast⟩

/-- The workshop in which a session begins. -/
def ofSession (s : Session) : Workshop := ⟨s.unit, fun _ => [], s.sinks, []⟩

theorem shows_ofSession (s : Session) :
    Shows (fun u => (s.unit? u).isSome) ⟨s, []⟩ (ofSession s) where
  units u hu := by
    obtain ⟨c, hc⟩ := Option.isSome_iff_exists.mp hu
    have hunit : (ofSession s).units u = c := Session.unit_of_unit? hc
    rw [hc, hunit]
  sinks := rfl
  told := rfl

end Workshop

open Workshop (Ignores Shows Silent ofSession shows_ofSession)

theorem Overflow.ofOutcome?_eq_none_iff {α : Type} {r : Except Overflow α} :
    ofOutcome? r = none ↔ r.isOk = true := by
  cases r with
  | ok a => exact ⟨fun _ => rfl, fun _ => rfl⟩
  | error e => exact ⟨(nomatch ·), (nomatch ·)⟩

/-- The overflow that ended an outermost statement, if one did. -/
def Session.Step.overflow? (step : Session.Step) : Option Overflow :=
  Overflow.ofOutcome? step.outcome

/-- The units that have a compilation in a session. -/
abbrev Session.Has (s : Session) (u : UnitId) : Prop := (s.unit? u).isSome = true

/-- Two runs from the same session lead to related workshops. -/
def Session.Related (v : Verbosity) (R : Workshop → Workshop → Prop) (s : Session)
    (script part : List Statement) : Prop :=
  ∃ w w', R w w' ∧ Shows s.Has (Journal.run v script ⟨s, []⟩).2 w ∧
    Shows s.Has (Journal.run v part ⟨s, []⟩).2 w'

namespace Session

variable {p : Selection} {fit : UnitId × Stroke → Prop} {R : Workshop → Workshop → Prop}
    {v : Verbosity}
  {script : List Statement} {s : Session}

/-- What the strokes of a script do in a session. -/
theorem runEach_strokes (hplain : ∀ x ∈ blockStrokes script, Journal.Plain s.Has x) :
    ∃ w, Workshop.runEach (script.map Statement.strokes) (ofSession s) =
        ((run v script s).1.map Step.overflow?, w) ∧
      Shows s.Has (Journal.run v script ⟨s, []⟩).2 w := by
  obtain ⟨w, hrun, hshows⟩ := Journal.shows_run (v := v) script hplain (shows_ofSession s)
  rw [(Journal.run_eq v script ⟨s, []⟩).1] at hrun
  exact ⟨w, hrun, hshows⟩

theorem plain_select (p : Selection) (hplain : ∀ x ∈ blockStrokes script, Journal.Plain s.Has x) :
    ∀ x ∈ blockStrokes (selectBlock p script), Journal.Plain s.Has x := by
  intro x hx
  rw [Script.strokes_selectBlock] at hx
  exact hplain x (List.mem_filter.mp hx).1

variable (hignores : Ignores p.keeps fit R)
    (hplain : ∀ x ∈ blockStrokes script, Journal.Plain s.Has x)
  (hfit : ∀ x ∈ blockStrokes script, fit x) (hR : R (ofSession s) (ofSession s))

include hignores hplain hfit hR

/-- What is kept of a script that runs without an overflow runs without one and leads to a related
workshop. -/
theorem related_of_isOk (hok : ∀ step ∈ (run v script s).1, step.outcome.isOk = true) :
    (∀ step ∈ (run v (selectBlock p script) s).1, step.outcome.isOk = true) ∧
      Related v R s script (selectBlock p script) := by
  obtain ⟨w, hrun, hshows⟩ := runEach_strokes (v := v) hplain
  obtain ⟨w', hrun', hshows'⟩ := runEach_strokes (v := v) (plain_select p hplain)
  -- Without an overflow it does not matter where a statement ends, so both runs are
  -- single lists of strokes.
  obtain ⟨hiff, hlast⟩ := Workshop.run_flatten (script.map Statement.strokes) (ofSession s)
  obtain ⟨hiff', hlast'⟩ :=
    Workshop.run_flatten ((selectBlock p script).map Statement.strokes) (ofSession s)
  rw [hrun, ← Script.blockStrokes_eq_flatten] at hiff hlast
  rw [hrun', ← Script.blockStrokes_eq_flatten] at hiff' hlast'
  have hdone : (Workshop.run (blockStrokes script) (ofSession s)).1 = none := by
    refine hiff.mpr fun o ho => ?_
    obtain ⟨step, hstep, rfl⟩ := List.mem_map.mp ho
    exact Overflow.ofOutcome?_eq_none_iff.mpr (hok step hstep)
  obtain ⟨hends, hR'⟩ := hignores.run_filter hfit hR (.inl hdone)
  rw [← Script.strokes_selectBlock] at hends hR'
  have hdone' := hends.symm.trans hdone
  rw [hlast hdone, hlast' hdone'] at hR'
  refine ⟨fun step hstep => ?_, w, w', hR', hshows, hshows'⟩
  have hnone := hiff'.mp hdone' step.overflow? (List.mem_map_of_mem hstep)
  exact Overflow.ofOutcome?_eq_none_iff.mp hnone

/-- If conditionals and loops are kept and nothing that is left out can overflow, then what is kept
overflows where the script does, and leads to a related workshop. -/
theorem related_of_silent (hsilent : Silent p.keeps fit) (hframe : ∀ u, p.frame u = true) :
    (run v (selectBlock p script) s).1.filterMap Step.overflow? =
        (run v script s).1.filterMap Step.overflow? ∧
      Related v R s script (selectBlock p script) := by
  obtain ⟨w, hrun, hshows⟩ := runEach_strokes (v := v) hplain
  obtain ⟨w', hrun', hshows'⟩ := runEach_strokes (v := v) (plain_select p hplain)
  obtain ⟨hends, hR'⟩ := hignores.runEach_select hsilent hframe hfit hR
  rw [hrun, hrun'] at hends hR'
  rw [List.filterMap_map, List.filterMap_map] at hends
  exact ⟨hends.symm, w, w', hR', hshows, hshows'⟩

end Session

end ThreeAddress
