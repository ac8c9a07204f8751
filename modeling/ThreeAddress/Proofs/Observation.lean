import ThreeAddress.Proofs.Steps

/-!
# The log only observes

Two runs of one script, at any two levels of verbosity and whichever units log their programs at the
end, are compared step by step. Main statement: apart from the logs nothing differs, and the log of
a higher level has all lines of the log of a lower one, in the same order.
-/

namespace ThreeAddress

open Script (Action Statement UnitId)

/-! ## Lines that a higher level keeps -/

theorem Verbosity.atLeast_sublist {v v' : Verbosity} (h : v ≤ v') (level : Verbosity)
    (lines : List LogLine) : (atLeast level v lines).Sublist (atLeast level v' lines) := by
  rw [atLeast, atLeast]
  by_cases hlevel : level ≤ v
  · rw [if_pos hlevel, if_pos (Int.le_trans hlevel h)]
  · rw [if_neg hlevel]
    exact List.nil_sublist _

theorem Instr.trace_sublist {v v' : Verbosity} (h : v ≤ v') (i : Instr) :
    (i.trace v).Sublist (i.trace v') := by
  rw [trace, trace]
  split
  · exact List.Sublist.refl _
  · exact Verbosity.atLeast_sublist h _ _

theorem SymbolTable.declareLog_sublist {v v' : Verbosity} (h : v ≤ v') (s : Symbol)
    (result : Except SymbolError Nat) :
    (declareLog v s result).Sublist (declareLog v' s result) := by
  cases result with
  | ok id => exact Verbosity.atLeast_sublist h _ _
  | error e => exact List.Sublist.refl _

theorem SymbolTable.Op.log_sublist {v v' : Verbosity} (h : v ≤ v') (op : Op) (answer : Answer) :
    (op.log v answer).Sublist (op.log v' answer) := by
  rw [log.eq_def, log.eq_def]
  split
  · exact declareLog_sublist h _ _
  · exact List.Sublist.refl _

namespace Compilation

/-- The compilation without the wish to have its program logged. -/
def withoutDump (c : Compilation) : Compilation := { c with dumps := false }

/-- One compilation is another, except that its program may be logged at the end where that of the
other is not. Where the second is to be the louder one, it logs its program if the first does. -/
def Twin (louder : Prop) (c c' : Compilation) : Prop :=
  ∃ dumps, c' = { c with dumps } ∧ (louder → c.dumps = true → dumps = true)

theorem Twin.refl (louder : Prop) (c : Compilation) : Twin louder c c := ⟨c.dumps, rfl, fun _ => id⟩

theorem Twin.withoutDump_eq {louder : Prop} {c c' : Compilation} (h : Twin louder c c') :
    c.withoutDump = c'.withoutDump := by
  obtain ⟨dumps, rfl, -⟩ := h
  rfl

/-- Compilations that agree but for the wish to have the program logged are twins. -/
theorem twin_of_withoutDump_eq {louder : Prop} {c c' : Compilation}
    (h : c.withoutDump = c'.withoutDump) (hdumps : louder → c.dumps = true → c'.dumps = true) :
    Twin louder c c' := by
  refine ⟨c'.dumps, ?_, hdumps⟩
  have hback : { c'.withoutDump with dumps := c'.dumps } =
      { c.withoutDump with dumps := c'.dumps } := by
    rw [h]
  exact hback

/-- At the end the louder of two twins logs what the other one logs, and perhaps its program. -/
theorem Twin.finishLog_sublist {louder : Prop} {c c' : Compilation} (h : Twin louder c c')
    (hl : louder) {v v' : Verbosity} (hv : v ≤ v') : (c.finishLog v).Sublist (c'.finishLog v') := by
  obtain ⟨dumps, rfl, hdumps⟩ := h
  refine List.Sublist.append ?_ (Verbosity.atLeast_sublist hv _ _)
  cases hc : c.dumps with
  | false => exact List.nil_sublist _
  | true =>
    rw [hdumps hl hc]
    exact List.Sublist.refl _

end Compilation

open Compilation (Twin twin_of_withoutDump_eq)

namespace Session

/-- Sessions that differ at most in what was logged by the last statement and in which
units log their programs. -/
structure SameButLog (s s' : Session) : Prop where
  /-- The compilations agree but for the wish to have the program logged. -/
  units : ∀ u, (s.unit? u).map Compilation.withoutDump = (s'.unit? u).map Compilation.withoutDump
  /-- The lists hold the same. -/
  sinks : s.sinks = s'.sinks
  /-- The same was counted. -/
  metrics : s.metrics = s'.metrics
  /-- The same results are bound. -/
  bindings : s.bindings = s'.bindings

/-- Sessions that differ at most in their logs and in which units log their programs. Where the
second is to be the louder one, it logged all that the first one did. -/
structure Twins (louder : Prop) (s s' : Session) : Prop where
  units : ∀ u, Option.Rel (Twin louder) (s.unit? u) (s'.unit? u)
  sinks : s.sinks = s'.sinks
  metrics : s.metrics = s'.metrics
  bindings : s.bindings = s'.bindings
  log : louder → s.log.Sublist s'.log

variable {louder : Prop} {s s' : Session} {u : UnitId} {α β : Type}

namespace Twins

/-- A unit has a compilation in both sessions or in neither. -/
theorem unit?_cases (h : Twins louder s s') (u : UnitId) :
    (s.unit? u = none ∧ s'.unit? u = none) ∨
      ∃ c c', s.unit? u = some c ∧ s'.unit? u = some c' ∧ Twin louder c c' := by
  have hu := h.units u
  generalize s.unit? u = unit at hu
  generalize s'.unit? u = unit' at hu
  cases hu with
  | none => exact .inl ⟨rfl, rfl⟩
  | some htwin => exact .inr ⟨_, _, rfl, rfl, htwin⟩

theorem sameButLog (h : Twins louder s s') : SameButLog s s' where
  units u := by
    obtain ⟨hs, hs'⟩ | ⟨c, c', hs, hs', htwin⟩ := h.unit?_cases u
    · rw [hs, hs']
    · rw [hs, hs', Option.map_some, Option.map_some, htwin.withoutDump_eq]
  sinks := h.sinks
  metrics := h.metrics
  bindings := h.bindings

theorem unit (h : Twins louder s s') (u : UnitId) : Twin louder (s.unit u) (s'.unit u) := by
  rw [Session.unit, Session.unit]
  obtain ⟨hs, hs'⟩ | ⟨c, c', hs, hs', htwin⟩ := h.unit?_cases u
  · rw [hs, hs']
    exact .refl _ _
  · rw [hs, hs']
    exact htwin

theorem isSome_unit? (h : Twins louder s s') (u : UnitId) :
    (s.unit? u).isSome = (s'.unit? u).isSome := by
  obtain ⟨hs, hs'⟩ | ⟨c, c', hs, hs', -⟩ := h.unit?_cases u
  · rw [hs, hs']
  · rw [hs, hs', Option.isSome_some, Option.isSome_some]

theorem setUnit (h : Twins louder s s') (u : UnitId) {c c' : Compilation} (hc : Twin louder c c') :
    Twins louder (s.setUnit u c) (s'.setUnit u c') where
  units w := by
    rw [unit?_setUnit, unit?_setUnit]
    split
    · obtain ⟨hs, hs'⟩ | ⟨c, c', hs, hs', -⟩ := h.unit?_cases w
      · rw [hs, hs']
        exact .none
      · rw [hs, hs']
        exact .some hc
    · exact h.units w
  sinks := h.sinks
  metrics := h.metrics
  bindings := h.bindings
  log := h.log

end Twins

/-- Work with the same outcome in twin sessions, which stay twins. -/
def Echoes (louder : Prop) (x y : SessionM α) : Prop :=
  ∀ s s', Twins louder s s' → (x.run s).1 = (y.run s').1 ∧ Twins louder (x.run s).2 (y.run s').2

namespace Echoes

theorem pure (a : α) : Echoes louder (Pure.pure a : SessionM α) (Pure.pure a) :=
  fun _ _ h => ⟨rfl, h⟩

theorem bind {x y : SessionM α} {f g : α → SessionM β} (hxy : Echoes louder x y)
    (hfg : ∀ a, Echoes louder (f a) (g a)) : Echoes louder (x >>= f) (y >>= g) := by
  intro s s' h
  obtain ⟨houtcome, hsession⟩ := hxy s s' h
  rw [run_bind, run_bind]
  rcases hx : x.run s with ⟨r, t⟩
  rcases hy : y.run s' with ⟨r', t'⟩
  rw [hx, hy] at houtcome hsession
  cases houtcome
  cases r with
  | ok a => exact hfg a t t' hsession
  | error e => exact ⟨rfl, hsession⟩

theorem ofExcept (r : Except Overflow α) :
    Echoes louder (MonadExcept.ofExcept r : SessionM α) (MonadExcept.ofExcept r) := by
  cases r with
  | ok a => exact .pure a
  | error e => exact fun _ _ h => ⟨rfl, h⟩

/-- Work that reads a compilation goes on with twins. -/
theorem getUnit_bind {k k' : Compilation → SessionM α}
    (h : ∀ c c', Twin louder c c' → Echoes louder (k c) (k' c')) :
    Echoes louder (getUnit u >>= k) (getUnit u >>= k') :=
  fun s s' hs => h _ _ (hs.unit u) s s' hs

/-- Work that asks a compilation for something other than whether its program is to be logged. -/
theorem ask {f : Compilation → α} (hf : ∀ c dumps, f { c with dumps } = f c) :
    Echoes louder (getUnit u >>= fun c => Pure.pure (f c))
      (getUnit u >>= fun c => Pure.pure (f c)) := by
  refine getUnit_bind ?_
  rintro c - ⟨dumps, rfl, -⟩
  rw [hf c dumps]
  exact pure _

theorem putUnit {c c' : Compilation} (h : Twin louder c c') :
    Echoes louder (Session.putUnit u c) (Session.putUnit u c') :=
  fun _ _ hs => ⟨rfl, hs.setUnit u h⟩

/-- Work that replaces a compilation by one with the same wish to have the program logged, and
goes on from what it read. -/
theorem update (change : Compilation → Compilation) {k k' : Compilation → SessionM α}
    (hchange : ∀ c dumps, change { c with dumps } = { change c with dumps })
    (hk : ∀ c dumps, Echoes louder (k c) (k' { c with dumps })) :
    Echoes louder (getUnit u >>= fun c => Session.putUnit u (change c) >>= fun _ => k c)
      (getUnit u >>= fun c => Session.putUnit u (change c) >>= fun _ => k' c) := by
  refine getUnit_bind ?_
  rintro c - ⟨dumps, rfl, hd⟩
  have hsame : change c = { change c with dumps := c.dumps } := hchange c c.dumps
  refine bind (putUnit ⟨dumps, hchange c dumps, fun hl hdumps => hd hl ?_⟩) fun _ => hk c dumps
  rw [hsame] at hdumps
  exact hdumps

theorem write {lines lines' : List LogLine} (h : louder → lines.Sublist lines') :
    Echoes louder (Session.write lines) (Session.write lines') :=
  fun _ _ hs => ⟨rfl, { hs with log := fun hl => (hs.log hl).append (h hl) }⟩

theorem tally (m : Metric) : Echoes louder (Session.tally m) (Session.tally m) :=
  fun _ _ hs => ⟨rfl, { hs with metrics := congrArg (·.bump m) hs.metrics }⟩

theorem getBindings : Echoes louder Session.getBindings Session.getBindings :=
  fun _ _ hs => ⟨congrArg Except.ok hs.bindings, hs⟩

theorem bindResult (name : Option Script.Operand) (t : Text) :
    Echoes louder (Session.bindResult name t) (Session.bindResult name t) :=
  fun _ _ hs => ⟨rfl, { hs with bindings := congrArg (·.bind name t) hs.bindings }⟩

theorem fresh (u : UnitId) (category : Category) :
    Echoes louder (Session.fresh u category) (Session.fresh u category) :=
  .update (·.take category) (fun _ _ => rfl) fun _ _ => .ofExcept _

theorem append (u : UnitId) (i : Instr) :
    Echoes louder (Session.append u i) (Session.append u i) :=
  .update (·.emit i) (fun _ _ => rfl) fun _ _ => .tally _

theorem report (u : UnitId) (d : Diagnostic) :
    Echoes louder (Session.report u d) (Session.report u d) := by
  refine .bind (.tally _) fun _ => .update (·.record d) (fun _ _ => rfl) fun c dumps s s' hs => ?_
  -- What the reporter passes on, and to the log too, depends on the lists alone.
  refine ⟨rfl, { hs with sinks := ?_, log := fun hl => (hs.log hl).append ?_ }⟩
  · exact congrArg (fun sinks => (c.reporter.relay d sinks).1) hs.sinks
  · rw [hs.sinks]

theorem resolve (u : UnitId) (pos : Option Position) (name : Text) (scope : Scope) :
    Echoes louder (Session.resolve u pos name scope) (Session.resolve u pos name scope) := by
  rw [resolve_eq]
  refine .update (fun c => { c with table := (c.table.lookup name scope).2 }) (fun _ _ => rfl)
    fun c dumps => ?_
  dsimp only
  generalize (c.table.lookup name scope).1 = result
  cases result with
  | ok id => exact .pure _
  | error e => exact .bind (.report u _) fun _ => .pure _

/-- A fault is built from what is bound and from what the lists hold. -/
theorem runAction_report (v v' : Verbosity) (u : UnitId) (pos : Option Script.Place)
    (cause : Script.Cause) :
    Echoes louder (runAction v u (.report pos cause)) (runAction v' u (.report pos cause)) := by
  intro s s' hs
  rw [runAction_report_run, runAction_report_run, ← hs.sinks, ← hs.bindings]
  have hmention : Twins louder { s with sinks := s.sinks.mention (cause.lists s.bindings) }
      { s' with sinks := s.sinks.mention (cause.lists s.bindings), bindings := s.bindings } :=
    { hs with sinks := rfl, bindings := rfl }
  split
  · exact pure _ _ _ hmention
  · exact bind (.report u _) (fun _ => .pure _) _ _ hmention

variable {v v' : Verbosity} (hv : louder → v ≤ v')

include hv

theorem emit (u : UnitId) (r : Request Text) :
    Echoes louder (Session.emit v u r) (Session.emit v' u r) := by
  refine .update (fun c => { c with supply := (r.build c.supply).2 }) (fun _ _ => rfl)
    fun c dumps => ?_
  refine .bind (.ofExcept (r.build c.supply).1) fun i => ?_
  refine .bind (.write fun hl => i.trace_sublist (hv hl)) fun _ => ?_
  exact .bind (.append u i) fun _ => .pure i

theorem declare (u : UnitId) (sym : Symbol) :
    Echoes louder (Session.declare v u sym) (Session.declare v' u sym) := by
  rw [declare_eq, declare_eq]
  refine .update (fun c => { c with table := (c.table.declare sym).2 }) (fun _ _ => rfl)
    fun c dumps => ?_
  refine .bind (.write fun hl => SymbolTable.declareLog_sublist (hv hl) _ _) fun _ => ?_
  generalize (c.table.declare sym).1 = result
  cases result with
  | ok id => exact .bind (.tally _) fun _ => .pure _
  | error e => exact .bind (.report u _) fun _ => .pure _

theorem onTable (u : UnitId) (op : SymbolTable.Op) :
    Echoes louder (Session.onTable v u op) (Session.onTable v' u op) := by
  refine .update (fun c => { c with table := (op.apply c.table).2 }) (fun _ _ => rfl)
    fun c dumps => ?_
  exact .bind (.write fun hl => op.log_sublist (hv hl) _) fun _ => .pure _

/-- Every action has the same outcome in twin sessions. -/
theorem runAction (u : UnitId) (a : Action) :
    Echoes louder (Session.runAction v u a) (Session.runAction v' u a) := by
  cases a with
  | declare d typePos => exact .bind .getBindings fun b => .bind (.declare hv u _) fun _ => .pure _
  | resolve pos name scope bind =>
    refine .bind .getBindings fun b => .bind (.resolve u _ _ _) fun result => ?_
    exact .bind (.bindResult bind _) fun _ => .pure _
  | emit r bind =>
    refine .bind .getBindings fun b => .bind (.emit hv u _) fun i => ?_
    cases i.dst? with
    | none => exact .pure _
    | some dst => exact .bind (.bindResult bind dst) fun _ => .pure _
  | label bind =>
    exact .bind (.fresh u .label) fun name => .bind (.bindResult bind name) fun _ => .pure _
  | report pos cause => exact .runAction_report v v' u pos cause
  | setCounters temps labels =>
    refine .bind (.getUnit_bind ?_) fun _ => .pure _
    rintro c - ⟨dumps, rfl, hd⟩
    exact .putUnit ⟨dumps, rfl, hd⟩
  | table op => exact .bind .getBindings fun b => .bind (.onTable hv u _) fun _ => .pure _
  | errors => exact .ask fun _ _ => rfl
  | finish =>
    have h : ∀ v, Session.runAction v u .finish = getUnit u >>= fun c =>
        Session.write (c.finishLog v) >>=
          fun _ => Pure.pure (.finished c.program c.errors.fault?) :=
      fun _ => rfl
    rw [h, h]
    refine .getUnit_bind fun c c' htwin => .bind (.write fun hl => ?_) fun _ => ?_
    · exact htwin.finishLog_sublist hl (hv hl)
    · obtain ⟨dumps, rfl, -⟩ := htwin
      exact .pure _
  | find kind => exact .ask fun _ _ => rfl

/-- At two levels the session hosts scripts in the same way but for the log. -/
theorem simulation : Host.Simulation (host v) (host v') (fun _ => True) (fun _ _ => True)
    (Echoes louder) where
  pure := .pure
  bind := .bind
  bindings := .getBindings
  present u _ := fun _ _ hs => ⟨congrArg Except.ok (hs.isSome_unit? u), hs⟩
  length _ _ := .ask fun _ _ => rfl
  label u _ := .fresh u .label
  emit u r _ := .bind (.emit hv u r) fun _ => .pure ()
  perform u a _ _ := .runAction hv u a
  close _ _ := .pure ()

theorem runStatement (st : Statement) :
    Echoes louder (Session.runStatement v st) (Session.runStatement v' st) := by
  rw [← host_runStatement, ← host_runStatement]
  exact (simulation hv).runStatement st (fun _ _ => trivial) fun _ _ => trivial

end Echoes

/-- What two steps show that differ at most in their logs. -/
structure Step.Twin (louder : Prop) (a b : Step) : Prop where
  /-- The answer or the overflow is the same. -/
  outcome : a.outcome = b.outcome
  /-- The louder one logged all that the other did. -/
  log : louder → a.log.Sublist b.log

variable {v v' : Verbosity} (hv : louder → v ≤ v')

include hv

/-- Twin sessions make twin steps and stay twins. -/
theorem Twins.step (h : Twins louder s s') (st : Statement) :
    Step.Twin louder (Session.step v st s).1 (Session.step v' st s').1 ∧
      Twins louder (Session.step v st s).2 (Session.step v' st s').2 := by
  have hcleared : Twins louder { s with log := [] } { s' with log := [] } :=
    { h with log := fun _ => List.Sublist.refl _ }
  obtain ⟨houtcome, hafter⟩ := Echoes.runStatement hv st _ _ hcleared
  exact ⟨⟨houtcome, hafter.log⟩, hafter⟩

/-- Twin sessions run a script in twin steps and end as twins. -/
theorem Twins.run (h : Twins louder s s') (script : List Statement) :
    List.Forall₂ (Step.Twin louder) (Session.run v script s).1 (Session.run v' script s').1 ∧
      Twins louder (Session.run v script s).2 (Session.run v' script s').2 := by
  induction script generalizing s s' with
  | nil => exact ⟨.nil, h⟩
  | cons st rest ih =>
    obtain ⟨hfirst, hafter⟩ := h.step hv st
    obtain ⟨hlater, hlast⟩ := ih hafter
    exact ⟨.cons hfirst hlater, hlast⟩

end Session

/-! ## Starting with and without wishes to have programs logged -/

/-- What came of a start, without the wish to have the program logged. -/
def Setting.Start.withoutDump (st : Setting.Start) : Setting.Start :=
  ⟨st.calls, st.outcome.map Compilation.withoutDump⟩

/-- The plan of a unit without the wishes to have its program logged. -/
def Session.UnitPlan.withoutDumps (plan : UnitPlan) : UnitPlan :=
  { plan with settings := plan.settings.filter (· ≠ .dump) }

namespace Setting

/-- Wishes to have a program logged change nothing else: neither what registries are
asked nor whether they refuse. -/
theorem withoutDump_applyAll (c : Compilation) (settings : List Setting) :
    (applyAll c settings).withoutDump =
      applyAll c.withoutDump (settings.filter (· ≠ .dump)) := by
  induction settings generalizing c with
  | nil => rfl
  | cons setting rest ih =>
    cases setting with
    | scripted answers =>
      have hscripted : (rest.filter (· ≠ .dump)).filter isScripted = rest.filter isScripted := by
        rw [List.filter_filter]
        refine List.filter_congr fun setting _ => ?_
        cases setting <;> rfl
      rw [List.filter_cons_of_pos (by simp), applyAll, applyAll]
      split
      · rw [hscripted]
        rfl
      · rw [← ih]
        rfl
    | dump =>
      rw [List.filter_cons_of_neg (by simp)]
      exact ih (dump.apply c)
    | limit n =>
      rw [List.filter_cons_of_pos (by simp)]
      exact ih ((limit n).apply c)
    | reporter r =>
      rw [List.filter_cons_of_pos (by simp)]
      exact ih ((reporter r).apply c)
    | registry =>
      rw [List.filter_cons_of_pos (by simp)]
      exact ih c

theorem flatMap_lists_withoutDumps (settings : List Setting) :
    (settings.filter (· ≠ .dump)).flatMap lists = settings.flatMap lists := by
  induction settings with
  | nil => rfl
  | cons setting rest ih =>
    by_cases h : setting = .dump
    · subst h
      rw [List.filter_cons_of_neg (by simp), ih]
      rfl
    · rw [List.filter_cons_of_pos (by simpa using h), List.flatMap_cons, List.flatMap_cons, ih]

end Setting

namespace Session

variable {louder : Prop} {plans plans' : List UnitPlan}

theorem withoutDump_start (plan : UnitPlan) :
    (Compilation.start plan.name plan.settings).withoutDump =
    Compilation.start plan.withoutDumps.name plan.withoutDumps.settings :=
  Setting.withoutDump_applyAll _ _

theorem map_withoutDump_start (plans : List UnitPlan) :
    (start plans).1.map Setting.Start.withoutDump =
      (start (plans.map UnitPlan.withoutDumps)).1 := by
  simp only [start, List.map_map]
  exact List.map_congr_left fun plan _ => withoutDump_start plan

theorem start_sinks_withoutDumps (plans : List UnitPlan) :
    (start (plans.map UnitPlan.withoutDumps)).2.sinks = (start plans).2.sinks := by
  simp only [start, List.flatMap_map, UnitPlan.withoutDumps, Setting.flatMap_lists_withoutDumps]

/-- In the second plans every unit has the wish to have its program logged if it
has it in the first ones. -/
def DumpsAlso (plans plans' : List UnitPlan) : Prop :=
  ∀ (u : UnitId) (plan plan' : UnitPlan), plans[u]? = some plan → plans'[u]? = some plan' →
    .dump ∈ plan.settings → .dump ∈ plan'.settings

theorem dumps_of_start {name : Text} {settings : List Setting} {c : Compilation}
    (h : (Compilation.start name settings).outcome = .ok c) :
    c.dumps = true ↔ .dump ∈ settings := by
  rw [Setting.applyAll_eq_ok h, Bool.false_or, List.contains_iff_mem]

/-- Plans that differ at most in the wish to have the program logged start
twins, or are both refused. -/
theorem twin_of_start {plan plan' : UnitPlan} (h : plan.withoutDumps = plan'.withoutDumps)
    (hdumps : louder → .dump ∈ plan.settings → .dump ∈ plan'.settings) :
    Option.Rel (Twin louder) (Compilation.start plan.name plan.settings).outcome.toOption
      (Compilation.start plan'.name plan'.settings).outcome.toOption := by
  have hstart : (Compilation.start plan.name plan.settings).withoutDump =
      (Compilation.start plan'.name plan'.settings).withoutDump := by
    rw [withoutDump_start, withoutDump_start, h]
  have houtcome : (Compilation.start plan.name plan.settings).outcome.map Compilation.withoutDump =
      (Compilation.start plan'.name plan'.settings).outcome.map Compilation.withoutDump :=
    congrArg Setting.Start.outcome hstart
  cases hc : (Compilation.start plan.name plan.settings).outcome with
  | error e =>
    cases hc' : (Compilation.start plan'.name plan'.settings).outcome with
    | error e' => exact .none
    | ok c' =>
      rw [hc, hc'] at houtcome
      cases houtcome
  | ok c =>
    cases hc' : (Compilation.start plan'.name plan'.settings).outcome with
    | error e' =>
      rw [hc, hc'] at houtcome
      cases houtcome
    | ok c' =>
      rw [hc, hc'] at houtcome
      refine .some (twin_of_withoutDump_eq (Except.ok.inj houtcome) fun hl => ?_)
      rw [dumps_of_start hc, dumps_of_start hc']
      exact hdumps hl

/-- Plans that differ at most in wishes to have programs logged start twin sessions. -/
theorem twins_start (h : plans.map UnitPlan.withoutDumps = plans'.map UnitPlan.withoutDumps)
    (hdumps : louder → DumpsAlso plans plans') : Twins louder (start plans).2 (start plans').2 where
  units u := by
    have hu : plans[u]?.map UnitPlan.withoutDumps = plans'[u]?.map UnitPlan.withoutDumps := by
      rw [← List.getElem?_map, h, List.getElem?_map]
    rw [unit?_start, unit?_start]
    cases hplan : plans[u]? with
    | none =>
      rw [hplan, Option.map_none, eq_comm, Option.map_eq_none_iff] at hu
      rw [hu]
      exact .none
    | some plan =>
      rw [hplan, Option.map_some, eq_comm, Option.map_eq_some_iff] at hu
      obtain ⟨plan', hplan', heq⟩ := hu
      rw [hplan', Option.bind_some, Option.bind_some]
      exact twin_of_start heq.symm fun hl => hdumps hl u plan plan' hplan hplan'
  sinks := by rw [← start_sinks_withoutDumps, h, start_sinks_withoutDumps]
  metrics := rfl
  bindings := rfl
  log _ := List.Sublist.refl _

end Session

open Session (DumpsAlso SameButLog Step UnitPlan)

/-- Let one script run at two levels of verbosity, with plans that differ at most in which units
are to log their programs. The units start or are refused alike, every statement has the same
answer or ends by the same overflow, and the sessions after the script differ at most in what they
log. If the second level is not the lower one and no unit loses the wish to have its program
logged, every step of the second run logs the lines of the same step of the first, in their order,
and perhaps others between them. -/
theorem logging_only_observes (v v' : Verbosity) (plans plans' : List UnitPlan)
    (script : List Statement)
    (h : plans.map UnitPlan.withoutDumps = plans'.map UnitPlan.withoutDumps) :
    (Session.start plans).1.map Setting.Start.withoutDump =
        (Session.start plans').1.map Setting.Start.withoutDump ∧
      (Session.run v script (Session.start plans).2).1.map Step.outcome =
        (Session.run v' script (Session.start plans').2).1.map Step.outcome ∧
      SameButLog (Session.run v script (Session.start plans).2).2
        (Session.run v' script (Session.start plans').2).2 ∧
      (v ≤ v' → DumpsAlso plans plans' →
        List.Forall₂ (fun first second => first.log.Sublist second.log)
          (Session.run v script (Session.start plans).2).1
          (Session.run v' script (Session.start plans').2).1) := by
  have hstart : Session.Twins False (Session.start plans).2 (Session.start plans').2 :=
    Session.twins_start h False.elim
  have hv : False → v ≤ v' := False.elim
  obtain ⟨hsteps, hlast⟩ := hstart.run hv script
  refine ⟨?_, ?_, hlast.sameButLog, fun hv hdumps => ?_⟩
  · rw [Session.map_withoutDump_start, h, Session.map_withoutDump_start]
  · rw [← List.forall₂_eq_eq_eq, List.forall₂_map_left_iff, List.forall₂_map_right_iff]
    exact hsteps.imp fun _ _ htwin => htwin.outcome
  · have hlouder : Session.Twins True (Session.start plans).2 (Session.start plans').2 :=
      Session.twins_start h fun _ => hdumps
    exact (hlouder.run (fun _ => hv) script).1.imp fun _ _ htwin => htwin.log trivial

/-- A unit whose diagnostics go to the log, and one that is refused. -/
def quietPlans : List UnitPlan :=
  [⟨"main", [.reporter [.log]]⟩, ⟨"late", [.scripted [.refused "closed"]]⟩]

/-- The same units, both with the wish to have their programs logged. -/
def loudPlans : List UnitPlan :=
  [⟨"main", [.dump, .reporter [.log], .dump]⟩, ⟨"late", [.scripted [.refused "closed"], .dump]⟩]

/-- A declaration, a conditional in which a name is missing and no temporary is left,
and an end for both units. -/
def noisyScript : List Statement :=
  [.act 0 (.declare ⟨.literal "x", .literal "int", 0, none⟩ none),
    .ifThen 0 ⟨.literal "x", .literal "<", .literal "y"⟩
      [.act 0 (.resolve none (.literal "y") 0 none),
        .act 0 (.setCounters Int64.maxValue 0),
        .act 0 (.emit (.binary (.literal "x") (.literal "+") (.literal "y")) none)],
    .act 0 .finish,
    .act 1 .finish]

/-- At level 0 only the warning is logged; at level 2, and with the program, there are five lines
more, and all else is the same, the overflow of the conditional too. -/
theorem noisyScript_only_observed :
    (Session.run 0 noisyScript (Session.start quietPlans).2).1.map (·.outcome.isOk) =
      [true, false, true, true] ∧
    (Session.run 0 noisyScript (Session.start quietPlans).2).1.map (·.log.length) = [0, 1, 0, 0] ∧
    (Session.run 2 noisyScript (Session.start loudPlans).2).1.map (·.log.length) = [1, 3, 2, 0] ∧
    (Session.run 0 noisyScript (Session.start quietPlans).2).1.map Step.outcome =
      (Session.run 2 noisyScript (Session.start loudPlans).2).1.map Step.outcome ∧
    SameButLog (Session.run 0 noisyScript (Session.start quietPlans).2).2
      (Session.run 2 noisyScript (Session.start loudPlans).2).2 ∧
    List.Forall₂ (fun first second => first.log.Sublist second.log)
      (Session.run 0 noisyScript (Session.start quietPlans).2).1
      (Session.run 2 noisyScript (Session.start loudPlans).2).1 := by
  have hquiet : ∀ plan ∈ quietPlans, Setting.dump ∉ plan.settings := by decide
  have hdumps : DumpsAlso quietPlans loudPlans := fun u plan _ hplan _ hmem =>
    absurd hmem (hquiet plan (List.mem_of_getElem? hplan))
  obtain ⟨-, houtcomes, hsame, hlogs⟩ :=
    logging_only_observes 0 2 quietPlans loudPlans noisyScript (by rfl)
  exact ⟨by decide +kernel, by decide +kernel, by decide +kernel, houtcomes, hsame,
    hlogs (by decide) hdumps⟩

end ThreeAddress
