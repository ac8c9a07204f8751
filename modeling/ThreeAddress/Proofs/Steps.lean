import ThreeAddress.Proofs.Effects
import ThreeAddress.Proofs.Tables

/-!
# What single steps do to a session

For each single step on a unit with a compilation, and for each way in which it can end, its outcome
and the whole session after it. For actions these are the cases of one relation,
`Session.Performed`, in which every action that runs stands.
-/

namespace ThreeAddress

open Script (Action Bindings Cause Declaration Operand Place TableOp UnitId)

/-- Naming lists changes nothing in them. -/
theorem Sinks.get_mention (s : Sinks) (names : List Text) (name : Text) :
    (s.mention names).get name = s.get name := by
  rw [mention]
  induction names generalizing s with
  | nil => rfl
  | cons first rest ih =>
    rw [List.foldl_cons, ih, get_modify, id, ite_self]

/-- The fault that a cause stands for depends on what the lists hold. -/
theorem Script.Cause.build?_congr {s s' : Sinks} (h : ∀ name, s.get name = s'.get name)
    (b : Bindings) (cause : Cause) : cause.build? b s = cause.build? b s' := by
  induction cause with
  | wrapped m cause ih => rw [build?, build?, ih]
  | snapshot list => rw [build?, build?, h]
  | _ => rfl

/-- The symbol that an action declares: its place covers the name and the type. -/
def Script.Declaration.spanned (d : Declaration) (b : Bindings) (typePos : Option Place) : Symbol :=
  { d.read b with pos := Position.merge (d.read b).pos (typePos.map (·.read b)) }

namespace Setting

/-- The reporter that a setting brings. -/
def reporter? : Setting → Option Reporter
  | .reporter r => some r
  | _ => none

/-- The reporter that counts: the last one. -/
def lastReporter (settings : List Setting) : Reporter := (settings.filterMap reporter?).getLastD []

/-- The limit that a setting brings. -/
def limit? : Setting → Option Int64
  | .limit n => some n
  | _ => none

/-- Settings change the limit of the table and the reporter, of which the last ones count, and
whether the program is logged, for which one wish is enough. -/
theorem applyAll_eq_ok {c c' : Compilation} {settings : List Setting}
    (h : (applyAll c settings).outcome = .ok c') :
    c' = { c with
      table := { c.table with limit := (settings.filterMap limit?).getLastD c.table.limit }
      reporter := (settings.filterMap reporter?).getLastD c.reporter
      dumps := c.dumps || settings.contains .dump } := by
  induction settings generalizing c with
  | nil =>
    rw [← Except.ok.inj h, List.contains_nil, Bool.or_false]
    rfl
  | cons setting rest ih =>
    cases setting with
    | scripted answers =>
      rw [applyAll] at h
      split at h
      · cases h
      · exact ih h
    | limit n =>
      have hlast : ((limit n :: rest).filterMap limit?).getLastD c.table.limit =
          (rest.filterMap limit?).getLastD n := by
        simp only [List.filterMap_cons, limit?, List.getLastD_cons]
      rw [hlast]
      exact ih (c := (limit n).apply c) h
    | dump =>
      have hdumps : (c.dumps || (dump :: rest).contains dump) = true := by simp
      rw [hdumps]
      exact ih (c := dump.apply c) h
    | registry => exact ih (c := registry.apply c) h
    | reporter r =>
      have hlast : ((reporter r :: rest).filterMap reporter?).getLastD c.reporter =
          (rest.filterMap reporter?).getLastD r := by
        simp only [List.filterMap_cons, reporter?, List.getLastD_cons]
      rw [hlast]
      exact ih (c := (reporter r).apply c) h

end Setting

namespace Session

/-- A unit has the compilation that its plan gave, if that could be started. -/
theorem unit?_start (plans : List UnitPlan) (u : UnitId) :
    (start plans).2.unit? u = plans[u]?.bind fun plan =>
      (Compilation.start plan.name plan.settings).outcome.toOption := by
  have hunits : (start plans).2.units[u]? = plans[u]?.map fun plan =>
      (Compilation.start plan.name plan.settings).outcome.toOption := by
    simp [start, Function.comp_def]
  rw [unit?, hunits]
  cases plans[u]? <;> rfl

/-- Every unit of a session that starts has nothing done yet; of the limits and reporters set
for it the last ones count. -/
theorem start_unit {plans : List UnitPlan} {u : UnitId} {c : Compilation}
    (h : (start plans).2.unit? u = some c) :
    ∃ plan, plans[u]? = some plan ∧ c.program = [] ∧ c.errors = [] ∧
      c.table = .withLimits (plan.settings.filterMap Setting.limit?) ∧
      c.reporter = Setting.lastReporter plan.settings := by
  rw [unit?_start, Option.bind_eq_some_iff] at h
  obtain ⟨plan, hplan, h⟩ := h
  cases houtcome : (Compilation.start plan.name plan.settings).outcome with
  | error e =>
    rw [houtcome] at h
    cases h
  | ok c₀ =>
    rw [houtcome] at h
    cases h
    obtain rfl := Setting.applyAll_eq_ok houtcome
    exact ⟨plan, hplan, rfl, rfl, rfl, rfl⟩

theorem start_sinks (plans : List UnitPlan) (name : Text) : (start plans).2.sinks.get name = [] :=
  Sinks.get_mention {} _ name

variable {s : Session} {u : UnitId} {c : Compilation}

/-- A unit keeps its compilation when that is put back. -/
theorem setUnit_self (h : s.unit? u = some c) : s.setUnit u c = s := by
  have hunits : s.units.modify u (·.map fun _ => c) = s.units := by
    refine List.ext_getElem? fun w => ?_
    rw [List.getElem?_modify]
    by_cases hw : u = w
    · subst hw
      cases hget : s.units[u]? with
      | none => simp
      | some unit =>
        have hunit : unit = some c := by simpa [unit?, hget] using h
        simp [hunit]
    · simp [hw]
  rw [setUnit, hunits]

/-- Of two compilations put for a unit the second stays. -/
theorem setUnit_setUnit (s : Session) (u : UnitId) (c c' : Compilation) :
    (s.setUnit u c).setUnit u c' = s.setUnit u c' := by
  have hmap : (Option.map fun _ => c') ∘ (Option.map fun _ => c) =
      Option.map fun _ : Compilation => c' := by
    funext unit
    cases unit <;> rfl
  simp only [setUnit, List.modify_modify_eq, hmap]

theorem unit_setUnit_self (h : s.unit? u = some c) (c' : Compilation) :
    (s.setUnit u c').unit u = c' := by
  rw [unit, unit?_setUnit, if_pos rfl, h, Option.map_some, Option.getD_some]

/-- After a change of one compilation the others are as they were. -/
theorem unit?_of_units {s' : Session} {c' : Compilation} (h : s.unit? u = some c)
    (hunits : s'.units = (s.setUnit u c').units) (w : UnitId) :
    s'.unit? w = if u = w then some c' else s.unit? w := by
  have hsame : s'.unit? w = (s.setUnit u c').unit? w := by rw [unit?, unit?, hunits]
  rw [hsame, unit?_setUnit]
  split
  · rename_i hw
    rw [← hw, h, Option.map_some]
  · rfl

/-- The session after a diagnostic of a unit was reported. -/
def reported (s : Session) (u : UnitId) (c : Compilation) (d : Diagnostic) : Session :=
  { s.setUnit u (c.record d) with
    metrics := s.metrics.bump (.diagnostics d.value.classify)
    sinks := (c.reporter.relay d s.sinks).1
    log := s.log ++ (c.reporter.relay d s.sinks).2 }

theorem report_run (h : s.unit? u = some c) (d : Diagnostic) :
    (report u d).run s = (.ok (), s.reported u c d) := by
  obtain rfl := unit_of_unit? h
  rfl

theorem fresh_run (h : s.unit? u = some c) (category : Category) :
    (fresh u category).run s = ((c.supply.fresh category).1, s.setUnit u (c.take category)) := by
  obtain rfl := unit_of_unit? h
  have hrun : (fresh u category).run s =
      (do
        putUnit u ((s.unit u).take category)
        ofExcept ((s.unit u).supply.fresh category).1 : SessionM Text).run s := rfl
  rw [hrun]
  cases ((s.unit u).supply.fresh category).1 <;> rfl

/-- A request that cannot be met. -/
theorem emit_run_error (v : Verbosity) (h : s.unit? u = some c) {r : Request Text} {e : Overflow}
    {supply : NameSupply} (hbuild : r.build c.supply = (.error e, supply)) :
    (emit v u r).run s = (.error e, s.setUnit u { c with supply }) := by
  obtain rfl := unit_of_unit? h
  have hrun : (emit v u r).run s =
      (do
        putUnit u { s.unit u with supply := (r.build (s.unit u).supply).2 }
        let i ← ofExcept (r.build (s.unit u).supply).1
        write (i.trace v)
        append u i
        return i : SessionM Instr).run s := rfl
  rw [hrun, hbuild]
  rfl

/-- The session after an instruction was emitted. -/
def emittedTo (s : Session) (v : Verbosity) (u : UnitId) (c : Compilation) (i : Instr) : Session :=
  { s.setUnit u (c.emit i) with
    metrics := s.metrics.bump (.instructions i.kind)
    log := s.log ++ i.trace v }

/-- A request that is met. -/
theorem emit_run_ok (v : Verbosity) (h : s.unit? u = some c) {r : Request Text} {i : Instr}
    {supply : NameSupply} (hbuild : r.build c.supply = (.ok i, supply)) :
    (emit v u r).run s = (.ok i, s.emittedTo v u { c with supply } i) := by
  have hput := unit_setUnit_self h { c with supply }
  obtain rfl := unit_of_unit? h
  have hrun : (emit v u r).run s =
      (do
        putUnit u { s.unit u with supply := (r.build (s.unit u).supply).2 }
        let i ← ofExcept (r.build (s.unit u).supply).1
        write (i.trace v)
        append u i
        return i : SessionM Instr).run s := rfl
  rw [hrun, hbuild]
  -- The instruction is appended to the compilation as it is after the supply was replaced.
  have happend : ∀ t : Session,
      (do write (i.trace v); append u i; return i : SessionM Instr).run t =
        (.ok i, { t.setUnit u ((t.unit u).emit i) with
          metrics := t.metrics.bump (.instructions i.kind)
          log := t.log ++ i.trace v }) := fun _ => rfl
  have hboth := happend (s.setUnit u { s.unit u with supply })
  rw [hput, setUnit_setUnit] at hboth
  exact hboth

theorem getBindings_bind_run {α : Type} (f : Bindings → SessionM α) (s : Session) :
    (getBindings >>= f).run s = (f s.bindings).run s := rfl

theorem write_nil (s : Session) : (write []).run s = (.ok (), s) := by
  have hrun : (write []).run s = (.ok (), { s with log := s.log ++ [] }) := rfl
  rw [hrun, List.append_nil]

/-- After a declaration was tried, the table is put back and what came of it is told. -/
theorem declare_run (v : Verbosity) (h : s.unit? u = some c) (sym : Symbol) :
    (declare v u sym).run s =
      (do
        write (SymbolTable.declareLog v sym (c.table.declare sym).1)
        match (c.table.declare sym).1 with
        | .ok _ => tally .symbolsDeclared
        | .error e => report u ⟨sym.pos, .symbol e⟩
        return (c.table.declare sym).1 : SessionM (Except SymbolError Nat)).run
          (s.setUnit u { c with table := (c.table.declare sym).2 }) := by
  obtain rfl := unit_of_unit? h
  rfl

/-- A symbol that could be declared. -/
theorem declare_run_ok (v : Verbosity) (h : s.unit? u = some c) {sym : Symbol} {id : Nat}
    (hdeclare : (c.table.declare sym).1 = .ok id) :
    (declare v u sym).run s = (.ok (.ok id), { s.setUnit u { c with table := c.table.push sym } with
      metrics := s.metrics.bump .symbolsDeclared
      log := s.log ++ SymbolTable.declareLog v sym (.ok id) }) := by
  rw [declare_run v h, hdeclare, (SymbolTable.declare_eq_ok hdeclare).2]
  rfl

/-- A symbol that could not be declared. -/
theorem declare_run_error (v : Verbosity) (h : s.unit? u = some c) {sym : Symbol} {e : SymbolError}
    (hdeclare : (c.table.declare sym).1 = .error e) :
    (declare v u sym).run s = (.ok (.error e), s.reported u c ⟨sym.pos, .symbol e⟩) := by
  have hwrite : (write (SymbolTable.declareLog v sym (.error e))).run s = (.ok (), s) := write_nil s
  rw [declare_run v h, hdeclare, SymbolTable.declare_eq_error hdeclare, setUnit_self h,
    run_bind, hwrite]
  dsimp only
  rw [run_bind, report_run h]
  rfl

/-- After a look-up, the table is put back and what came of it is told. -/
theorem resolve_run (h : s.unit? u = some c) (pos : Option Position) (name : Text) (scope : Scope) :
    (resolve u pos name scope).run s =
      (match (c.table.lookup name scope).1 with
        | .ok id => return .ok (((c.table.lookup name scope).2.symbol? id).getD {}).name
        | .error e => do
          report u ⟨pos, .symbol e⟩
          return .error e : SessionM (Except SymbolError Text)).run
          (s.setUnit u { c with table := (c.table.lookup name scope).2 }) := by
  obtain rfl := unit_of_unit? h
  rfl

/-- A name that stands for a symbol. -/
theorem resolve_run_ok (h : s.unit? u = some c) (pos : Option Position) {name : Text}
    {scope : Scope} {id : Nat} (hfind : c.table.find? name scope = some id) :
    (resolve u pos name scope).run s =
      (.ok (.ok ((c.table.symbol? id).getD {}).name),
        s.setUnit u { c with table := c.table.mark id }) := by
  have hlookup : c.table.lookup name scope = (.ok id, c.table.mark id) := by
    rw [SymbolTable.lookup, hfind]
  rw [resolve_run h, hlookup]
  rfl

/-- A name that stands for nothing. -/
theorem resolve_run_error (h : s.unit? u = some c) (pos : Option Position) {name : Text}
    {scope : Scope} (hfind : c.table.find? name scope = none) :
    (resolve u pos name scope).run s = (.ok (.error (.notFound name scope)),
      s.reported u c ⟨pos, .symbol (.notFound name scope)⟩) := by
  have hlookup : c.table.lookup name scope = (.error (.notFound name scope), c.table) := by
    rw [SymbolTable.lookup, hfind]
  rw [resolve_run h, hlookup, setUnit_self h]
  dsimp only
  rw [run_bind, report_run h]
  rfl

theorem onTable_run (v : Verbosity) (h : s.unit? u = some c) (op : SymbolTable.Op) :
    (onTable v u op).run s = (.ok (op.apply c.table).1,
      { s.setUnit u { c with table := (op.apply c.table).2 } with
        log := s.log ++ op.log v (op.apply c.table).1 }) := by
  obtain rfl := unit_of_unit? h
  rfl

/-- What an action on a unit can give and make of the session. Besides their bindings,
actions change the compilation of their unit, count at most one thing, add to the log and
pass on at most one diagnostic. -/
inductive Performed (v : Verbosity) (u : UnitId) (c : Compilation) (s : Session) :
    Action → Except Overflow Result → Session → Prop where
  /-- A symbol was declared. -/
  | declared (d : Declaration) (typePos : Option Place) (id : Nat)
      (h : (c.table.declare (d.spanned s.bindings typePos)).1 = .ok id) :
      Performed v u c s (.declare d typePos) (.ok (.declared (.ok id)))
        { s.setUnit u { c with table := c.table.push (d.spanned s.bindings typePos) } with
          metrics := s.metrics.bump .symbolsDeclared
          log := s.log ++ SymbolTable.declareLog v (d.spanned s.bindings typePos) (.ok id) }
  /-- A symbol could not be declared. -/
  | refused (d : Declaration) (typePos : Option Place) (e : SymbolError)
      (h : (c.table.declare (d.spanned s.bindings typePos)).1 = .error e) :
      Performed v u c s (.declare d typePos) (.ok (.declared (.error e)))
        (s.reported u c ⟨(d.spanned s.bindings typePos).pos, .symbol e⟩)
  /-- A name stands for a symbol. -/
  | resolved (pos : Option Place) (name : Operand) (scope : Scope)
    (bind : Option Operand) (id : Nat)
      (h : c.table.find? (name.read s.bindings) scope = some id) :
      Performed v u c s (.resolve pos name scope bind)
        (.ok (.resolved (.ok ((c.table.symbol? id).getD {}).name)))
        { s.setUnit u { c with table := c.table.mark id } with
          bindings := s.bindings.bind bind ((c.table.symbol? id).getD {}).name }
  /-- A name stands for nothing. -/
  | missed (pos : Option Place) (name : Operand) (scope : Scope) (bind : Option Operand)
      (h : c.table.find? (name.read s.bindings) scope = none) :
      Performed v u c s (.resolve pos name scope bind)
        (.ok (.resolved (.error (.notFound (name.read s.bindings) scope))))
        { s.reported u c ⟨pos.map (·.read s.bindings),
            .symbol (.notFound (name.read s.bindings) scope)⟩ with
          bindings := s.bindings.bind bind [] }
  /-- An instruction was emitted. -/
  | emitted (r : Request Operand) (bind : Option Operand) (i : Instr) (supply : NameSupply)
      (h : (r.map (·.read s.bindings)).build c.supply = (.ok i, supply)) :
      Performed v u c s (.emit r bind) (.ok (emitted i))
        { s.emittedTo v u { c with supply } i with bindings := boundResult s.bindings bind i }
  /-- There was no temporary for the result of an instruction. -/
  | exhausted (r : Request Operand) (bind : Option Operand) (e : Overflow) (supply : NameSupply)
      (h : (r.map (·.read s.bindings)).build c.supply = (.error e, supply)) :
      Performed v u c s (.emit r bind) (.error e) (s.setUnit u { c with supply })
  /-- A label was taken. -/
  | labelled (bind : Option Operand) (name : Text) (h : (c.supply.fresh .label).1 = .ok name) :
      Performed v u c s (.label bind) (.ok (.label name))
        { s.setUnit u (c.take .label) with bindings := s.bindings.bind bind name }
  /-- There was no label left. -/
  | unlabelled (bind : Option Operand) (e : Overflow) (h : (c.supply.fresh .label).1 = .error e) :
      Performed v u c s (.label bind) (.error e) (s.setUnit u (c.take .label))
  /-- A fault was reported. -/
  | reported (pos : Option Place) (cause : Cause) (f : Fault)
      (h : cause.build? s.bindings s.sinks = some f) :
      Performed v u c s (.report pos cause) (.ok .done)
        (reported { s with sinks := s.sinks.mention (cause.lists s.bindings) } u c
          ⟨pos.map (·.read s.bindings), f⟩)
  /-- There was no fault to report. -/
  | unreported (pos : Option Place) (cause : Cause) (h : cause.build? s.bindings s.sinks = none) :
      Performed v u c s (.report pos cause) (.ok .done)
        { s with sinks := s.sinks.mention (cause.lists s.bindings) }
  /-- The counters were set. -/
  | counters (temps labels : Int64) :
      Performed v u c s (.setCounters temps labels) (.ok .done)
        (s.setUnit u { c with supply := ⟨temps, labels⟩ })
  /-- The table was worked on directly. -/
  | table (op : TableOp) :
      Performed v u c s (.table op) (.ok (.table ((op.read s.bindings).apply c.table).1))
        { s.setUnit u { c with table := ((op.read s.bindings).apply c.table).2 } with
          log := s.log ++ (op.read s.bindings).log v ((op.read s.bindings).apply c.table).1 }
  /-- The diagnostics were asked for. -/
  | errors : Performed v u c s .errors (.ok (.errors c.errors.fault?)) s
  /-- The compilation was ended. -/
  | finished : Performed v u c s .finish (.ok (.finished c.program c.errors.fault?))
      { s with log := s.log ++ c.finishLog v }
  /-- A node was looked for among the diagnostics. -/
  | found (kind : FaultKind) :
      Performed v u c s (.find kind) (.ok (.found (c.errors.fault?.bind (·.find? kind)))) s

/-- After a look-up its result is bound. -/
theorem runAction_resolve (v : Verbosity) (u : UnitId) (pos : Option Place) (name : Operand)
    (scope : Scope) (bind : Option Operand) :
    runAction v u (.resolve pos name scope bind) = getBindings >>= fun b =>
      resolve u (pos.map (·.read b)) (name.read b) scope >>= fun result => do
        bindResult bind (match result with
          | .ok operand => operand
          | .error _ => [])
        return .resolved result := rfl

/-- After an instruction was emitted its destination is bound, if it has one. -/
theorem runAction_emit (v : Verbosity) (u : UnitId) (r : Request Operand) (bind : Option Operand) :
    runAction v u (.emit r bind) = getBindings >>= fun b =>
      emit v u (r.map (·.read b)) >>= fun i => match i.dst? with
        | none => return .done
        | some dst => do
          bindResult bind dst
          return .temp dst := rfl

/-- A fault is built and reported after the lists that it names were mentioned. -/
theorem runAction_report_run (v : Verbosity) (u : UnitId) (pos : Option Place) (cause : Cause)
    (s : Session) :
    (runAction v u (.report pos cause)).run s =
      (match cause.build? s.bindings (s.sinks.mention (cause.lists s.bindings)) with
        | none => return .done
        | some f => do
          report u ⟨pos.map (·.read s.bindings), f⟩
          return .done : SessionM Result).run
        { s with sinks := s.sinks.mention (cause.lists s.bindings) } := rfl

/-- Every action does one of these. -/
theorem performed_runAction (v : Verbosity) (h : s.unit? u = some c) (a : Action) :
    Performed v u c s a ((runAction v u a).run s).1 ((runAction v u a).run s).2 := by
  cases a with
  | declare d typePos =>
    have hrun : runAction v u (.declare d typePos) = getBindings >>= fun b =>
        declare v u (d.spanned b typePos) >>= fun r => pure (.declared r) := rfl
    rw [hrun, getBindings_bind_run, run_bind]
    cases hresult : (c.table.declare (d.spanned s.bindings typePos)).1 with
    | ok id =>
      rw [declare_run_ok v h hresult]
      exact .declared d typePos id hresult
    | error e =>
      rw [declare_run_error v h hresult]
      exact .refused d typePos e hresult
  | resolve pos name scope bind =>
    rw [runAction_resolve, getBindings_bind_run, run_bind]
    cases hfind : c.table.find? (name.read s.bindings) scope with
    | some id =>
      rw [resolve_run_ok h _ hfind]
      exact .resolved pos name scope bind id hfind
    | none =>
      rw [resolve_run_error h _ hfind]
      exact .missed pos name scope bind hfind
  | emit r bind =>
    rw [runAction_emit, getBindings_bind_run, run_bind]
    rcases hbuild : (r.map (·.read s.bindings)).build c.supply with ⟨made, supply⟩
    cases made with
    | error e =>
      rw [emit_run_error v h hbuild]
      exact .exhausted r bind e supply hbuild
    | ok i =>
      have hemitted := Performed.emitted (v := v) (u := u) r bind i supply hbuild
      rw [emit_run_ok v h hbuild]
      dsimp only
      rw [Session.emitted, boundResult] at hemitted
      cases hdst : i.dst? with
      | none =>
        rw [hdst] at hemitted
        exact hemitted
      | some dst =>
        rw [hdst] at hemitted
        exact hemitted
  | label bind =>
    have hrun : runAction v u (.label bind) = fresh u .label >>= fun name => do
        bindResult bind name
        return .label name := rfl
    rw [hrun, run_bind, fresh_run h]
    cases hname : (c.supply.fresh .label).1 with
    | ok name => exact .labelled bind name hname
    | error e => exact .unlabelled bind e hname
  | report pos cause =>
    have hbuild : cause.build? s.bindings (s.sinks.mention (cause.lists s.bindings)) =
        cause.build? s.bindings s.sinks :=
      Cause.build?_congr (fun name => s.sinks.get_mention _ name) _ _
    rw [runAction_report_run, hbuild]
    cases hfault : cause.build? s.bindings s.sinks with
    | none => exact .unreported pos cause hfault
    | some f =>
      have hunit : Session.unit? { s with sinks := s.sinks.mention (cause.lists s.bindings) } u =
          some c := h
      dsimp only
      rw [run_bind, report_run hunit]
      exact .reported pos cause f hfault
  | setCounters temps labels =>
    obtain rfl := unit_of_unit? h
    exact .counters temps labels
  | table op =>
    have hrun : runAction v u (.table op) = getBindings >>= fun b =>
        onTable v u (op.read b) >>= fun answer => pure (.table answer) := rfl
    rw [hrun, getBindings_bind_run, run_bind, onTable_run v h]
    exact .table op
  | errors =>
    obtain rfl := unit_of_unit? h
    exact .errors
  | finish =>
    obtain rfl := unit_of_unit? h
    exact .finished
  | find kind =>
    obtain rfl := unit_of_unit? h
    exact .found kind

end Session

end ThreeAddress
