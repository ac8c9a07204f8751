import Mathlib.Algebra.BigOperators.Group.List.Basic
import Mathlib.Algebra.GroupWithZero.Nat
import ThreeAddress.Proofs.Journal

/-!
# Metrics agree with what the units hold

What is counted over a whole session is also there to be counted afterwards: instructions in the
programs, diagnostics in the lists and symbols in the tables of its units. Every single step keeps
the two counts in step, except that symbols declared directly in a table are not counted. Main
statement: after every script, also one in which statements were ended by an overflow, metrics are
the sums over all units, less the symbols declared directly.
-/

namespace ThreeAddress

open Script (Action Statement UnitId)

/-- How many of the things that a metric counts a compilation holds. -/
def Compilation.amount (m : Metric) (c : Compilation) : Nat :=
  match m with
  | .symbolsDeclared => c.table.size
  | .instructions k => c.program.count k
  | .diagnostics d => c.errors.countP fun e => e.value.classify = d

/-- The sum of a number over all compilations of a session. -/
def Session.total (s : Session) (f : Compilation → Nat) : Nat :=
  (s.units.map fun unit => (unit.map f).getD 0).sum

/-- Whether an action declared a symbol, and did so directly in the table. -/
def Deed.declaresDirectly (deed : Deed) : Bool :=
  match deed.action, deed.outcome with
  | .table (.declare _), .ok (.table (.id (.ok _))) => true
  | _, _ => false

/-- What a session and the actions performed in it account for: the things counted, and the
symbols declared directly. -/
def Journal.accounted (m : Metric) (χ : Journal) : Nat :=
  χ.session.metrics.count m +
    if m = .symbolsDeclared then χ.deeds.countP Deed.declaresDirectly else 0

namespace Compilation

theorem amount_emit (m : Metric) (c : Compilation) (i : Instr) :
    (c.emit i).amount m = c.amount m + if .instructions i.kind = m then 1 else 0 := by
  cases m with
  | symbolsDeclared => rfl
  | instructions k => simp [amount, emit, Program.count, List.countP_append, List.countP_singleton]
  | diagnostics d => rfl

theorem amount_record (m : Metric) (c : Compilation) (d : Diagnostic) :
    (c.record d).amount m = c.amount m + if .diagnostics d.value.classify = m then 1 else 0 := by
  cases m with
  | symbolsDeclared => rfl
  | instructions k => rfl
  | diagnostics e => simp [amount, record, List.countP_append, List.countP_singleton]

/-- A compilation holds one more symbol. -/
theorem amount_push (m : Metric) (c : Compilation) (s : Symbol) :
    amount m { c with table := c.table.push s } =
      c.amount m + if .symbolsDeclared = m then 1 else 0 := by
  cases m with
  | symbolsDeclared => simp [amount, SymbolTable.push, SymbolTable.size]
  | instructions k => rfl
  | diagnostics e => rfl

/-- A compilation holds as much as before. -/
theorem amount_congr {c c' : Compilation} (hprogram : c'.program = c.program)
    (herrors : c'.errors = c.errors) (hsize : c'.table.size = c.table.size) (m : Metric) :
    c'.amount m = c.amount m := by
  cases m with
  | symbolsDeclared => exact hsize
  | instructions k => rw [amount, amount, hprogram]
  | diagnostics d => rw [amount, amount, herrors]

end Compilation

/-- A look-up adds no symbol. -/
theorem SymbolTable.size_lookup (t : SymbolTable) (name : Text) (scope : Scope) :
    (t.lookup name scope).2.size = t.size := by
  rw [lookup]
  split <;> rfl

/-- Each diagnostic is counted under one class. -/
theorem ErrorList.length_eq_counts (l : ErrorList) :
    (l.countP fun d => d.value.classify = .redeclaration) +
      (l.countP fun d => d.value.classify = .capacity) +
      (l.countP fun d => d.value.classify = .undeclared) +
      (l.countP fun d => d.value.classify = .other) = l.length := by
  induction l with
  | nil => rfl
  | cons d rest ih =>
    simp only [List.countP_cons, List.length_cons]
    cases d.value.classify <;> simp <;> omega

namespace Session

theorem total_setUnit {s : Session} {u : UnitId} {c : Compilation} (h : s.unit? u = some c)
    (f : Compilation → Nat) (c' : Compilation) :
    (s.setUnit u c').total f + f c = s.total f + f c' := by
  obtain ⟨units, sinks, metrics, bindings, log⟩ := s
  simp only [total, setUnit, unit?] at h ⊢
  induction units generalizing u with
  | nil => simp at h
  | cons unit rest ih =>
    cases u with
    | zero =>
      have hunit : unit = some c := by simpa using h
      simp [hunit]
      omega
    | succ u =>
      have hrest := ih (u := u) (by simpa using h)
      simp only [List.modify_succ_cons, List.map_cons, List.sum_cons]
      omega

theorem total_add (s : Session) (f g : Compilation → Nat) :
    s.total (fun c => f c + g c) = s.total f + s.total g := by
  have hunit : ∀ unit : Option Compilation,
      (unit.map fun c => f c + g c).getD 0 = (unit.map f).getD 0 + (unit.map g).getD 0 := by
    intro unit
    cases unit <;> rfl
  simp only [total, hunit, List.sum_map_add]

theorem total_eq_zero {s : Session} {f : Compilation → Nat}
    (h : ∀ u c, s.unit? u = some c → f c = 0) : s.total f = 0 := by
  refine List.sum_eq_zero fun n hn => ?_
  obtain ⟨unit, hunit, rfl⟩ := List.mem_map.mp hn
  obtain ⟨u, hu⟩ := List.mem_iff_getElem?.mp hunit
  cases unit with
  | none => rfl
  | some c => exact h u c (by rw [unit?, hu, Option.join_some])

/-- In a session that starts, the units hold nothing yet. -/
theorem total_start (plans : List UnitPlan) (m : Metric) :
    (start plans).2.total (·.amount m) = 0 := by
  refine total_eq_zero fun u c hc => ?_
  obtain ⟨plan, -, hprogram, herrors, htable, -⟩ := start_unit hc
  cases m with
  | symbolsDeclared =>
    rw [Compilation.amount, htable]
    rfl
  | instructions k =>
    rw [Compilation.amount, hprogram]
    rfl
  | diagnostics d =>
    rw [Compilation.amount, herrors]
    rfl

theorem sameUnits_of_units {s s' : Session} {u : UnitId} {c' : Compilation}
    (h : s'.units = (s.setUnit u c').units) : s.SameUnits s' := by
  intro w
  have hunit : s'.unit? w = (s.setUnit u c').unit? w := by rw [unit?, unit?, h]
  rw [hunit, unit?_setUnit]
  split
  · rw [Option.isSome_map]
  · rfl

end Session

namespace Journal

/-- Between two journals, whatever was added to the units was accounted for. -/
structure Balanced (χ χ' : Journal) : Prop where
  units : χ.session.SameUnits χ'.session
  amounts : ∀ m, χ'.accounted m + χ.session.total (·.amount m) =
    χ.accounted m + χ'.session.total (·.amount m)

variable {v : Verbosity} {χ χ' : Journal} {u : UnitId} {c c' : Compilation}

/-- A change of one unit that is accounted for. -/
theorem balanced_of_units (h : χ.session.unit? u = some c)
    (hunits : χ'.session.units = (χ.session.setUnit u c').units)
    (hamount : ∀ m, χ'.accounted m + c.amount m = χ.accounted m + c'.amount m) : Balanced χ χ' := by
  refine ⟨Session.sameUnits_of_units hunits, fun m => ?_⟩
  have htotal := Session.total_setUnit h (·.amount m) c'
  have hafter : χ'.session.total (·.amount m) = (χ.session.setUnit u c').total (·.amount m) := by
    rw [Session.total, Session.total, hunits]
  have hunit := hamount m
  rw [hafter]
  omega

/-- A step that counts what it adds to its unit. -/
theorem balanced_counted (h : χ.session.unit? u = some c)
    (hunits : χ'.session.units = (χ.session.setUnit u c').units)
    (hdirect : χ'.deeds.countP Deed.declaresDirectly = χ.deeds.countP Deed.declaresDirectly)
    {counted : Metric} (hmetrics : χ'.session.metrics = χ.session.metrics.bump counted)
    (hamount : ∀ m, c'.amount m = c.amount m + if counted = m then 1 else 0) : Balanced χ χ' := by
  refine balanced_of_units h hunits fun m => ?_
  rw [accounted, accounted, hmetrics, Tally.count_bump, hamount m, hdirect]
  omega

/-- A step that adds nothing to its unit. -/
theorem balanced_uncounted (h : χ.session.unit? u = some c)
    (hunits : χ'.session.units = (χ.session.setUnit u c').units)
    (hdirect : χ'.deeds.countP Deed.declaresDirectly = χ.deeds.countP Deed.declaresDirectly)
    (hmetrics : χ'.session.metrics = χ.session.metrics) (hprogram : c'.program = c.program)
    (herrors : c'.errors = c.errors) (hsize : c'.table.size = c.table.size) : Balanced χ χ' := by
  refine balanced_of_units h hunits fun m => ?_
  rw [accounted, accounted, hmetrics, Compilation.amount_congr hprogram herrors hsize m, hdirect]

theorem countP_append_deed (deeds : List Deed) (deed : Deed) :
    (deeds ++ [deed]).countP Deed.declaresDirectly =
      deeds.countP Deed.declaresDirectly + if deed.declaresDirectly then 1 else 0 := by
  rw [List.countP_append, List.countP_singleton]

/-- Work directly on a table adds a symbol exactly if it declares one. -/
theorem balanced_table {s' : Session} (h : χ.session.unit? u = some c) (op : Script.TableOp)
    (hunits : s'.units = (χ.session.setUnit u
      { c with table := ((op.read χ.session.bindings).apply c.table).2 }).units)
    (hmetrics : s'.metrics = χ.session.metrics) :
    Balanced χ ⟨s', χ.deeds ++ [⟨u, .table op, χ.session,
      .ok (.table ((op.read χ.session.bindings).apply c.table).1)⟩]⟩ := by
  have hdirect := countP_append_deed χ.deeds
  cases op with
  | declare d =>
    cases hresult : (c.table.declare (d.read χ.session.bindings)).1 with
    | error e =>
      have htable := SymbolTable.declare_eq_error hresult
      have hnot : Deed.declaresDirectly ⟨u, .table (.declare d), χ.session,
          .ok (.table (((Script.TableOp.declare d).read χ.session.bindings).apply c.table).1)⟩ =
            false := by
        simp [Deed.declaresDirectly, Script.TableOp.read, SymbolTable.Op.apply, hresult]
      refine balanced_uncounted h hunits ?_ hmetrics rfl rfl ?_
      · rw [hdirect, hnot]
        rfl
      · exact congrArg SymbolTable.size htable
    | ok id =>
      have htable := (SymbolTable.declare_eq_ok hresult).2
      have hyes : Deed.declaresDirectly ⟨u, .table (.declare d), χ.session,
          .ok (.table (((Script.TableOp.declare d).read χ.session.bindings).apply c.table).1)⟩ =
            true := by
        simp [Deed.declaresDirectly, Script.TableOp.read, SymbolTable.Op.apply, hresult]
      refine balanced_of_units h hunits fun m => ?_
      have hamount : Compilation.amount m { c with
          table := (((Script.TableOp.declare d).read χ.session.bindings).apply c.table).2 } =
          c.amount m + if .symbolsDeclared = m then 1 else 0 := by
        rw [← Compilation.amount_push m c (d.read χ.session.bindings), ← htable]
        rfl
      rw [accounted, accounted, hmetrics, hamount, hdirect, hyes, if_pos rfl]
      by_cases hm : m = .symbolsDeclared
      · rw [if_pos hm, if_pos hm, if_pos hm.symm]
        omega
      · rw [if_neg hm, if_neg hm, if_neg (Ne.symm hm)]
        omega
  | lookup name scope =>
    exact balanced_uncounted h hunits (hdirect _) hmetrics rfl rfl (SymbolTable.size_lookup _ _ _)
  | symbol | size | symbols | unused | dump =>
    exact balanced_uncounted h hunits (hdirect _) hmetrics rfl rfl rfl

/-- Every action is accounted for. -/
theorem balanced_performed {a : Action} {r : Except Overflow Session.Result} {s' : Session}
    (h : χ.session.unit? u = some c) (hp : Session.Performed v u c χ.session a r s') :
    Balanced χ ⟨s', χ.deeds ++ [⟨u, a, χ.session, r⟩]⟩ := by
  have hself : χ.session.units = (χ.session.setUnit u c).units := by rw [Session.setUnit_self h]
  have hdirect := countP_append_deed χ.deeds
  cases hp with
  | declared d typePos id hid =>
    exact balanced_counted h rfl (hdirect _) rfl fun m => Compilation.amount_push m c _
  | refused d typePos e he =>
    exact balanced_counted h rfl (hdirect _) rfl fun m => Compilation.amount_record m c _
  | resolved pos name scope bind id hid =>
    exact balanced_uncounted h rfl (hdirect _) rfl rfl rfl rfl
  | missed pos name scope bind hnone =>
    exact balanced_counted h rfl (hdirect _) rfl fun m => Compilation.amount_record m c _
  | emitted r bind i supply hbuild =>
    exact balanced_counted h rfl (hdirect _) rfl fun m =>
      Compilation.amount_emit m { c with supply } i
  | exhausted r bind e supply hbuild => exact balanced_uncounted h rfl (hdirect _) rfl rfl rfl rfl
  | labelled bind name hname => exact balanced_uncounted h rfl (hdirect _) rfl rfl rfl rfl
  | unlabelled bind e he => exact balanced_uncounted h rfl (hdirect _) rfl rfl rfl rfl
  | reported pos cause f hf =>
    exact balanced_counted h rfl (hdirect _) rfl fun m => Compilation.amount_record m c _
  | unreported pos cause hnone => exact balanced_uncounted h hself (hdirect _) rfl rfl rfl rfl
  | counters temps labels => exact balanced_uncounted h rfl (hdirect _) rfl rfl rfl rfl
  | table op => exact balanced_table h op rfl rfl
  | errors => exact balanced_uncounted h hself (hdirect _) rfl rfl rfl rfl
  | finished => exact balanced_uncounted h hself (hdirect _) rfl rfl rfl rfl
  | found kind => exact balanced_uncounted h hself (hdirect _) rfl rfl rfl rfl

/-- Every script keeps a journal in balance. -/
theorem kept_balanced (v : Verbosity) : Kept v Balanced where
  refl χ := ⟨fun _ => rfl, fun _ => rfl⟩
  trans := by
    intro χ₁ χ₂ χ₃ h h'
    refine ⟨fun u => (h'.units u).trans (h.units u), fun m => ?_⟩
    have hfirst := h.amounts m
    have hlater := h'.amounts m
    omega
  units h := h.units
  label hc := balanced_uncounted hc rfl rfl rfl rfl rfl rfl
  emitted hc _ := balanced_counted hc rfl rfl rfl fun m => Compilation.amount_emit m _ _
  exhausted hc _ := balanced_uncounted hc rfl rfl rfl rfl rfl rfl
  performed hc hp := balanced_performed hc hp

/-- After every script, what the session holds is accounted for. -/
theorem accounted_run (v : Verbosity) (plans : List Session.UnitPlan) (script : List Statement)
    (m : Metric) : (run v script ⟨(Session.start plans).2, []⟩).2.accounted m =
      (Session.run v script (Session.start plans).2).2.total (·.amount m) := by
  have hlog : ∀ χ : Journal, Balanced χ χ.clearLog := fun χ => ⟨fun _ => rfl, fun _ => rfl⟩
  have hbalanced := (kept_balanced v).run hlog script ⟨(Session.start plans).2, []⟩
  have hamounts := hbalanced.amounts m
  have hstart : accounted m ⟨(Session.start plans).2, []⟩ = 0 := by
    cases m <;> rfl
  have hsession : (run v script ⟨(Session.start plans).2, []⟩).2.session =
      (Session.run v script (Session.start plans).2).2 :=
    (run_eq v script ⟨(Session.start plans).2, []⟩).2
  rw [hstart, Session.total_start, hsession] at hamounts
  omega

end Journal

/-- After every script in a session that starts, also when statements were ended by an
overflow: each kind of instruction was counted as often as it stands in the programs of all
units, each class of diagnostics as often as it stands in their lists, so that all classes
together are as many as the diagnostics there; and symbols were counted as many as the tables
hold, less those declared directly. -/
theorem metrics_agree_with_units (v : Verbosity) (plans : List Session.UnitPlan)
    (script : List Statement) :
    (Journal.run v script ⟨(Session.start plans).2, []⟩).2.session =
      (Session.run v script (Session.start plans).2).2 ∧
    (∀ k, (Session.run v script (Session.start plans).2).2.metrics.count (.instructions k) =
      (Session.run v script (Session.start plans).2).2.total fun c => c.program.count k) ∧
    (∀ d, (Session.run v script (Session.start plans).2).2.metrics.count (.diagnostics d) =
      (Session.run v script (Session.start plans).2).2.total fun c =>
        c.errors.countP fun e => e.value.classify = d) ∧
    (Session.run v script (Session.start plans).2).2.metrics.count (.diagnostics .redeclaration) +
        (Session.run v script (Session.start plans).2).2.metrics.count (.diagnostics .capacity) +
        (Session.run v script (Session.start plans).2).2.metrics.count (.diagnostics .undeclared) +
        (Session.run v script (Session.start plans).2).2.metrics.count (.diagnostics .other) =
      ((Session.run v script (Session.start plans).2).2.total fun c => c.errors.length) ∧
    (Session.run v script (Session.start plans).2).2.metrics.count .symbolsDeclared +
        (Journal.deedsOf v plans script).countP Deed.declaresDirectly =
      (Session.run v script (Session.start plans).2).2.total fun c => c.table.size := by
  have haccounted := Journal.accounted_run v plans script
  have hsession : (Journal.run v script ⟨(Session.start plans).2, []⟩).2.session =
      (Session.run v script (Session.start plans).2).2 :=
    (Journal.run_eq v script ⟨(Session.start plans).2, []⟩).2
  have hdeeds : (Journal.run v script ⟨(Session.start plans).2, []⟩).2.deeds =
      Journal.deedsOf v plans script := rfl
  simp only [Journal.accounted, hsession, hdeeds] at haccounted
  have hinstructions := fun k => haccounted (.instructions k)
  have hdiagnostics := fun d => haccounted (.diagnostics d)
  have hsymbols := haccounted .symbolsDeclared
  simp only [reduceCtorEq, if_false, if_true, Nat.add_zero] at hinstructions hdiagnostics hsymbols
  refine ⟨hsession, hinstructions, hdiagnostics, ?_, hsymbols⟩
  have hlength : (fun c : Compilation => c.errors.length) = fun c =>
      c.amount (.diagnostics .redeclaration) + c.amount (.diagnostics .capacity) +
        c.amount (.diagnostics .undeclared) + c.amount (.diagnostics .other) :=
    funext fun c => (ErrorList.length_eq_counts c.errors).symm
  rw [hlength, Session.total_add, Session.total_add, Session.total_add, hdiagnostics, hdiagnostics,
    hdiagnostics, hdiagnostics]

end ThreeAddress
