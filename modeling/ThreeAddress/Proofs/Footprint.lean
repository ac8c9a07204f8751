import ThreeAddress.Proofs.Journal

/-!
# What an action reads and changes

An action reads the bindings, the compilation of its unit and the named lists, and nothing
else of a session; of units it changes only its own, and of what units share only the named
lists, the bindings, the metrics and the log. Here what it gives is a function of what it
reads. Main statements: every action that is performed has this effect, and the effect on its
unit is a chain of single changes.
-/

open Relation (ReflTransGen)

namespace ThreeAddress

open Script (Action Bindings UnitId)

/-- What comes of an action. -/
structure Effect where
  /-- What it gives, or the overflow that ends it. -/
  outcome : Except Overflow Session.Result
  /-- The compilation of its unit after it. -/
  unit : Compilation
  /-- The named lists after it. -/
  sinks : Sinks

/-- The effect of an action that reports a diagnostic. -/
def Effect.reporting (c : Compilation) (sinks : Sinks) (result : Session.Result) (d : Diagnostic) :
    Effect :=
  ⟨.ok result, c.record d, (c.reporter.relay d sinks).1⟩

/-- What comes of an action on a unit, given the bindings, its compilation and the named lists. -/
def Script.Action.effect (b : Bindings) (c : Compilation) (sinks : Sinks) : Action → Effect
  | .declare d typePos =>
    match (c.table.declare (d.spanned b typePos)).1 with
    | .ok id =>
      ⟨.ok (.declared (.ok id)), { c with table := c.table.push (d.spanned b typePos) }, sinks⟩
    | .error e => .reporting c sinks (.declared (.error e)) ⟨(d.spanned b typePos).pos, .symbol e⟩
  | .resolve pos name scope _ =>
    match c.table.find? (name.read b) scope with
    | some id =>
      ⟨.ok (.resolved (.ok ((c.table.symbol? id).getD {}).name)),
        { c with table := c.table.mark id }, sinks⟩
    | none =>
      .reporting c sinks (.resolved (.error (.notFound (name.read b) scope)))
        ⟨pos.map (·.read b), .symbol (.notFound (name.read b) scope)⟩
  | .emit r _ =>
    ⟨((r.map (·.read b)).build c.supply).1.map Session.emitted, c.request (r.map (·.read b)), sinks⟩
  | .label _ => ⟨(c.supply.fresh .label).1.map .label, c.take .label, sinks⟩
  | .report pos cause =>
    match cause.build? b sinks with
    | some f => .reporting c (sinks.mention (cause.lists b)) .done ⟨pos.map (·.read b), f⟩
    | none => ⟨.ok .done, c, sinks.mention (cause.lists b)⟩
  | .setCounters temps labels => ⟨.ok .done, { c with supply := ⟨temps, labels⟩ }, sinks⟩
  | .table op =>
    ⟨.ok (.table ((op.read b).apply c.table).1), { c with table := ((op.read b).apply c.table).2 },
      sinks⟩
  | .errors => ⟨.ok (.errors c.errors.fault?), c, sinks⟩
  | .finish => ⟨.ok (.finished c.program c.errors.fault?), c, sinks⟩
  | .find kind => ⟨.ok (.found (c.errors.fault?.bind (·.find? kind))), c, sinks⟩

namespace Session

variable {v : Verbosity} {s s' : Session} {u : UnitId} {c : Compilation} {a : Action}
  {r : Except Overflow Result}

/-- Every action that is performed has its effect. -/
theorem Performed.effect (h : s.unit? u = some c) (hp : Performed v u c s a r s') :
    r = (a.effect s.bindings c s.sinks).outcome ∧
      s'.units = (s.setUnit u (a.effect s.bindings c s.sinks).unit).units ∧
      s'.sinks = (a.effect s.bindings c s.sinks).sinks := by
  have hself : s.units = (s.setUnit u c).units := by rw [setUnit_self h]
  cases hp with
  | declared d typePos id hid =>
    rw [Action.effect, hid]
    exact ⟨rfl, rfl, rfl⟩
  | refused d typePos e he =>
    rw [Action.effect, he]
    exact ⟨rfl, rfl, rfl⟩
  | resolved pos name scope bind id hid =>
    rw [Action.effect, hid]
    exact ⟨rfl, rfl, rfl⟩
  | missed pos name scope bind hnone =>
    rw [Action.effect, hnone]
    exact ⟨rfl, rfl, rfl⟩
  | emitted r bind i supply hbuild =>
    rw [Action.effect, Compilation.request, hbuild]
    exact ⟨rfl, rfl, rfl⟩
  | exhausted r bind e supply hbuild =>
    rw [Action.effect, Compilation.request, hbuild]
    exact ⟨rfl, rfl, rfl⟩
  | labelled bind name hname =>
    rw [Action.effect, hname]
    exact ⟨rfl, rfl, rfl⟩
  | unlabelled bind e he =>
    rw [Action.effect, he]
    exact ⟨rfl, rfl, rfl⟩
  | reported pos cause f hf =>
    rw [Action.effect, hf]
    exact ⟨rfl, rfl, rfl⟩
  | unreported pos cause hnone =>
    rw [Action.effect, hnone]
    exact ⟨rfl, hself, rfl⟩
  | counters temps labels => exact ⟨rfl, rfl, rfl⟩
  | table op => exact ⟨rfl, rfl, rfl⟩
  | errors => exact ⟨rfl, hself, rfl⟩
  | finished => exact ⟨rfl, hself, rfl⟩
  | found kind => exact ⟨rfl, hself, rfl⟩

end Session

open Compilation (Change Note)

/-- The effect of an action on its unit is a chain of single changes. -/
theorem Script.Action.changes_effect (a : Action) (b : Bindings) (c : Compilation) (sinks : Sinks) :
    ReflTransGen (Change (a.setsCounters = true)) c (a.effect b c sinks).unit := by
  have hrecord : ∀ d, Change (a.setsCounters = true) c (c.record d) := fun d => .note (.record d)
  cases a with
  | declare d typePos =>
    rw [effect]
    cases hresult : (c.table.declare (d.spanned b typePos)).1 with
    | ok id =>
      have hpush := Note.table (c := c) (.declare (d.spanned b typePos))
      rw [SymbolTable.Op.apply, (SymbolTable.declare_eq_ok hresult).2] at hpush
      exact .single (.note hpush)
    | error e => exact .single (hrecord _)
  | resolve pos name scope bind =>
    rw [effect]
    cases hfind : c.table.find? (name.read b) scope with
    | some id =>
      have hmark := Note.table (c := c) (.lookup (name.read b) scope)
      rw [SymbolTable.Op.apply, SymbolTable.lookup, hfind] at hmark
      exact .single (.note hmark)
    | none => exact .single (hrecord _)
  | emit r bind => exact .single (.request _)
  | label bind => exact .single .label
  | report pos cause =>
    rw [effect]
    cases cause.build? b sinks with
    | some f => exact .single (hrecord _)
    | none => exact .refl
  | setCounters temps labels => exact .single (.counters rfl _)
  | table op => exact .single (.note (.table (op.read b)))
  | errors => exact .refl
  | finish => exact .refl
  | find kind => exact .refl

end ThreeAddress
