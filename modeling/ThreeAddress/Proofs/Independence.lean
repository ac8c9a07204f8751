import ThreeAddress.Proofs.Answers
import ThreeAddress.Proofs.Growth
import ThreeAddress.Proofs.Selection
import ThreeAddress.Proofs.Unbounded

/-!
# Parts of a script that do not matter to each other

Main statements: the units of a session do not matter to each other; and in every unit the
symbols and diagnostics do not matter to the program and its names, nor the program and its names
to the symbols and diagnostics.
-/

namespace ThreeAddress

open Script (Action Bindings Cause Joint Operand Selection Statement Stroke UnitId blockStrokes
    selectBlock)
open Workshop (Ignores Shows Silent ofSession)

/-! ## Units -/

namespace Script

/-- A fault made from what a named list holds. -/
def Cause.takesSnapshot : Cause → Bool
  | wrapped _ cause => cause.takesSnapshot
  | snapshot _ => true
  | _ => false

theorem Cause.build?_of_not_takesSnapshot {cause : Cause} (h : cause.takesSnapshot = false)
    (b : Bindings) (s s' : Sinks) : cause.build? b s = cause.build? b s' := by
  induction cause with
  | wrapped m cause ih => rw [build?, build?, ih h]
  | snapshot list => cases h
  | _ => rfl

/-- An action that reports what a named list holds. -/
def Action.takesSnapshot : Action → Bool
  | report _ cause => cause.takesSnapshot
  | _ => false

/-- Named lists do not matter to an action unless it reports what one of them holds. -/
theorem Action.effect_of_not_takesSnapshot {a : Action} (h : a.takesSnapshot = false) (b : Bindings)
    (c : Compilation) (s s' : Sinks) :
    (a.effect b c s).outcome = (a.effect b c s').outcome ∧
      (a.effect b c s).unit = (a.effect b c s').unit := by
  cases a with
  | declare d typePos =>
    rw [effect, effect]
    cases (c.table.declare (d.spanned b typePos)).1 <;> exact ⟨rfl, rfl⟩
  | resolve pos name scope bind =>
    rw [effect, effect]
    cases c.table.find? (name.read b) scope <;> exact ⟨rfl, rfl⟩
  | report pos cause =>
    rw [effect, effect, Cause.build?_of_not_takesSnapshot h b s s']
    cases cause.build? b s' <;> exact ⟨rfl, rfl⟩
  | _ => exact ⟨rfl, rfl⟩

/-- What a script does with one unit. -/
def Selection.ofUnit (u : UnitId) : Selection where
  action w _ := decide (w = u)
  frame w := decide (w = u)

theorem Selection.keeps_ofUnit (u : UnitId) (x : UnitId × Stroke) :
    (ofUnit u).keeps x = decide (x.1 = u) := by
  obtain ⟨w, k⟩ := x
  cases k <;> rfl

end Script

/-- One unit has the same compilation and the same labels, and its actions gave the same. -/
structure Workshop.SameUnit (u : UnitId) (w w' : Workshop) : Prop where
  unit : w.units u = w'.units u
  labels : w.labels u = w'.labels u
  told : (w.told.filter fun t => t.1 = u) = w'.told

/-- Strokes on other units do not matter. -/
theorem Workshop.ignores_ofUnit (u : UnitId) :
    Ignores (Selection.ofUnit u).keeps (fun x => ∀ a, x.2 = .act a → a.takesSnapshot = false)
      (SameUnit u) where
  kept {x k w w'} hfit hkeeps h := by
    rw [Selection.keeps_ofUnit, decide_eq_true_eq] at hkeeps
    subst hkeeps
    obtain ⟨hunit, hlabels, htold⟩ := h
    cases k with
    | act a =>
      obtain ⟨houtcome, hafter⟩ :=
        Action.effect_of_not_takesSnapshot (hfit a rfl) [] (w'.units x) w.sinks w'.sinks
      simp only [stroke, hunit, houtcome, hafter, true_and]
      exact ⟨by simp, hlabels, by simp [htold]⟩
    | joint j =>
      cases j with
      | label =>
        simp only [stroke, hunit, hlabels, true_and]
        exact ⟨by simp, by simp, htold⟩
      | put r =>
        simp only [stroke, hunit, hlabels, true_and]
        exact ⟨by simp, hlabels, htold⟩
      | forget n =>
        simp only [stroke, hlabels, true_and]
        exact ⟨hunit, by simp, htold⟩
  leftOut {x k w w'} _ hkeeps h := by
    rw [Selection.keeps_ofUnit, decide_eq_false_iff_not] at hkeeps
    have hne : u ≠ x := Ne.symm hkeeps
    obtain ⟨hunit, hlabels, htold⟩ := h
    cases k with
    | act a => exact ⟨by simp [stroke, hne, hunit], hlabels, by simp [stroke, hkeeps, htold]⟩
    | joint j =>
      cases j with
      | label => exact ⟨by simp [stroke, hne, hunit], by simp [stroke, hne, hlabels], htold⟩
      | put r => exact ⟨by simp [stroke, hne, hunit], hlabels, htold⟩
      | forget n => exact ⟨hunit, by simp [stroke, hne, hlabels], htold⟩

/-- A script all of whose units have a compilation and all of whose texts are given
outright has plain strokes. -/
theorem Session.plain_strokes {s : Session} {script : List Statement}
    (hunits : ∀ u ∈ Script.blockUnits script, (s.unit? u).isSome = true)
    (hliteral : ∀ o ∈ Script.blockOperands script, o.isLiteral = true) :
    ∀ x ∈ blockStrokes script, Journal.Plain s.Has x := by
  intro x hx
  have hamong := Script.blockStrokes_among script x hx
  exact ⟨hunits x.1 hamong.unit, fun o ho => hliteral o (hamong.operands ho)⟩

/-- What related workshops have in common of a unit, the sessions have in common after the runs. -/
theorem Session.Related.map_unit? {β : Type} {v : Verbosity} {R : Workshop → Workshop → Prop}
    {s : Session} {script part : List Statement} (h : Related v R s script part) {u : UnitId}
    {f : Compilation → β}
    (hf : ∀ w w', R w w' → f (w.units u) = f (w'.units u)) :
    ((run v part s).2.unit? u).map f = ((run v script s).2.unit? u).map f := by
  obtain ⟨w, w', hR, hshows, hshows'⟩ := h
  have hsession := (Journal.run_eq v script ⟨s, []⟩).2
  have hsession' := (Journal.run_eq v part ⟨s, []⟩).2
  cases hu : (s.unit? u).isSome with
  | true =>
    have hunit := hshows.units u hu
    have hunit' := hshows'.units u hu
    rw [hsession] at hunit
    rw [hsession'] at hunit'
    rw [hunit, hunit', Option.map_some, Option.map_some, hf w w' hR]
  | false =>
    have hnone := (Journal.timeline_run v script s).whole.sameUnits u
    have hnone' := (Journal.timeline_run v part s).whole.sameUnits u
    rw [hsession, hu, Option.isSome_eq_false_iff, Option.isNone_iff_eq_none] at hnone
    rw [hsession', hu, Option.isSome_eq_false_iff, Option.isNone_iff_eq_none] at hnone'
    rw [hnone, hnone']

/-- Let a script run without an overflow, all its units have a compilation, all its texts be given
outright, and no report be about what a named list holds. What is left of it for one unit, when the
actions on other units are left out and the blocks of their conditionals and loops take their place,
runs without an overflow too. It leaves the compilation of the unit as the whole script does, and
its actions are those of the whole script on the unit, with the same outcomes. The journals compared
are faithful to the answers. -/
theorem units_do_not_interfere (v : Verbosity) (s : Session) (script : List Statement) (u : UnitId)
    (hunits : ∀ w ∈ Script.blockUnits script, (s.unit? w).isSome = true)
    (hliteral : ∀ o ∈ Script.blockOperands script, o.isLiteral = true)
    (hsnapshot : ∀ x ∈ Script.blockActions script, x.2.takesSnapshot = false)
    (hok : ∀ step ∈ (Session.run v script s).1, step.outcome.isOk = true) :
    (∀ part, Journal.Faithful v s part) ∧
    (∀ step ∈ (Session.run v (selectBlock (.ofUnit u) script) s).1, step.outcome.isOk = true) ∧
    (Session.run v (selectBlock (.ofUnit u) script) s).2.unit? u =
      (Session.run v script s).2.unit? u ∧
    (Journal.run v (selectBlock (.ofUnit u) script) ⟨s, []⟩).2.deeds.map Deed.told =
      ((Journal.run v script ⟨s, []⟩).2.deeds.map Deed.told).filter fun t => t.1 = u := by
  have hplain := Session.plain_strokes hunits hliteral
  have hfit : ∀ x ∈ blockStrokes script, ∀ a, x.2 = .act a →
      a.takesSnapshot = false := fun x hx a ha =>
    hsnapshot (x.1, a) ((Script.blockStrokes_among script x hx).action a ha)
  obtain ⟨hdone, hrelated⟩ := Session.related_of_isOk (Workshop.ignores_ofUnit u) hplain hfit
    ⟨rfl, rfl, rfl⟩ hok
  have hunit := hrelated.map_unit? (f := id) fun _ _ hsame => hsame.unit
  rw [Option.map_id, id, id] at hunit
  refine ⟨Journal.faithful v s, hdone, hunit, ?_⟩
  obtain ⟨w, w', hsame, hshows, hshows'⟩ := hrelated
  rw [hshows'.told, hshows.told, hsame.told]

/-- A comparison of two names. -/
def plainTest : Relation Operand := ⟨.literal "x", .literal "<", .literal "y"⟩

/-- A conditional on one unit with statements on another in both blocks, one of them a loop whose
preparation is again about the first. -/
def crossing : List Statement :=
  [.ifElse 1 plainTest
    [.act 0 (.emit (.binary (.literal "x") (.literal "+") (.literal "y")) none),
      .act 1 (.label none)]
    [.act 0 (.declare ⟨.literal "x", .literal "int", 0, none⟩ none),
      .loop 0 [.act 1 (.resolve none (.literal "x") 0 none)] plainTest
        [.act 0 (.resolve none (.literal "x") 0 none)]]]

/-- Two units with nothing done yet. -/
def twoBlanks : Session := { units := [some {}, some {}] }

/-- Left alone, the other unit does what stands in the second block and then
what stands in the first. -/
theorem crossing_units_do_not_interfere :
    selectBlock (.ofUnit 0) crossing =
      [.act 0 (.declare ⟨.literal "x", .literal "int", 0, none⟩ none),
        .loop 0 [] plainTest [.act 0 (.resolve none (.literal "x") 0 none)],
        .act 0 (.emit (.binary (.literal "x") (.literal "+") (.literal "y")) none)] ∧
    (Session.run 0 (selectBlock (.ofUnit 0) crossing) twoBlanks).2.unit? 0 =
      (Session.run 0 crossing twoBlanks).2.unit? 0 ∧
    ((Journal.run 0 crossing ⟨twoBlanks, []⟩).2.deeds.map Deed.told).length = 5 ∧
    (Journal.run 0 (selectBlock (.ofUnit 0) crossing) ⟨twoBlanks, []⟩).2.deeds.map Deed.told =
      ((Journal.run 0 crossing ⟨twoBlanks, []⟩).2.deeds.map Deed.told).filter fun t => t.1 = 0 := by
  have hok : (Session.run 0 crossing twoBlanks).1.all (fun step => step.outcome.isOk) = true := by
    decide +kernel
  have hfive : ((Journal.run 0 crossing ⟨twoBlanks, []⟩).2.deeds.map Deed.told).length = 5 := by
    decide +kernel
  obtain ⟨-, -, hunit, htold⟩ :=
    units_do_not_interfere 0 twoBlanks crossing 0 (by decide) (by decide) (by decide)
      (List.all_eq_true.mp hok)
  exact ⟨rfl, hunit, hfive, htold⟩

/-! ## The two sides of a unit -/

/-- Compilations with the same program and the same counters. -/
structure Compilation.SameCode (c c' : Compilation) : Prop where
  program : c.program = c'.program
  supply : c.supply = c'.supply

/-- Compilations with the same symbols and diagnostics, which pass their
diagnostics on in the same way. -/
structure Compilation.SameNotes (c c' : Compilation) : Prop where
  table : c.table = c'.table
  errors : c.errors = c'.errors
  reporter : c.reporter = c'.reporter

namespace Compilation

variable {c c' : Compilation}

theorem SameCode.take (h : SameCode c c') (category : Category) :
    SameCode (c.take category) (c'.take category) := by
  rw [Compilation.take, Compilation.take, h.supply]
  exact ⟨h.program, rfl⟩

theorem SameCode.request (h : SameCode c c') (r : Request Text) :
    SameCode (c.request r) (c'.request r) := by
  rw [Compilation.request, Compilation.request, h.supply]
  rcases r.build c'.supply with ⟨made, supply⟩
  cases made with
  | ok i => exact ⟨congrArg (· ++ [i]) h.program, rfl⟩
  | error e => exact ⟨h.program, rfl⟩

/-- Taking a name leaves the symbols and diagnostics alone. -/
theorem SameNotes.of_take (h : SameNotes c c') (category : Category) :
    SameNotes (c.take category) c' :=
  ⟨h.table, h.errors, h.reporter⟩

/-- So does emitting. -/
theorem SameNotes.of_request (h : SameNotes c c') (r : Request Text) :
    SameNotes (c.request r) c' := by
  rw [Compilation.request]
  split <;> exact ⟨h.table, h.errors, h.reporter⟩

end Compilation

open Compilation (SameCode SameNotes)

namespace Script.Action

/-- An action on the symbols or the diagnostics of a unit. -/
def isNote : Action → Bool
  | declare .. | resolve .. | report .. | table .. => true
  | _ => false

variable {a : Action} {c c' : Compilation} (b : Bindings) (s s' : Sinks)

/-- An action on the symbols or the diagnostics leaves program and counters
alone and cannot overflow. -/
theorem effect_of_isNote (ha : a.isNote = true) (h : SameCode c c') :
    Overflow.ofOutcome? (a.effect b c s).outcome = none ∧ SameCode (a.effect b c s).unit c' := by
  obtain ⟨hprogram, hsupply⟩ := h
  cases a with
  | declare d typePos =>
    rw [effect]
    cases (c.table.declare (d.spanned b typePos)).1 <;> exact ⟨rfl, hprogram, hsupply⟩
  | resolve pos name scope bind =>
    rw [effect]
    cases c.table.find? (name.read b) scope <;> exact ⟨rfl, hprogram, hsupply⟩
  | report pos cause =>
    rw [effect]
    cases cause.build? b s <;> exact ⟨rfl, hprogram, hsupply⟩
  | table op => exact ⟨rfl, hprogram, hsupply⟩
  | _ => cases ha

/-- Symbols and diagnostics do not matter to what the other actions make of program and counters. -/
theorem effect_of_not_isNote (ha : a.isNote = false) (h : SameCode c c') :
    Overflow.ofOutcome? (a.effect b c s).outcome = Overflow.ofOutcome? (a.effect b c' s').outcome ∧
      SameCode (a.effect b c s).unit (a.effect b c' s').unit ∧
      (a.emits = true → (a.effect b c s).outcome = (a.effect b c' s').outcome) := by
  cases a with
  | emit r bind =>
    have hrequest := h.request (r.map (·.read b))
    rw [effect, effect, h.supply]
    exact ⟨rfl, hrequest, fun _ => rfl⟩
  | label bind =>
    have htake := h.take .label
    rw [effect, effect, h.supply]
    exact ⟨rfl, htake, fun _ => rfl⟩
  | setCounters temps labels => exact ⟨rfl, ⟨h.program, rfl⟩, fun _ => rfl⟩
  | errors | finish | find => exact ⟨rfl, h, fun hemits => absurd hemits Bool.false_ne_true⟩
  | _ => cases ha

/-- An action that emits or takes a label leaves symbols, diagnostics and named lists alone. -/
theorem effect_of_emits (ha : a.emits = true) (h : SameNotes c c') :
    SameNotes (a.effect b c s).unit c' ∧ (a.effect b c s).sinks = s := by
  cases a with
  | emit r bind => exact ⟨h.of_request _, rfl⟩
  | label bind => exact ⟨h.of_take .label, rfl⟩
  | _ => cases ha

end Script.Action

/-- A result without the program, if it is the end of a compilation. -/
def Session.Result.withoutProgram : Session.Result → Session.Result
  | .finished _ f => .finished [] f
  | r => r

def Told.withoutProgram (t : Told) : Told := (t.1, t.2.1, t.2.2.map Session.Result.withoutProgram)

namespace Script.Action

variable {a : Action} {c c' : Compilation} (b : Bindings) (s : Sinks)

/-- Effects that differ in program and counters only. -/
structure SameNotesEffect (e e' : Effect) : Prop where
  outcome : e.outcome.map Session.Result.withoutProgram =
    e'.outcome.map Session.Result.withoutProgram
  unit : SameNotes e.unit e'.unit
  sinks : e.sinks = e'.sinks

theorem sameNotesEffect_reporting (h : SameNotes c c') (result : Session.Result) (d : Diagnostic) :
    SameNotesEffect (.reporting c s result d) (.reporting c' s result d) where
  outcome := rfl
  unit := ⟨h.table, congrArg (· ++ [d]) h.errors, h.reporter⟩
  sinks := by rw [Effect.reporting, Effect.reporting, h.reporter]

/-- Program and counters do not matter to what the other actions make of symbols, diagnostics and
named lists, nor to what they give apart from the program. -/
theorem effect_of_not_emits (ha : a.emits = false) (h : SameNotes c c') :
    SameNotesEffect (a.effect b c s) (a.effect b c' s) := by
  cases a with
  | declare d typePos =>
    rw [effect, effect, h.table]
    cases (c'.table.declare (d.spanned b typePos)).1 with
    | ok id => exact ⟨rfl, ⟨rfl, h.errors, h.reporter⟩, rfl⟩
    | error e => exact sameNotesEffect_reporting s h _ _
  | resolve pos name scope bind =>
    rw [effect, effect, h.table]
    cases c'.table.find? (name.read b) scope with
    | some id => exact ⟨rfl, ⟨rfl, h.errors, h.reporter⟩, rfl⟩
    | none => exact sameNotesEffect_reporting s h _ _
  | report pos cause =>
    rw [effect, effect]
    cases cause.build? b s with
    | some f => exact sameNotesEffect_reporting _ h _ _
    | none => exact ⟨rfl, h, rfl⟩
  | setCounters temps labels => exact ⟨rfl, ⟨h.table, h.errors, h.reporter⟩, rfl⟩
  | table op =>
    rw [effect, effect, h.table]
    exact ⟨rfl, ⟨rfl, h.errors, h.reporter⟩, rfl⟩
  | errors | finish | find =>
    rw [effect, effect, h.errors]
    exact ⟨rfl, h, rfl⟩
  | _ => cases ha

end Script.Action

/-- What a script does for the programs: all but the actions on symbols and diagnostics. -/
def Script.Selection.code : Selection where
  action _ a := !a.isNote
  frame _ := true

/-- What a script does for the symbols and diagnostics: all but what emits or takes a label. -/
def Script.Selection.notes : Selection where
  action _ a := !a.emits
  frame _ := false

theorem Overflow.ofOutcome?_map {α β : Type} (f : α → β) (r : Except Overflow α) :
    ofOutcome? (r.map f) = ofOutcome? r := by
  cases r <;> rfl

namespace Workshop

/-- A relation between compilations, unit by unit, after both sides replaced one of them. -/
theorem forall_update₂ {P : Compilation → Compilation → Prop} {f g : UnitId → Compilation}
    (h : ∀ x, P (f x) (g x)) {u : UnitId} {c c' : Compilation} (hc : P c c') (x : UnitId) :
    P (Function.update f u c x) (Function.update g u c' x) := by
  by_cases hx : x = u
  · subst hx
    rw [Function.update_self, Function.update_self]
    exact hc
  · rw [Function.update_of_ne hx, Function.update_of_ne hx]
    exact h x

/-- A relation between compilations, unit by unit, after one side replaced one of them. -/
theorem forall_update {P : Compilation → Compilation → Prop} {f g : UnitId → Compilation}
    (h : ∀ x, P (f x) (g x)) {u : UnitId} {c : Compilation} (hc : P c (g u)) (x : UnitId) :
    P (Function.update f u c x) (g x) := by
  have hboth := forall_update₂ h (u := u) hc x
  rw [Function.update_eq_self] at hboth
  exact hboth

/-- The same programs, counters and labels; actions that emit or take a label gave the same. -/
structure SameCodes (w w' : Workshop) : Prop where
  units : ∀ u, SameCode (w.units u) (w'.units u)
  labels : w.labels = w'.labels
  told : (w.told.filter fun t => t.2.1.emits) = w'.told.filter fun t => t.2.1.emits

/-- Actions on symbols and diagnostics do not matter to programs. -/
theorem ignores_code : Ignores Selection.code.keeps (fun _ => True) SameCodes where
  kept {u k w w'} _ hkeeps h := by
    obtain ⟨hunits, hlabels, htold⟩ := h
    cases k with
    | act a =>
      have ha : a.isNote = false := Bool.not_eq_true' _ |>.mp hkeeps
      obtain ⟨hends, hunit, hsame⟩ := a.effect_of_not_isNote [] w.sinks w'.sinks ha (hunits u)
      refine ⟨hends, forall_update₂ hunits hunit, hlabels, ?_⟩
      simp only [stroke, List.filter_append, htold, List.filter_singleton]
      cases hemits : a.emits with
      | true => rw [hsame hemits]
      | false => rfl
    | joint j =>
      cases j with
      | label =>
        have htake := (hunits u).take .label
        simp only [stroke, (hunits u).supply, hlabels, true_and]
        exact ⟨forall_update₂ hunits htake, rfl, htold⟩
      | put r =>
        have hrequest := (hunits u).request (r.map (Script.Slot.read (w'.labels u)))
        simp only [stroke, (hunits u).supply, hlabels, true_and]
        exact ⟨forall_update₂ hunits hrequest, rfl, htold⟩
      | forget n =>
        simp only [stroke, hlabels, true_and]
        exact ⟨hunits, rfl, htold⟩
  leftOut {u k w w'} _ hkeeps h := by
    obtain ⟨hunits, hlabels, htold⟩ := h
    cases k with
    | act a =>
      have ha : a.isNote = true := Bool.not_eq_false' _ |>.mp hkeeps
      obtain ⟨-, hunit⟩ := a.effect_of_isNote [] w.sinks ha (hunits u)
      refine ⟨forall_update hunits hunit, hlabels, ?_⟩
      have hemits : a.emits = false := by
        cases a <;> first | rfl | cases ha
      simp only [stroke, List.filter_append, htold, List.filter_singleton, hemits]
      exact List.append_nil _
    | joint j => cases hkeeps

theorem silent_code : Silent Selection.code.keeps fun _ => True := by
  intro u k w _ hkeeps
  cases k with
  | act a =>
    have ha : a.isNote = true := Bool.not_eq_false' _ |>.mp hkeeps
    exact (a.effect_of_isNote [] w.sinks ha ⟨rfl, rfl⟩).1
  | joint j => cases hkeeps

/-- The same symbols, diagnostics and named lists; actions that do not emit gave the
same, apart from programs. -/
structure SameNotes (w w' : Workshop) : Prop where
  units : ∀ u, Compilation.SameNotes (w.units u) (w'.units u)
  sinks : w.sinks = w'.sinks
  told : (w.told.filter fun t => !t.2.1.emits).map Told.withoutProgram =
    w'.told.map Told.withoutProgram

/-- What emits or takes a label does not matter to symbols and diagnostics. -/
theorem ignores_notes : Ignores Selection.notes.keeps (fun _ => True) SameNotes where
  kept {u k w w'} _ hkeeps h := by
    obtain ⟨hunits, hsinks, htold⟩ := h
    cases k with
    | act a =>
      have ha : a.emits = false := Bool.not_eq_true' _ |>.mp hkeeps
      have heffect := a.effect_of_not_emits [] w'.sinks ha (hunits u)
      simp only [stroke, hsinks]
      refine ⟨?_, forall_update₂ hunits heffect.unit, heffect.sinks, ?_⟩
      · have hends := congrArg Overflow.ofOutcome? heffect.outcome
        rw [Overflow.ofOutcome?_map, Overflow.ofOutcome?_map] at hends
        exact hends
      · simp [htold, ha, Told.withoutProgram, heffect.outcome]
    | joint j => cases hkeeps
  leftOut {u k w w'} _ hkeeps h := by
    obtain ⟨hunits, hsinks, htold⟩ := h
    cases k with
    | act a =>
      have ha : a.emits = true := Bool.not_eq_false' _ |>.mp hkeeps
      obtain ⟨hunit, hafter⟩ := a.effect_of_emits [] w.sinks ha (hunits u)
      refine ⟨forall_update hunits hunit, hafter.trans hsinks, ?_⟩
      simp [stroke, ha, htold]
    | joint j =>
      cases j with
      | label => exact ⟨forall_update hunits ((hunits u).of_take .label), hsinks, htold⟩
      | put r => exact ⟨forall_update hunits ((hunits u).of_request _), hsinks, htold⟩
      | forget n => exact ⟨hunits, hsinks, htold⟩

end Workshop

/-- Let all units of a script have a compilation and all its texts be given outright. Without the
actions on symbols and diagnostics, at any depth, it overflows where it did, leaves the same
programs and counters, and what it emits and the labels it takes have the same outcomes. If it
runs without an overflow, then without what emits or takes a label, with the blocks of
conditionals and loops in their places, it runs without one, leaves the same symbols, marks and
diagnostics, and its actions are the other ones, with the same outcomes apart from programs. The
journals compared are faithful to the answers. -/
theorem sides_do_not_interfere (v : Verbosity) (s : Session) (script : List Statement)
    (hunits : ∀ u ∈ Script.blockUnits script, (s.unit? u).isSome = true)
    (hliteral : ∀ o ∈ Script.blockOperands script, o.isLiteral = true) :
    (∀ part, Journal.Faithful v s part) ∧
    ((Session.run v (selectBlock .code script) s).1.filterMap Session.Step.overflow? =
        (Session.run v script s).1.filterMap Session.Step.overflow? ∧
      (∀ u, ((Session.run v (selectBlock .code script) s).2.unit? u).map
          (fun c => (c.program, c.supply)) =
        ((Session.run v script s).2.unit? u).map fun c => (c.program, c.supply)) ∧
      ((Journal.run v (selectBlock .code script) ⟨s, []⟩).2.deeds.map Deed.told).filter
          (fun t => t.2.1.emits) =
        ((Journal.run v script ⟨s, []⟩).2.deeds.map Deed.told).filter fun t => t.2.1.emits) ∧
    ((∀ step ∈ (Session.run v script s).1, step.outcome.isOk = true) →
      (∀ step ∈ (Session.run v (selectBlock .notes script) s).1, step.outcome.isOk = true) ∧
      (∀ u, ((Session.run v (selectBlock .notes script) s).2.unit? u).map
          (fun c => (c.table, c.errors)) =
        ((Session.run v script s).2.unit? u).map fun c => (c.table, c.errors)) ∧
      (Journal.run v (selectBlock .notes script) ⟨s, []⟩).2.deeds.map
        (fun deed => deed.told.withoutProgram) =
          (((Journal.run v script ⟨s, []⟩).2.deeds.map Deed.told).filter fun t => !t.2.1.emits).map
          Told.withoutProgram) := by
  have hplain := Session.plain_strokes hunits hliteral
  refine ⟨Journal.faithful v s, ?_, fun hok => ?_⟩
  · obtain ⟨hoverflows, hrelated⟩ := Session.related_of_silent (v := v) Workshop.ignores_code hplain
      (fun _ _ => trivial) ⟨fun _ => ⟨rfl, rfl⟩, rfl, rfl⟩ Workshop.silent_code fun _ => rfl
    refine ⟨hoverflows, fun u => hrelated.map_unit? fun w w' hsame => ?_, ?_⟩
    · rw [(hsame.units u).program, (hsame.units u).supply]
    · obtain ⟨w, w', hsame, hshows, hshows'⟩ := hrelated
      rw [hshows'.told, hshows.told, hsame.told]
  · obtain ⟨hdone, hrelated⟩ :=
      Session.related_of_isOk Workshop.ignores_notes hplain (fun _ _ => trivial)
        ⟨fun _ => ⟨rfl, rfl, rfl⟩, rfl, rfl⟩ hok
    refine ⟨hdone, fun u => hrelated.map_unit? fun w w' hsame => ?_, ?_⟩
    · rw [(hsame.units u).table, (hsame.units u).errors]
    · obtain ⟨w, w', hsame, hshows, hshows'⟩ := hrelated
      rw [hshows.told, hsame.told, ← hshows'.told, List.map_map]
      rfl

/-- Declarations, a look-up and a report around two instructions that need a temporary. -/
def interleaved : List Statement :=
  [.ifThen 0 plainTest
    [.act 0 (.declare ⟨.literal "x", .literal "int", 0, none⟩ none),
      .act 0 (.emit (.binary (.literal "x") (.literal "+") (.literal "y")) none),
      .act 0 (.resolve none (.literal "y") 0 none),
      .act 0 (.emit (.index (.literal "x") (.literal "y")) none),
      .act 0 (.report none (.message ⟨.literal "late", []⟩))]]

/-- A unit with one temporary left. -/
def almostUsedUp : Session := { units := [some halfDone] }

/-- A unit with nothing done yet. -/
def oneBlank : Session := { units := [some {}] }

/-- With one temporary left the second instruction overflows, with or without the declaration before
it; with temporaries enough the notes are the same without the conditional. -/
theorem interleaved_sides_do_not_interfere :
    (Session.run 0 interleaved almostUsedUp).1.filterMap Session.Step.overflow? = [⟨.temp⟩] ∧
    (Session.run 0 (selectBlock .code interleaved) almostUsedUp).1.filterMap
      Session.Step.overflow? = [⟨.temp⟩] ∧
    selectBlock .notes interleaved =
      [.act 0 (.declare ⟨.literal "x", .literal "int", 0, none⟩ none),
        .act 0 (.resolve none (.literal "y") 0 none),
        .act 0 (.report none (.message ⟨.literal "late", []⟩))] ∧
    ((Session.run 0 (selectBlock .notes interleaved) oneBlank).2.unit? 0).map
        (fun c => (c.table, c.errors)) =
      ((Session.run 0 interleaved oneBlank).2.unit? 0).map fun c => (c.table, c.errors) := by
  have hoverflow : (Session.run 0 interleaved almostUsedUp).1.filterMap Session.Step.overflow? =
      [⟨.temp⟩] := by decide +kernel
  have hok : (Session.run 0 interleaved oneBlank).1.all (fun step => step.outcome.isOk) = true := by
    decide +kernel
  obtain ⟨-, ⟨hsame, -⟩, -⟩ :=
    sides_do_not_interfere 0 almostUsedUp interleaved (by decide) (by decide)
  obtain ⟨-, -, hnotes⟩ := sides_do_not_interfere 0 oneBlank interleaved (by decide) (by decide)
  obtain ⟨-, hunits, -⟩ := hnotes (List.all_eq_true.mp hok)
  exact ⟨hoverflow, hsame.trans hoverflow, rfl, hunits 0⟩

end ThreeAddress
