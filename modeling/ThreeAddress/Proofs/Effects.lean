import Mathlib.Logic.Relation
import ThreeAddress.Proofs.Host
import ThreeAddress.Proofs.Names

/-!
# What work does to a unit

One specification for each single step of a session: its result, the bindings after it and the
change that it makes to a unit. From these follows, for a whole script, that every unit goes through
a chain of single changes, whether the script ends normally or by an overflow.
-/

open Relation (ReflTransGen)

namespace ThreeAddress

open Script (Action Bindings Statement UnitId)

/-- An action that neither emits nor takes a label nor sets the counters. -/
def Script.Action.Quiet : Action → Prop
  | .emit .. | .label .. | .setCounters .. => False
  | _ => True

/-- An action that sets the counters of its unit. -/
def Script.Action.setsCounters : Action → Bool
  | .setCounters .. => true
  | _ => false

/-- The actions that are not quiet. -/
theorem Script.Action.cases_of_not_quiet {a : Action} (h : ¬a.Quiet) :
    (∃ r bind, a = .emit r bind) ∨ (∃ bind, a = .label bind) ∨
      ∃ temps labels, a = .setCounters temps labels := by
  cases a with
  | emit r bind => exact .inl ⟨r, bind, rfl⟩
  | label bind => exact .inr (.inl ⟨bind, rfl⟩)
  | setCounters temps labels => exact .inr (.inr ⟨temps, labels, rfl⟩)
  | _ => exact absurd trivial h

/-- Work that comes first hands on its result; when it ends by a failure nothing follows. -/
theorem run_bind {σ ε α β : Type} (x : ExceptT ε (StateM σ) α) (f : α → ExceptT ε (StateM σ) β)
    (s : σ) : (x >>= f).run s = match x.run s with
      | (.ok a, s') => (f a).run s'
      | (.error e, s') => (.error e, s') := by
  have h : (x >>= f).run s = ExceptT.bindCont f (x.run s).1 (x.run s).2 := rfl
  rw [h]
  rcases x.run s with ⟨r, s'⟩
  cases r <;> rfl

/-- Work in a larger state does to the session in it what work in the session alone
does, with the same outcome. -/
def Mirrors {σ α : Type} (view : σ → Session) (work : SessionM α)
    (larger : ExceptT Overflow (StateM σ) α) : Prop :=
  ∀ x, (larger.run x).1 = (work.run (view x)).1 ∧ view (larger.run x).2 = (work.run (view x)).2

theorem Mirrors.bind {σ α β : Type} {view : σ → Session} {x : SessionM α}
    {y : ExceptT Overflow (StateM σ) α} {f : α → SessionM β} {g : α → ExceptT Overflow (StateM σ) β}
    (hxy : Mirrors view x y) (hfg : ∀ a, Mirrors view (f a) (g a)) :
    Mirrors view (x >>= f) (y >>= g) := by
  intro z
  obtain ⟨houtcome, hsession⟩ := hxy z
  rw [run_bind, run_bind]
  rcases hy : y.run z with ⟨r, z'⟩
  rcases hx : x.run (view z) with ⟨r', s'⟩
  rw [hx, hy] at houtcome hsession
  cases houtcome
  cases hsession
  cases r with
  | ok a => exact hfg a z'
  | error e => exact ⟨rfl, rfl⟩

namespace Compilation

/-- The compilation after a name was taken from its supply, or could not be. -/
def take (c : Compilation) (category : Category) : Compilation :=
  { c with supply := (c.supply.fresh category).2 }

/-- The compilation after a request: with the instruction, if it could be made. -/
def request (c : Compilation) (r : Request Text) : Compilation :=
  match r.build c.supply with
  | (.ok i, supply) => { c with supply }.emit i
  | (.error _, supply) => { c with supply }

theorem take_of_eq_top {c : Compilation} {category : Category}
    (h : c.supply.number category = NameSupply.top) : c.take category = c := by
  rw [take, NameSupply.fresh_of_eq_top h]

theorem take_of_ne_top {c : Compilation} {category : Category}
    (h : c.supply.number category ≠ NameSupply.top) :
    c.take category = { c with supply := c.supply.advance category } := by
  rw [take, NameSupply.fresh_of_ne_top h]

/-- A request without a result only adds its instruction. -/
theorem request_of_not_stores {r : Request Text} (h : r.stores = false) (dst : Text)
    (c : Compilation) : c.request r = c.emit (r.instr dst) := by
  rw [request, Request.build_of_not_stores h dst]

/-- A request with a result changes nothing when no temporary is left. -/
theorem request_of_eq_top {r : Request Text} (h : r.stores = true) {c : Compilation}
    (ht : c.supply.number .temp = NameSupply.top) : c.request r = c := by
  rw [request, Request.build_of_eq_top h ht]

/-- A request with a result takes the next temporary and adds the instruction that stores in it. -/
theorem request_of_ne_top {r : Request Text} (h : r.stores = true) {c : Compilation}
    (ht : c.supply.number .temp ≠ NameSupply.top) :
    c.request r = { c with supply := c.supply.advance .temp }.emit
      (r.instr (Category.temp.named (c.supply.number .temp))) := by
  rw [request, Request.build_of_ne_top h ht]

/-- A change to what a compilation knows, which leaves its program and its counters alone. -/
inductive Note (c : Compilation) : Compilation → Prop where
  /-- Work on the table. -/
  | table (op : SymbolTable.Op) : Note c { c with table := (op.apply c.table).2 }
  /-- A diagnostic. -/
  | record (d : Diagnostic) : Note c (c.record d)

/-- A single change to a compilation. Its counters are set from outside only if that is allowed. -/
inductive Change (resets : Prop) (c : Compilation) : Compilation → Prop where
  /-- A change to what it knows. -/
  | note {c' : Compilation} (h : Note c c') : Change resets c c'
  /-- A label taken. -/
  | label : Change resets c (c.take .label)
  /-- An instruction requested. -/
  | request (r : Request Text) : Change resets c (c.request r)
  /-- The counters set. -/
  | counters (h : resets) (supply : NameSupply) : Change resets c { c with supply }

/-- Changes to what a compilation knows leave its program and its counters alone. -/
theorem notes_keep_code {c c' : Compilation} (h : ReflTransGen Note c c') :
    c'.program = c.program ∧ c'.supply = c.supply := by
  induction h with
  | refl => exact ⟨rfl, rfl⟩
  | tail _ hstep ih =>
    cases hstep with
    | table op => exact ih
    | record d => exact ih

end Compilation

namespace Session

variable {α β : Type}

theorem unit_of_unit? {s : Session} {u : UnitId} {c : Compilation} (h : s.unit? u = some c) :
    s.unit u = c := by
  rw [unit, h, Option.getD_some]

/-- One session comes from another by a change to the compilation of a single unit. -/
def Touched (w : UnitId) (change : Compilation → Compilation) (s s' : Session) : Prop :=
  ∀ u, s'.unit? u = if w = u then (s.unit? u).map change else s.unit? u

theorem touched_setUnit (s : Session) (w : UnitId) (change : Compilation → Compilation) :
    Touched w change s (s.setUnit w (change (s.unit w))) := by
  intro u
  rw [unit?_setUnit]
  split
  · rename_i hw
    subst hw
    cases hu : s.unit? w with
    | none => rfl
    | some c => rw [unit_of_unit? hu, Option.map_some, Option.map_some]
  · rfl

theorem Touched.trans {w : UnitId} {f g : Compilation → Compilation} {s t r : Session}
    (h₁ : Touched w f s t) (h₂ : Touched w g t r) : Touched w (g ∘ f) s r := by
  intro u
  rw [h₂ u, h₁ u]
  split
  · rw [Option.map_map]
  · rfl

theorem Touched.self {u : UnitId} {change : Compilation → Compilation} {s s' : Session}
    {c : Compilation} (h : Touched u change s s') (hc : s.unit? u = some c) :
    s'.unit? u = some (change c) := by
  rw [h u, if_pos rfl, hc, Option.map_some]

theorem Touched.other {w u : UnitId} {change : Compilation → Compilation} {s s' : Session}
    (h : Touched w change s s') (hne : w ≠ u) : s'.unit? u = s.unit? u := by
  rw [h u, if_neg hne]

/-- Taking a name gives what the supply of the unit gives, and changes that supply. -/
theorem fresh_spec (w : UnitId) (category : Category) (s : Session) :
    ∃ s', (fresh w category).run s = (((s.unit w).supply.fresh category).1, s') ∧
      s'.bindings = s.bindings ∧ Touched w (·.take category) s s' := by
  refine ⟨s.setUnit w ((s.unit w).take category), ?_, rfl, touched_setUnit s w (·.take category)⟩
  have h : (fresh w category).run s =
      (do
        putUnit w ((s.unit w).take category)
        ofExcept ((s.unit w).supply.fresh category).1 : SessionM Text).run s := rfl
  rw [h]
  cases ((s.unit w).supply.fresh category).1 <;> rfl

/-- Emitting gives the instruction that the supply of the unit allows to make, and appends it. -/
theorem emit_spec (v : Verbosity) (w : UnitId) (r : Request Text) (s : Session) :
    ∃ s', (emit v w r).run s = ((r.build (s.unit w).supply).1, s') ∧
      s'.bindings = s.bindings ∧ Touched w (·.request r) s s' := by
  rcases hb : r.build (s.unit w).supply with ⟨made, supply⟩
  have htaken := touched_setUnit s w fun c => { c with supply := (r.build c.supply).2 }
  simp only [hb] at htaken
  have h : (emit v w r).run s =
      (do
        putUnit w { s.unit w with supply := (r.build (s.unit w).supply).2 }
        let i ← ofExcept (r.build (s.unit w).supply).1
        write (i.trace v)
        append w i
        return i : SessionM Instr).run s := rfl
  rw [hb] at h
  -- What the request changes is determined by the unit as it was, so only that unit matters.
  have hsame : ∀ change : Compilation → Compilation, change (s.unit w) = (s.unit w).request r →
      ∀ s', Touched w change s s' → Touched w (·.request r) s s' := by
    intro change heq s' ht u
    rw [ht u]
    split
    · rename_i hw
      subst hw
      cases hu : s.unit? w with
      | none => rfl
      | some c => rw [Option.map_some, Option.map_some, ← unit_of_unit? hu, heq]
    · rfl
  cases made with
  | error e =>
    refine ⟨s.setUnit w { s.unit w with supply }, h, rfl, ?_⟩
    refine hsame _ ?_ _ htaken
    simp only [Compilation.request, hb]
  | ok i =>
    have hput := touched_setUnit (s.setUnit w { s.unit w with supply }) w (·.emit i)
    refine ⟨((emit v w r).run s).2, Prod.ext (by rw [h]; rfl) rfl, by rw [h]; rfl, ?_⟩
    rw [h]
    refine hsame _ ?_ _ (htaken.trans hput)
    simp only [Compilation.request, hb, Function.comp_apply]

/-- What an action that emitted an instruction gives. -/
def emitted (i : Instr) : Result :=
  match i.dst? with
  | none => .done
  | some dst => .temp dst

/-- The bindings after an instruction was emitted whose result is to be bound. -/
def boundResult (b : Bindings) (bind : Option Script.Operand) (i : Instr) : Bindings :=
  match i.dst? with
  | none => b
  | some dst => b.bind bind dst

/-- An action that emits reads its operands and makes the request; a result is bound. -/
theorem runAction_emit_spec (v : Verbosity) (w : UnitId) (r : Request Script.Operand)
    (bind : Option Script.Operand) (s : Session) :
    ∃ s', (runAction v w (.emit r bind)).run s =
        (((r.map (·.read s.bindings)).build (s.unit w).supply).1.map emitted, s') ∧
      s'.bindings = (match ((r.map (·.read s.bindings)).build (s.unit w).supply).1 with
        | .ok i => boundResult s.bindings bind i
        | .error _ => s.bindings) ∧
      Touched w (·.request (r.map (·.read s.bindings))) s s' := by
  obtain ⟨s', hrun, hb, ht⟩ := emit_spec v w (r.map (·.read s.bindings)) s
  have h : (runAction v w (.emit r bind)).run s =
      (emit v w (r.map (·.read s.bindings)) >>= fun i => match i.dst? with
        | none => return .done
        | some dst => do
          bindResult bind dst
          return .temp dst : SessionM Result).run s := rfl
  rw [h, run_bind, hrun]
  generalize ((r.map (·.read s.bindings)).build (s.unit w).supply).1 = made
  cases made with
  | error e => exact ⟨s', rfl, hb, ht⟩
  | ok i =>
    cases hd : i.dst? with
    | none =>
      refine ⟨s', ?_, ?_, ht⟩
      · simp only [emitted, hd, Except.map]
        rfl
      · simp only [boundResult, hd, hb]
    | some dst =>
      refine ⟨{ s' with bindings := s'.bindings.bind bind dst }, ?_, ?_, ht⟩
      · simp only [emitted, hd, Except.map]
        rfl
      · simp only [boundResult, hd, hb]

/-- An action that takes a label gives it and binds it. -/
theorem runAction_label_spec (v : Verbosity) (w : UnitId) (bind : Option Script.Operand)
    (s : Session) :
    ∃ s', (runAction v w (.label bind)).run s =
        (((s.unit w).supply.fresh .label).1.map Result.label, s') ∧
      s'.bindings = (match ((s.unit w).supply.fresh .label).1 with
        | .ok name => s.bindings.bind bind name
        | .error _ => s.bindings) ∧
      Touched w (·.take .label) s s' := by
  obtain ⟨s', hrun, hb, ht⟩ := fresh_spec w .label s
  have h : (runAction v w (.label bind)).run s =
      (fresh w .label >>= fun name => do
        bindResult bind name
        return .label name : SessionM Result).run s := rfl
  rw [h, run_bind, hrun]
  cases ((s.unit w).supply.fresh .label).1 with
  | error e => exact ⟨s', rfl, hb, ht⟩
  | ok name =>
    exact ⟨{ s' with bindings := s'.bindings.bind bind name }, rfl, by rw [← hb], ht⟩

/-- Setting the counters replaces the supply of the unit. -/
theorem runAction_setCounters_spec (v : Verbosity) (w : UnitId) (temps labels : Int64)
    (s : Session) :
    ∃ s', (runAction v w (.setCounters temps labels)).run s = (.ok .done, s') ∧
      Touched w (fun c => { c with supply := ⟨temps, labels⟩ }) s s' :=
  ⟨_, rfl, touched_setUnit s w fun c => { c with supply := ⟨temps, labels⟩ }⟩

/-- Work takes a unit through a chain of changes, whether it ends normally or not. -/
def Moves (u : UnitId) (S : Compilation → Compilation → Prop) (work : SessionM α) : Prop :=
  ∀ s c, s.unit? u = some c → ∃ c', (work.run s).2.unit? u = some c' ∧ ReflTransGen S c c'

namespace Moves

variable {u : UnitId} {S T : Compilation → Compilation → Prop}

theorem mono {work : SessionM α} (h : Moves u S work) (hST : ∀ c c', S c c' → T c c') :
    Moves u T work := by
  intro s c hc
  obtain ⟨c', hc', hchain⟩ := h s c hc
  exact ⟨c', hc', ReflTransGen.mono hST _ _ hchain⟩

/-- Work that touches no unit. -/
theorem of_units {work : SessionM α} (h : ∀ s, (work.run s).2.units = s.units) :
    Moves u S work := by
  intro s c hc
  have hunit : (work.run s).2.unit? u = s.unit? u := by simp only [unit?, h s]
  exact ⟨c, hunit.trans hc, .refl⟩

theorem pure (a : α) : Moves u S (Pure.pure a : SessionM α) := of_units fun _ => rfl

theorem bind {x : SessionM α} {f : α → SessionM β} (hx : Moves u S x) (hf : ∀ a, Moves u S (f a)) :
    Moves u S (x >>= f) := by
  intro s c hc
  obtain ⟨c₁, hc₁, h₁⟩ := hx s c hc
  rw [run_bind]
  rcases hrun : x.run s with ⟨r, t⟩
  rw [hrun] at hc₁
  cases r with
  | error e => exact ⟨c₁, hc₁, h₁⟩
  | ok a =>
    obtain ⟨c₂, hc₂, h₂⟩ := hf a t c₁ hc₁
    exact ⟨c₂, hc₂, h₁.trans h₂⟩

/-- Work that changes a single unit, when that change is allowed. -/
theorem of_touched {work : SessionM α} {w : UnitId}
    (h : ∀ s, ∃ change, Touched w change s (work.run s).2 ∧ ∀ c, ReflTransGen S c (change c)) :
    Moves u S work := by
  intro s c hc
  obtain ⟨change, ht, hS⟩ := h s
  by_cases hw : w = u
  · subst hw
    exact ⟨change c, ht.self hc, hS c⟩
  · exact ⟨c, (ht.other hw).trans hc, .refl⟩

/-- Work that reads a compilation, replaces it and goes on. -/
theorem update {w : UnitId} {change : Compilation → Compilation} {k : Compilation → SessionM α}
    (hchange : ∀ c, S c (change c)) (hk : ∀ c, Moves u S (k c)) :
    Moves u S (getUnit w >>= fun c => putUnit w (change c) >>= fun _ => k c) := by
  intro s c hc
  have hrun : (getUnit w >>= fun c => putUnit w (change c) >>= fun _ => k c).run s =
      (k (s.unit w)).run (s.setUnit w (change (s.unit w))) := rfl
  have ht := touched_setUnit s w change
  rw [hrun]
  by_cases hw : w = u
  · subst hw
    obtain ⟨c', hc', hchain⟩ := hk (s.unit w) _ _ (ht.self hc)
    exact ⟨c', hc', .head (hchange c) hchain⟩
  · exact hk (s.unit w) _ c ((ht.other hw).trans hc)

end Moves

open Compilation (Note Change)

variable {u : UnitId}

theorem moves_report (w : UnitId) (d : Diagnostic) : Moves u Note (report w d) :=
  .bind (.of_units fun _ => rfl) fun _ =>
    .update (fun _ => .record d) fun _ => .of_units fun _ => rfl

/-- Declaring a symbol replaces the symbol table and then tells what came of it. -/
theorem declare_eq (v : Verbosity) (w : UnitId) (s : Symbol) :
    declare v w s = getUnit w >>= fun c =>
      putUnit w { c with table := (c.table.declare s).2 } >>= fun _ => (do
        write (SymbolTable.declareLog v s (c.table.declare s).1)
        match (c.table.declare s).1 with
        | .ok _ => tally .symbolsDeclared
        | .error e => report w ⟨s.pos, .symbol e⟩
        return (c.table.declare s).1) := rfl

theorem moves_declare (v : Verbosity) (w : UnitId) (s : Symbol) : Moves u Note (declare v w s) := by
  rw [declare_eq]
  refine .update (fun c => .table (.declare s)) fun c => ?_
  refine .bind (.of_units fun _ => rfl) fun _ => ?_
  generalize (c.table.declare s).1 = result
  cases result with
  | ok id => exact .bind (.of_units fun _ => rfl) fun _ => .pure _
  | error e => exact .bind (moves_report w _) fun _ => .pure _

/-- Resolving a name replaces the symbol table and then gives the operand or
reports why there is none. -/
theorem resolve_eq (w : UnitId) (pos : Option Position) (name : Text) (scope : Scope) :
    resolve w pos name scope = getUnit w >>= fun c =>
      putUnit w { c with table := (c.table.lookup name scope).2 } >>= fun _ =>
        match (c.table.lookup name scope).1 with
        | .ok id => return .ok (((c.table.lookup name scope).2.symbol? id).getD {}).name
        | .error e => do
          report w ⟨pos, .symbol e⟩
          return .error e := rfl

theorem moves_resolve (w : UnitId) (pos : Option Position) (name : Text) (scope : Scope) :
    Moves u Note (resolve w pos name scope) := by
  rw [resolve_eq]
  refine .update (fun c => .table (.lookup name scope)) fun c => ?_
  generalize (c.table.lookup name scope).1 = result
  cases result with
  | ok id => exact .pure _
  | error e => exact .bind (moves_report w _) fun _ => .pure _

theorem moves_onTable (v : Verbosity) (w : UnitId) (op : SymbolTable.Op) :
    Moves u Note (onTable v w op) := by
  have h : onTable v w op = getUnit w >>= fun c =>
      putUnit w { c with table := (op.apply c.table).2 } >>= fun _ => (do
        write (op.log v (op.apply c.table).1)
        return (op.apply c.table).1) := rfl
  rw [h]
  exact .update (fun _ => .table op) fun _ => .bind (.of_units fun _ => rfl) fun _ => .pure _

/-- An action that neither emits nor takes a label nor sets the counters changes only what a
compilation knows. -/
theorem moves_runAction_of_quiet (v : Verbosity) (w : UnitId) {a : Action} (h : a.Quiet) :
    Moves u Note (runAction v w a) := by
  cases a with
  | declare d typePos =>
    exact .bind (.of_units fun _ => rfl) fun b => .bind (moves_declare v w _) fun _ => .pure _
  | resolve pos name scope bind =>
    refine .bind (.of_units fun _ => rfl) fun b => .bind (moves_resolve w _ _ _) fun _ => ?_
    exact .bind (.of_units fun _ => rfl) fun _ => .pure _
  | emit r bind => exact h.elim
  | label bind => exact h.elim
  | report pos cause =>
    refine .bind (.of_units fun _ => rfl) fun b => .bind (.of_units fun _ => rfl) fun _ => ?_
    refine .bind (.of_units fun _ => rfl) fun s => ?_
    cases cause.build? b s.sinks with
    | none => exact .pure _
    | some f => exact .bind (moves_report w _) fun _ => .pure _
  | setCounters temps labels => exact h.elim
  | table op =>
    exact .bind (.of_units fun _ => rfl) fun b => .bind (moves_onTable v w _) fun _ => .pure _
  | errors => exact .of_units fun _ => rfl
  | finish => exact .of_units fun _ => rfl
  | find kind => exact .of_units fun _ => rfl

/-- An action on another unit leaves the program and the counters of a unit alone. -/
theorem moves_runAction_of_ne (v : Verbosity) {w : UnitId} (hne : w ≠ u) (a : Action) :
    Moves u Note (runAction v w a) := by
  by_cases hq : a.Quiet
  · exact moves_runAction_of_quiet v w hq
  intro s c hc
  obtain ⟨r, bind, rfl⟩ | ⟨bind, rfl⟩ | ⟨temps, labels, rfl⟩ := Action.cases_of_not_quiet hq
  · obtain ⟨s', hrun, -, ht⟩ := runAction_emit_spec v w r bind s
    exact ⟨c, by rw [hrun, ht.other hne, hc], .refl⟩
  · obtain ⟨s', hrun, -, ht⟩ := runAction_label_spec v w bind s
    exact ⟨c, by rw [hrun, ht.other hne, hc], .refl⟩
  · obtain ⟨s', hrun, ht⟩ := runAction_setCounters_spec v w temps labels s
    exact ⟨c, by rw [hrun, ht.other hne, hc], .refl⟩

/-- An action takes a unit through single changes; only where that is
allowed are its counters set. -/
theorem moves_runAction {resets : Prop} (v : Verbosity) {w : UnitId} {a : Action}
    (ha : w = u → a.setsCounters = true → resets) : Moves u (Change resets) (runAction v w a) := by
  by_cases hw : w = u
  · by_cases hq : a.Quiet
    · exact (moves_runAction_of_quiet v w hq).mono fun _ _ => .note
    intro s c hc
    subst hw
    obtain ⟨r, bind, rfl⟩ | ⟨bind, rfl⟩ | ⟨temps, labels, rfl⟩ := Action.cases_of_not_quiet hq
    · obtain ⟨s', hrun, -, ht⟩ := runAction_emit_spec v w r bind s
      exact ⟨_, by rw [hrun, ht.self hc], .single (.request _)⟩
    · obtain ⟨s', hrun, -, ht⟩ := runAction_label_spec v w bind s
      exact ⟨_, by rw [hrun, ht.self hc], .single .label⟩
    · obtain ⟨s', hrun, ht⟩ := runAction_setCounters_spec v w temps labels s
      exact ⟨_, by rw [hrun, ht.self hc], .single (.counters (ha rfl rfl) _)⟩
  · exact (moves_runAction_of_ne v hw a).mono fun _ _ => .note

/-- The session takes a unit through changes of some sort if its actions do and if taking a label
and making a request are such changes. -/
theorem Moves.simulation (v : Verbosity) {S : Compilation → Compilation → Prop}
    {allowed : UnitId → Action → Prop} (hlabel : ∀ c, S c (c.take .label))
    (hrequest : ∀ c r, S c (c.request r))
    (hperform : ∀ w a, allowed w a → Moves u S (runAction v w a)) :
    Host.Simulation (host v) (host v) (fun _ => True) allowed (fun x _ => Moves u S x) where
  pure a := .pure a
  bind hx hf := hx.bind hf
  bindings := .of_units fun _ => rfl
  present _ _ := .of_units fun _ => rfl
  length _ _ := .of_units fun _ => rfl
  label w _ := by
    refine .of_touched (w := w) fun s => ?_
    obtain ⟨s', hrun, -, ht⟩ := fresh_spec w .label s
    exact ⟨(·.take .label), by rw [show (host v).label w = fresh w .label from rfl, hrun]; exact ht,
      fun c => .single (hlabel c)⟩
  emit w r _ := by
    refine .bind (.of_touched (w := w) fun s => ?_) fun _ => .pure _
    obtain ⟨s', hrun, -, ht⟩ := emit_spec v w r s
    exact ⟨(·.request r), by rw [hrun]; exact ht, fun c => .single (hrequest c r)⟩
  perform w a _ ha := hperform w a ha
  close _ _ := .pure _

/-- The session takes every unit through single changes. -/
theorem moves_simulation (v : Verbosity) (u : UnitId) (resets : Prop) :
    Host.Simulation (host v) (host v) (fun _ => True)
      (fun w a => w = u → a.setsCounters = true → resets) (fun x _ => Moves u (Change resets) x) :=
  Moves.simulation v (fun _ => .label) (fun _ => .request) fun _ _ => moves_runAction v

/-- A statement takes every unit through single changes, also when an overflow ends it. -/
theorem moves_runStatement (v : Verbosity) {resets : Prop} {st : Statement}
    (h : ∀ x ∈ st.actions, x.1 = u → x.2.setsCounters = true → resets) :
    Moves u (Change resets) (runStatement v st) := by
  rw [← host_runStatement]
  exact (moves_simulation v u resets).runStatement st (fun _ _ => trivial) h

/-- A script takes every unit through single changes, whatever overflows there are on the way. -/
theorem run_changes (v : Verbosity) {resets : Prop} {script : List Statement} {s : Session}
    {c : Compilation}
    (h : ∀ x ∈ Script.blockActions script, x.1 = u → x.2.setsCounters = true → resets)
    (hc : s.unit? u = some c) :
    ∃ c', (run v script s).2.unit? u = some c' ∧ ReflTransGen (Change resets) c c' := by
  induction script generalizing s c with
  | nil => exact ⟨c, hc, .refl⟩
  | cons st rest ih =>
    have hst : Moves u (Change resets) (runStatement v st) :=
      moves_runStatement v fun x hx => h x (by simp [Script.blockActions, hx])
    obtain ⟨c₁, hc₁, h₁⟩ := hst { s with log := [] } c hc
    have hrest : ∀ x ∈ Script.blockActions rest, x.1 = u → x.2.setsCounters = true → resets :=
      fun x hx => h x (by simp [Script.blockActions, hx])
    obtain ⟨c₂, hc₂, h₂⟩ := ih hrest (s := (step v st s).2) hc₁
    exact ⟨c₂, hc₂, h₁.trans h₂⟩

end Session

end ThreeAddress
