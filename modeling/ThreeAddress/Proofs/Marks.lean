import ThreeAddress.Proofs.Declarations
import ThreeAddress.Proofs.Failures
import ThreeAddress.Proofs.Omissions

/-!
# Who marks a symbol

A symbol is marked as soon as a look-up gives its number, and by nothing else. A unit works on its
table through its actions, and the look-ups of names to be resolved are among them. Main statements:
the symbols without a mark are exactly those whose number no look-up gave, in a table as in a unit;
and resolving a name gives that name, marks the symbol it stands for and changes nothing else, or
reports that it stands for nothing.
-/

namespace ThreeAddress

open Script (Action Bindings Operand Place Statement UnitId)

namespace SymbolTable

variable {t : SymbolTable}

/-- The number of the symbol that a name stands for: the one that has it in the scope asked for, or,
if there is none, the one that has it in the global scope. -/
def Denotes (t : SymbolTable) (id : Nat) (name : Text) (scope : Scope) : Prop :=
  t.Holds id name scope ∨ (∀ other, ¬t.Holds other name scope) ∧ t.Holds id name globalScope

theorem Denotes.lt_size {id : Nat} {name : Text} {scope : Scope} (h : t.Denotes id name scope) :
    id < t.size := by
  rcases h with hown | ⟨-, hglobal⟩
  · exact hown.lt_size
  · exact hglobal.lt_size

/-- A name stands for the symbol that has it in a scope or in the global one, if there is one. -/
theorem exists_denotes_iff {name : Text} {scope : Scope} :
    (∃ id, t.Denotes id name scope) ↔
      ∃ id, t.Holds id name scope ∨ t.Holds id name globalScope := by
  constructor
  · rintro ⟨id, hown | ⟨-, hglobal⟩⟩
    · exact ⟨id, .inl hown⟩
    · exact ⟨id, .inr hglobal⟩
  · rintro ⟨id, hid⟩
    by_cases hown : ∃ other, t.Holds other name scope
    · obtain ⟨other, hother⟩ := hown
      exact ⟨other, .inl hother⟩
    · have hglobal := hid.resolve_left fun h => hown ⟨id, h⟩
      exact ⟨id, .inr ⟨fun other h => hown ⟨other, h⟩, hglobal⟩⟩

/-- The number that a look-up gave. -/
def Op.found? : Op → Answer → Option Nat
  | lookup .., .id (.ok id) => some id
  | _, _ => none

/-- A look-up gives the number of the symbol that the name stands for, and
other operations find nothing. -/
theorem Coherent.found?_apply_iff (h : Coherent t) (op : Op) (id : Nat) :
    op.found? (op.apply t).1 = some id ↔
      ∃ name scope, op = .lookup name scope ∧ t.Denotes id name scope := by
  cases op with
  | lookup name scope =>
    have hdenotes := h.find?_eq_some_iff name scope id
    cases hfind : t.find? name scope with
    | none =>
      rw [hfind] at hdenotes
      simp [Op.apply, lookup, hfind, Op.found?, Denotes, ← hdenotes]
    | some found =>
      rw [hfind] at hdenotes
      simp [Op.apply, lookup, hfind, Op.found?, Denotes, ← hdenotes]
  | _ => simp [Op.found?]

/-- Setting a mark leaves the others alone. -/
theorem Coherent.used_mark (h : Coherent t) {found : Nat} (hfound : found < t.size) (id : Nat) :
    (t.mark found).used[id]? = if id = found then some true else t.used[id]? := by
  have hlt : found < t.used.size := h.size_used ▸ hfound
  rw [SymbolTable.mark, Array.getElem?_setIfInBounds, if_pos hlt]
  simp only [eq_comm]

/-- An operation sets the mark of the symbol that it finds, and no other. -/
theorem Coherent.used_apply (h : Coherent t) (op : Op) (id : Nat) :
    (op.apply t).2.used[id]? = some true ↔
      t.used[id]? = some true ∨ op.found? (op.apply t).1 = some id := by
  cases op with
  | declare s =>
    cases hfull : t.isFull with
    | true => simp [Op.apply, declare, hfull, Op.found?]
    | false =>
      cases hindex : t.index[s.key]? with
      | some prev => simp [Op.apply, declare, hfull, hindex, Op.found?]
      | none =>
        have happly : (Op.declare s).apply t = (.id (.ok t.size), t.push s) := by
          simp [Op.apply, declare, hfull, hindex]
        have hpush : (t.push s).used[id]? = if id = t.used.size then some false else t.used[id]? :=
          Array.getElem?_push
        rw [happly, hpush]
        by_cases hid : id = t.used.size
        · simp [hid, Op.found?]
        · simp [hid, Op.found?]
  | lookup name scope =>
    cases hfind : t.find? name scope with
    | none => simp [Op.apply, lookup, hfind, Op.found?]
    | some found =>
      have hlt := Denotes.lt_size ((h.find?_eq_some_iff name scope found).mp hfind)
      have happly : (Op.lookup name scope).apply t = (.id (.ok found), t.mark found) := by
        simp [Op.apply, lookup, hfind]
      rw [happly, h.used_mark hlt]
      by_cases hid : id = found
      · simp [hid, Op.found?]
      · simp [hid, Op.found?, Ne.symm hid]
  | symbol | size | symbols | unused | dump => simp [Op.apply, Op.found?]

/-- The numbers that the look-ups of a run gave, in order. -/
def found (v : Verbosity) (ops : List Op) (t : SymbolTable) : List Nat :=
  (ops.zip (run v ops t).1).filterMap fun x => x.1.found? x.2.answer

theorem found_cons (v : Verbosity) (op : Op) (rest : List Op) (t : SymbolTable) :
    found v (op :: rest) t = (op.found? (op.apply t).1).toList ++ found v rest (op.apply t).2 := by
  rw [found, run_cons, List.zip_cons_cons, List.filterMap_cons]
  cases op.found? (op.apply t).1 <;> rfl

/-- After a run those symbols have a mark that had one before and those that its look-ups found. -/
theorem Coherent.used_run (h : Coherent t) (v : Verbosity) (ops : List Op) (id : Nat) :
    (SymbolTable.run v ops t).2.used[id]? = some true ↔
      t.used[id]? = some true ∨ id ∈ found v ops t := by
  induction ops generalizing t with
  | nil => simp [SymbolTable.run, found]
  | cons op rest ih =>
    rw [run_cons, ih (h.apply op), h.used_apply op id, found_cons, List.mem_append,
      Option.mem_toList, or_assoc]

/-- The look-ups of a run find what their names stand for at that moment. -/
theorem Coherent.mem_found_iff (h : Coherent t) (v : Verbosity) (ops : List Op) (id : Nat) :
    id ∈ found v ops t ↔
      ∃ (i : Nat) (name : Text) (scope : Scope), ops[i]? = some (.lookup name scope) ∧
      (SymbolTable.run v (ops.take i) t).2.Denotes id name scope := by
  induction ops generalizing t with
  | nil => simp [SymbolTable.run, found]
  | cons op rest ih =>
    rw [found_cons, List.mem_append, Option.mem_toList, h.found?_apply_iff op id, ih (h.apply op)]
    constructor
    · rintro (⟨name, scope, rfl, hdenotes⟩ | ⟨i, name, scope, hi, hdenotes⟩)
      · exact ⟨0, name, scope, rfl, hdenotes⟩
      · exact ⟨i + 1, name, scope, hi, hdenotes⟩
    · rintro ⟨i, name, scope, hi, hdenotes⟩
      cases i with
      | zero => exact .inl ⟨name, scope, Option.some.inj hi, hdenotes⟩
      | succ i => exact .inr ⟨i, name, scope, hi, hdenotes⟩

/-- The symbols without a mark are those at the numbers where no mark is set. -/
theorem unmarked_eq_keptAt (all : List Symbol) (marks : List Bool) (keep : Nat → Bool)
    (hlength : marks.length = all.length)
    (hkeep : ∀ i : Nat, marks[i]? = some true ↔ keep i = false) :
    ((all.zip marks).filter fun e => !e.2).map Prod.fst = keptAt keep all := by
  induction all generalizing marks keep with
  | nil => simp [keptAt]
  | cons s rest ih =>
    obtain ⟨used, later, rfl⟩ : ∃ used later, marks = used :: later :=
      List.exists_cons_of_length_eq_add_one hlength
    have hrest := ih later (fun i => keep (i + 1)) (by simpa using hlength) fun i => hkeep (i + 1)
    have hfirst : used = true ↔ keep 0 = false := by simpa using hkeep 0
    rw [keptAt, ← hrest]
    cases hkeep0 : keep 0 with
    | true =>
      have hused : used = false := by simpa [hkeep0] using hfirst
      simp [hused]
    | false =>
      have hused : used = true := hfirst.mpr hkeep0
      simp [hused]

/-- The symbols of a table whose numbers are not among the given ones. -/
def symbolsExcept (t : SymbolTable) (ids : List Nat) : List Symbol :=
  keptAt (fun id => id ∉ ids) t.symbols.toList

/-- After any operations the symbols without a mark are those that no look-up found. -/
theorem unused_after (v : Verbosity) (limits : List Int64) (ops : List Op) :
    (after v limits ops).unused =
      (after v limits ops).symbolsExcept (found v ops (withLimits limits)) := by
  have hstart := coherent_withLimits limits
  have hcoherent : Coherent (after v limits ops) := hstart.run v ops
  refine unmarked_eq_keptAt _ _ _ ?_ fun id => ?_
  · rw [Array.length_toList, Array.length_toList, hcoherent.size_used]
  · have hnone : (withLimits limits).used[id]? = none := rfl
    rw [Array.getElem?_toList, after, hstart.used_run, hnone, decide_eq_false_iff_not, not_not]
    simp

end SymbolTable

/-! ## Tables of units -/

namespace Script

/-- What an action does to the table of its unit. -/
def Action.tableOp? (b : Bindings) : Action → Option SymbolTable.Op
  | .declare d typePos => some (.declare (d.spanned b typePos))
  | .resolve _ name scope _ => some (.lookup (name.read b) scope)
  | .table op => some (op.read b)
  | _ => none

/-- An action changes the table of its unit by what it does there. -/
theorem Action.table_effect (a : Action) (b : Bindings) (c : Compilation) (sinks : Sinks)
    (v : Verbosity) :
    (a.effect b c sinks).unit.table = (SymbolTable.run v (a.tableOp? b).toList c.table).2 := by
  cases a with
  | declare d typePos =>
    have hrun : (SymbolTable.run v ((Action.declare d typePos).tableOp? b).toList c.table).2 =
        (c.table.declare (d.spanned b typePos)).2 := rfl
    rw [effect, hrun]
    cases hresult : (c.table.declare (d.spanned b typePos)).1 with
    | ok id => exact (SymbolTable.declare_eq_ok hresult).2.symm
    | error e => exact (SymbolTable.declare_eq_error hresult).symm
  | resolve pos name scope bind =>
    have hrun : (SymbolTable.run v ((Action.resolve pos name scope bind).tableOp? b).toList
        c.table).2 = (c.table.lookup (name.read b) scope).2 := rfl
    rw [effect, hrun, SymbolTable.lookup]
    cases c.table.find? (name.read b) scope <;> rfl
  | emit r bind => exact c.table_request _
  | report pos cause =>
    rw [effect]
    cases cause.build? b sinks <;> rfl
  | _ => rfl

end Script

/-- What an action gives tells what the table answered; of a symbol that a name stands for, no
more than that there is one. -/
def Session.Result.TellsAnswer : Session.Result → SymbolTable.Answer → Prop
  | .declared r, answer => answer = .id r
  | .resolved (.ok _), answer => ∃ id, answer = .id (.ok id)
  | .resolved (.error e), answer => answer = .id (.error e)
  | .table a, answer => answer = a
  | _, _ => False

/-- An action that works on the table gives what the table answers. -/
theorem Script.Action.outcome_effect {a : Action} {b : Bindings} {op : SymbolTable.Op}
    (h : a.tableOp? b = some op) (c : Compilation) (sinks : Sinks) :
    ∃ result, (a.effect b c sinks).outcome = .ok result ∧
      result.TellsAnswer (op.apply c.table).1 := by
  cases a with
  | declare d typePos =>
    cases h
    have hanswer : ((SymbolTable.Op.declare (d.spanned b typePos)).apply c.table).1 =
        .id (c.table.declare (d.spanned b typePos)).1 := rfl
    rw [effect, hanswer]
    cases (c.table.declare (d.spanned b typePos)).1 <;> exact ⟨_, rfl, rfl⟩
  | resolve pos name scope bind =>
    cases h
    rw [effect, SymbolTable.Op.apply, SymbolTable.lookup]
    cases c.table.find? (name.read b) scope with
    | some id => exact ⟨_, rfl, id, rfl⟩
    | none => exact ⟨_, rfl, rfl⟩
  | table tableOp =>
    cases h
    exact ⟨_, rfl, rfl⟩
  | _ => cases h

/-- What an action that was performed did to the table of its unit. -/
def Deed.tableOp? (deed : Deed) : Option SymbolTable.Op := deed.action.tableOp? deed.before.bindings

/-- What actions did to the table of a unit, in order. -/
def tableOps (u : UnitId) (deeds : List Deed) : List SymbolTable.Op :=
  (deeds.filter fun deed => deed.unit = u).filterMap Deed.tableOp?

theorem tableOps_append (u : UnitId) (first later : List Deed) :
    tableOps u (first ++ later) = tableOps u first ++ tableOps u later := by
  rw [tableOps, List.filter_append, List.filterMap_append, tableOps, tableOps]

/-- Between two sessions, these actions worked on the tables. -/
def Session.Tabled (v : Verbosity) (deeds : List Deed) (s s' : Session) : Prop :=
  ∀ u, (s'.unit? u).map (·.table) =
    (s.unit? u).map fun c => (SymbolTable.run v (tableOps u deeds) c.table).2

namespace Session

variable {v : Verbosity} {s s' t : Session} {u : UnitId} {c c' : Compilation}
    {first later : List Deed}

theorem Tabled.refl (v : Verbosity) (s : Session) : Tabled v [] s s := fun _ => rfl

theorem Tabled.trans (h : Tabled v first s t) (h' : Tabled v later t s') :
    Tabled v (first ++ later) s s' := by
  intro u
  have hfirst := h u
  rw [h' u, tableOps_append]
  cases ht : t.unit? u with
  | none =>
    rw [ht] at hfirst
    rw [Option.map_none, eq_comm, Option.map_eq_none_iff]
    exact Option.map_eq_none_iff.mp hfirst.symm
  | some c =>
    rw [ht, Option.map_some, eq_comm, Option.map_eq_some_iff] at hfirst
    obtain ⟨c₀, hc₀, htable⟩ := hfirst
    rw [hc₀, Option.map_some, Option.map_some, SymbolTable.run_append, ← htable]

theorem Tabled.sameUnits (h : Tabled v first s s') : s.SameUnits s' := by
  intro u
  have htables := congrArg Option.isSome (h u)
  rwa [Option.isSome_map, Option.isSome_map] at htables

/-- A change of one unit that leaves its table alone. -/
theorem tabled_of_units (h : s.unit? u = some c) (hunits : s'.units = (s.setUnit u c').units)
    (htable : c'.table = c.table) : Tabled v [] s s' := by
  intro w
  rw [unit?_of_units h hunits w]
  split
  · rename_i hw
    rw [← hw, h, Option.map_some, htable]
    rfl
  · rfl

/-- An action works on the table of its own unit. -/
theorem tabled_performed {a : Action} {r : Except Overflow Result} (h : s.unit? u = some c)
    (hp : Performed v u c s a r s') : Tabled v [⟨u, a, s, r⟩] s s' := by
  intro w
  rw [unit?_of_units h (hp.effect h).2.1 w]
  by_cases hw : u = w
  · have hops : tableOps u [⟨u, a, s, r⟩] = (a.tableOp? s.bindings).toList := by
      simp only [tableOps, decide_true, List.filter_cons_of_pos, List.filter_nil]
      rw [List.filterMap_cons]
      simp only [Deed.tableOp?]
      cases a.tableOp? s.bindings <;> rfl
    rw [if_pos hw, ← hw, h, Option.map_some, Option.map_some, hops, a.table_effect]
  · have hops : tableOps w [⟨u, a, s, r⟩] = [] := by simp [tableOps, hw]
    rw [if_neg hw, hops]
    rfl

end Session

namespace Journal

/-- Between two journals, these actions were performed and worked on the tables, up to the end and
up to the moment when each of them began. -/
structure Tabled (v : Verbosity) (new : List Deed) (χ χ' : Journal) : Prop where
  deeds : χ'.deeds = χ.deeds ++ new
  whole : χ.session.Tabled v new χ'.session
  moments : ∀ (n : Nat) deed, new[n]? = some deed → χ.session.Tabled v (new.take n) deed.before

variable {v : Verbosity} {χ χ₁ χ₂ χ' : Journal} {first later : List Deed}

theorem Tabled.of_units (h : χ.session.Tabled v [] χ'.session) (hdeeds : χ'.deeds = χ.deeds) :
    Tabled v [] χ χ' := by
  refine ⟨by rw [hdeeds, List.append_nil], h, ?_⟩
  intro n deed hn
  cases hn

theorem Tabled.trans (h : Tabled v first χ χ₁) (h' : Tabled v later χ₁ χ₂) :
    Tabled v (first ++ later) χ χ₂ := by
  refine ⟨by rw [h'.deeds, h.deeds, List.append_assoc], h.whole.trans h'.whole, ?_⟩
  refine moments_append (S := fun deeds s => χ.session.Tabled v deeds s) h.moments ?_
  intro n deed hn
  exact h.whole.trans (h'.moments n deed hn)

theorem tabled_performed {u : UnitId} {c : Compilation} {a : Action}
    {r : Except Overflow Session.Result} {s' : Session} (hc : χ.session.unit? u = some c)
    (hp : Session.Performed v u c χ.session a r s') :
    Tabled v [⟨u, a, χ.session, r⟩] χ ⟨s', χ.deeds ++ [⟨u, a, χ.session, r⟩]⟩ := by
  refine ⟨rfl, Session.tabled_performed hc hp, ?_⟩
  intro n deed hn
  cases n with
  | zero =>
    cases hn
    exact .refl v χ.session
  | succ n => simp at hn

/-- Whatever a statement does to tables, it does by its actions. -/
theorem kept_tabled (v : Verbosity) : Kept v fun χ χ' => ∃ new, Tabled v new χ χ' where
  refl χ := ⟨[], .of_units (.refl v χ.session) rfl⟩
  trans := by
    rintro χ₁ χ₂ χ₃ ⟨first, h⟩ ⟨later, h'⟩
    exact ⟨first ++ later, h.trans h'⟩
  units := by
    rintro χ χ' ⟨new, h⟩
    exact h.whole.sameUnits
  label hc := ⟨[], .of_units (Session.tabled_of_units hc rfl rfl) rfl⟩
  emitted hc _ := ⟨[], .of_units (Session.tabled_of_units hc rfl rfl) rfl⟩
  exhausted hc _ := ⟨[], .of_units (Session.tabled_of_units hc rfl rfl) rfl⟩
  performed hc hp := ⟨_, tabled_performed hc hp⟩

/-- Whatever a script does to tables, it does by the actions in its journal. -/
theorem tabled_run (v : Verbosity) (script : List Statement) (s : Session) :
    Tabled v (run v script ⟨s, []⟩).2.deeds ⟨s, []⟩ (run v script ⟨s, []⟩).2 := by
  have hlog : ∀ χ : Journal, ∃ new, Tabled v new χ χ.clearLog :=
    fun χ => ⟨[], .of_units (.refl v χ.session) rfl⟩
  obtain ⟨new, h⟩ := (kept_tabled v).run hlog script ⟨s, []⟩
  have hnew : (run v script ⟨s, []⟩).2.deeds = new := h.deeds
  rw [hnew]
  exact h

end Journal

namespace Session

/-- The limits that were set for a unit, in order. -/
def plannedLimits (plans : List UnitPlan) (u : UnitId) : List Int64 :=
  (plans[u]?.map fun plan => plan.settings.filterMap Setting.limit?).getD []

/-- In a session that started, the table of a unit is what the actions on the
unit made of an empty one. -/
theorem Tabled.table_eq {plans : List UnitPlan} {v : Verbosity} {deeds : List Deed} {s : Session}
    {u : UnitId} {c : Compilation} (h : (start plans).2.Tabled v deeds s)
    (hc : s.unit? u = some c) :
    c.table = SymbolTable.after v (plannedLimits plans u) (tableOps u deeds) := by
  have htable := h u
  rw [hc, Option.map_some, eq_comm, Option.map_eq_some_iff] at htable
  obtain ⟨c₀, hc₀, hrun⟩ := htable
  obtain ⟨plan, hplan, -, -, hstart, -⟩ := start_unit hc₀
  have hlimits : plannedLimits plans u = plan.settings.filterMap Setting.limit? := by
    rw [plannedLimits, hplan]
    rfl
  rw [← hrun, hstart, SymbolTable.after, hlimits]

end Session

/-! ## Main statements -/

/-- For any operations on a new table, the symbols without a mark are, in order, those whose
numbers no look-up gave; a look-up gave the number of the symbol that its name stood for at that
moment, and whoever asked in between for the symbols without a mark got those whose numbers had not
been given so far. Without the look-ups all other operations show the same, unless they ask for the
marks. The table of a unit is what the actions on the unit, among which are those that resolve
names, made of a new table, at the end as well as whenever an action began, and what such an action
gave is what the table answered. -/
theorem marks_tell_what_was_found (v : Verbosity) :
    (∀ limits ops,
      (SymbolTable.after v limits ops).unused =
        (SymbolTable.after v limits ops).symbolsExcept
          (SymbolTable.found v ops (.withLimits limits)) ∧
      (∀ id, id ∈ SymbolTable.found v ops (.withLimits limits) ↔
        ∃ (i : Nat) (name : Text) (scope : Scope), ops[i]? = some (.lookup name scope) ∧
          (SymbolTable.after v limits (ops.take i)).Denotes id name scope) ∧
      (∀ i : Nat, ops[i]? = some .unused →
        (SymbolTable.run v ops (.withLimits limits)).1[i]?.map (·.answer) =
          some (.symbols ((SymbolTable.after v limits (ops.take i)).symbolsExcept
            (SymbolTable.found v (ops.take i) (.withLimits limits))))) ∧
      SymbolTable.plainSteps v (ops.filter fun op => !op.isLookup) (.withLimits limits) =
        SymbolTable.plainSteps v ops (.withLimits limits)) ∧
    ∀ plans script,
      (∀ (n : Nat) deed, (Journal.deedsOf v plans script)[n]? = some deed →
        ∃ c, deed.before.unit? deed.unit = some c ∧
          c.table = SymbolTable.after v (Session.plannedLimits plans deed.unit)
            (tableOps deed.unit ((Journal.deedsOf v plans script).take n)) ∧
          ∀ op, deed.tableOp? = some op →
            ∃ result, deed.outcome = .ok result ∧ result.TellsAnswer (op.apply c.table).1) ∧
      ∀ u c, (Session.run v script (Session.start plans).2).2.unit? u = some c →
        c.table = SymbolTable.after v (Session.plannedLimits plans u)
          (tableOps u (Journal.deedsOf v plans script)) ∧
        c.table.unused = c.table.symbolsExcept (SymbolTable.found v
          (tableOps u (Journal.deedsOf v plans script))
          (.withLimits (Session.plannedLimits plans u))) := by
  constructor
  · intro limits ops
    have hstart := SymbolTable.coherent_withLimits limits
    refine ⟨SymbolTable.unused_after v limits ops, hstart.mem_found_iff v ops, ?_, ?_⟩
    · intro i hi
      rw [SymbolTable.getElem?_steps, hi, ← SymbolTable.unused_after v limits (ops.take i)]
      rfl
    · exact (SymbolTable.SameSymbols.run_without_lookups ⟨rfl, rfl, rfl⟩ v ops).1
  · intro plans script
    have htabled : Journal.Tabled v (Journal.deedsOf v plans script) _ _ :=
      Journal.tabled_run v script (Session.start plans).2
    have htimeline : Journal.Timeline (Journal.deedsOf v plans script) _ _ :=
      Journal.timeline_run v script (Session.start plans).2
    constructor
    · intro n deed hdeed
      obtain ⟨c, hc, houtcome⟩ := htimeline.performed deed (List.mem_of_getElem? hdeed)
      refine ⟨c, hc, (htabled.moments n deed hdeed).table_eq hc, ?_⟩
      intro op hop
      rw [houtcome]
      exact Script.Action.outcome_effect hop c deed.before.sinks
    · intro u c hc
      rw [← (Journal.run_eq v script ⟨(Session.start plans).2, []⟩).2] at hc
      have htable := htabled.whole.table_eq hc
      refine ⟨htable, ?_⟩
      rw [htable]
      exact SymbolTable.unused_after v _ _

/-- One unit without settings. -/
def plainUnit : List Session.UnitPlan := [⟨"m", []⟩]

/-- A symbol at no place. -/
def inScope (name : Text) (scope : Scope) : Script.Declaration :=
  ⟨.literal name, .literal "int", scope, none⟩

/-- Two symbols of one name, of which the inner one is resolved, a global symbol resolved from an
inner scope, a name that stands for nothing, and a declaration that is refused. -/
def shadowing : List Statement :=
  [.act 0 (.declare (inScope "x" 0) none), .act 0 (.declare (inScope "x" 2) none),
    .act 0 (.declare (inScope "y" 0) none), .act 0 (.resolve none (.literal "x") 2 none),
    .act 0 (.resolve none (.literal "y") 2 none), .act 0 (.resolve none (.literal "z") 2 none),
    .act 0 (.declare (inScope "x" 0) none)]

/-- The look-ups find the inner of the two symbols and the global one, and the
outer one stays unmarked. -/
theorem shadowing_marks_tell_what_was_found :
    SymbolTable.found 0 (tableOps 0 (Journal.deedsOf 0 plainUnit shadowing)) (.withLimits []) =
      [1, 2] ∧
    ∃ c, (Session.run 0 shadowing (Session.start plainUnit).2).2.unit? 0 = some c ∧
      c.table.unused = [⟨"x", "int", 0, none⟩] := by
  have hfound : SymbolTable.found 0 (tableOps 0 (Journal.deedsOf 0 plainUnit shadowing))
      (.withLimits []) = [1, 2] := by decide +kernel
  have hunit : ((Session.run 0 shadowing (Session.start plainUnit).2).2.unit? 0).map
      (·.table.symbols.toList) =
        some [⟨"x", "int", 0, none⟩, ⟨"x", "int", 2, none⟩, ⟨"y", "int", 0, none⟩] := by
    decide +kernel
  obtain ⟨c, hc, hsymbols⟩ := Option.map_eq_some_iff.mp hunit
  obtain ⟨-, hunused⟩ := ((marks_tell_what_was_found 0).2 plainUnit shadowing).2 0 c hc
  have hlimits : Session.plannedLimits plainUnit 0 = [] := rfl
  rw [hlimits, hfound, SymbolTable.symbolsExcept, hsymbols] at hunused
  exact ⟨hfound, c, hc, hunused⟩

namespace Session

/-- A session that a script leaves, or in which one of its actions begins. -/
def Reached (plans : List UnitPlan) (s : Session) : Prop :=
  ∃ v script, (run v script (start plans).2).2 = s ∨ ∃ deed ∈ Journal.deedsOf v plans script,
    deed.before = s

theorem Reached.develops {plans : List UnitPlan} {s : Session} (h : s.Reached plans) :
    (start plans).2.Develops s := by
  obtain ⟨v, script, hs⟩ := h
  have htimeline : Journal.Timeline (Journal.deedsOf v plans script) _ _ :=
    Journal.timeline_run v script (start plans).2
  rcases hs with rfl | ⟨deed, hdeed, rfl⟩
  · rw [← (Journal.run_eq v script ⟨(start plans).2, []⟩).2]
    exact htimeline.whole
  · exact htimeline.since deed hdeed

end Session

/-- The symbol that a name stands for has that name. -/
theorem SymbolTable.Denotes.name_eq {t : SymbolTable} {id : Nat} {name : Text} {scope : Scope}
    (h : t.Denotes id name scope) : ((t.symbol? id).getD {}).name = name := by
  obtain ⟨s, hs, hname⟩ : ∃ s, t.symbols[id]? = some s ∧ s.name = name := by
    rcases h with ⟨s, hs, hname, -⟩ | ⟨-, s, hs, hname, -⟩
    · exact ⟨s, hs, hname⟩
    · exact ⟨s, hs, hname⟩
  rw [symbol?, if_pos (Int.natCast_nonneg id), Int.toNat_natCast, hs, Option.getD_some, hname]

namespace Session

variable {s : Session} {u : UnitId} {c : Compilation} {name : Operand} {scope : Scope}

/-- Resolving a name that stands for a symbol. -/
theorem resolve_run_of_denotes (hcoherent : c.table.Coherent) (hc : s.unit? u = some c) {id : Nat}
    (hdenotes : c.table.Denotes id (name.read s.bindings) scope) (v : Verbosity)
    (pos : Option Place) (bind : Option Operand) :
    (runAction v u (.resolve pos name scope bind)).run s =
      (.ok (.resolved (.ok (name.read s.bindings))),
        { s.setUnit u { c with table := c.table.mark id } with
        bindings := s.bindings.bind bind (name.read s.bindings) }) := by
  have hfind := (hcoherent.find?_eq_some_iff (name.read s.bindings) scope id).mpr hdenotes
  rw [runAction_resolve, getBindings_bind_run, run_bind, resolve_run_ok hc _ hfind,
    hdenotes.name_eq]
  rfl

/-- Resolving a name that stands for nothing. -/
theorem resolve_run_of_unknown (hcoherent : c.table.Coherent) (hc : s.unit? u = some c)
    (hunknown : ¬∃ id, c.table.Holds id (name.read s.bindings) scope ∨
      c.table.Holds id (name.read s.bindings) globalScope)
    (v : Verbosity) (pos : Option Place) (bind : Option Operand) :
    (runAction v u (.resolve pos name scope bind)).run s =
      (.ok (.resolved (.error (.notFound (name.read s.bindings) scope))),
        { s.reported u c ⟨pos.map (·.read s.bindings),
          .symbol (.notFound (name.read s.bindings) scope)⟩ with
            bindings := s.bindings.bind bind [] }) := by
  have hfind : c.table.find? (name.read s.bindings) scope = none :=
    (hcoherent.find?_eq_none_iff (name.read s.bindings) scope).mpr fun id =>
      ⟨fun h => hunknown ⟨id, .inl h⟩, fun h => hunknown ⟨id, .inr h⟩⟩
  rw [runAction_resolve, getBindings_bind_run, run_bind, resolve_run_error hc _ hfind]
  rfl

end Session

/-- In every session that can be reached, resolving a name in a unit succeeds exactly if the table
of the unit has the name in the scope or in the global one. Then it gives the name itself and sets
the mark of the symbol that the name stands for, the one in the scope if there are two; no other
mark, no other part of the unit and no other part of the session changes, except that the name is
bound. Otherwise it gives the empty name and tells what was not found where; one diagnostic with
this failure and the given place is added to the unit, and nothing else of any unit changes. -/
theorem resolving_is_faithful {plans : List Session.UnitPlan} {s : Session} {u : UnitId}
    {c : Compilation} (hs : s.Reached plans) (hc : s.unit? u = some c) (v : Verbosity)
    (pos : Option Place) (name : Operand)
    (scope : Scope) (bind : Option Operand) :
    let sought := name.read s.bindings
    let done := (Session.runAction v u (.resolve pos name scope bind)).run s
    let known := ∃ id, c.table.Holds id sought scope ∨ c.table.Holds id sought globalScope
    ((∃ operand, done.1 = .ok (.resolved (.ok operand))) ↔ known) ∧
    (known → done.1 = .ok (.resolved (.ok sought)) ∧
      ∃ id used, c.table.Denotes id sought scope ∧
        (∀ i : Nat, used[i]? = if i = id then some true else c.table.used[i]?) ∧
        done.2 = { s.setUnit u { c with table := { c.table with used } } with
          bindings := s.bindings.bind bind sought }) ∧
    (¬known → done.1 = .ok (.resolved (.error (.notFound sought scope))) ∧
      done.2.bindings = s.bindings.bind bind [] ∧
      ∀ w, done.2.unit? w =
        if u = w then some { c with errors := c.errors ++
          [⟨pos.map (·.read s.bindings), .symbol (.notFound sought scope)⟩] }
        else s.unit? w) := by
  intro sought done known
  have hcoherent : c.table.Coherent := (hs.develops.table hc).1
  by_cases hknown : known
  · obtain ⟨id, hdenotes⟩ := SymbolTable.exists_denotes_iff.mpr hknown
    have hdone : done = _ := Session.resolve_run_of_denotes hcoherent hc hdenotes v pos bind
    rw [hdone]
    refine ⟨iff_of_true ⟨sought, rfl⟩ hknown, fun _ => ⟨rfl, ?_⟩,
      fun hunknown => absurd hknown hunknown⟩
    exact ⟨id, (c.table.mark id).used, hdenotes, hcoherent.used_mark hdenotes.lt_size, rfl⟩
  · have hdone : done = _ := Session.resolve_run_of_unknown hcoherent hc hknown v pos bind
    rw [hdone]
    refine ⟨iff_of_false ?_ hknown, fun h => absurd h hknown, fun _ => ⟨rfl, rfl, ?_⟩⟩
    · rintro ⟨operand, hoperand⟩
      cases hoperand
    · intro w
      exact Session.unit?_of_units hc rfl w

/-- A place to resolve a name at. -/
def lastPlace : Place := ⟨.literal "f", 1, 2, 3⟩

/-- Afterwards the inner symbol and the name that stands for nothing are
resolved once more, as before. -/
theorem shadowing_resolves_faithfully :
    ∃ s c, s.Reached plainUnit ∧ s.unit? 0 = some c ∧
      ((Session.runAction 0 0 (.resolve none (.literal "x") 2 none)).run s).1 =
        .ok (.resolved (.ok "x")) ∧
      ((Session.runAction 0 0 (.resolve (some lastPlace) (.literal "z") 2 none)).run s).1 =
        .ok (.resolved (.error (.notFound "z" 2))) ∧
      ((Session.runAction 0 0 (.resolve (some lastPlace) (.literal "z") 2 none)).run s).2.unit? 0 =
        some { c with
          errors := c.errors ++ [⟨some ⟨"f", 1, 2, 3⟩, .symbol (.notFound "z" 2)⟩] } := by
  have hreached : (Session.run 0 shadowing (Session.start plainUnit).2).2.Reached plainUnit :=
    ⟨0, shadowing, .inl rfl⟩
  have hunit : ((Session.run 0 shadowing (Session.start plainUnit).2).2.unit? 0).map
      (·.table.symbols) =
        some #[⟨"x", "int", 0, none⟩, ⟨"x", "int", 2, none⟩, ⟨"y", "int", 0, none⟩] := by
    decide +kernel
  obtain ⟨c, hc, hsymbols⟩ := Option.map_eq_some_iff.mp hunit
  have hinner : c.table.Holds 1 "x" 2 := ⟨⟨"x", "int", 2, none⟩, by rw [hsymbols]; rfl, rfl, rfl⟩
  have hmissing : ¬∃ id, c.table.Holds id "z" 2 ∨ c.table.Holds id "z" globalScope := by
    have hnames : ∀ s ∈ c.table.symbols, s.name ≠ "z" := by
      rw [hsymbols]
      decide
    rintro ⟨id, ⟨s, hs, hname, -⟩ | ⟨s, hs, hname, -⟩⟩
    · exact hnames s (Array.mem_of_getElem? hs) hname
    · exact hnames s (Array.mem_of_getElem? hs) hname
  have hfaithful := resolving_is_faithful hreached hc 0 none (.literal "x") 2 none
  have hlost := resolving_is_faithful hreached hc 0 (some lastPlace) (.literal "z") 2 none
  obtain ⟨htold, -, hunits⟩ := hlost.2.2 hmissing
  exact ⟨_, c, hreached, hc, (hfaithful.2.1 ⟨1, .inl hinner⟩).1, htold, hunits 0⟩

end ThreeAddress
