import ThreeAddress.Proofs.Footprint

/-!
# Units only grow

Whatever is done to a unit is added to what it holds: instructions, symbols and diagnostics stay
where they are, a symbol found once stays marked, and no counter goes back unless it is set from
outside. Between any two moments of a run every unit goes through single changes. Main statement:
every statement, also one that an overflow ends, extends every unit, and what a unit showed of its
program and its diagnostics is the beginning of what it shows later.
-/

open Relation (ReflTransGen)

namespace ThreeAddress

open Script (Action Statement UnitId)

/-! ## What a single change keeps -/

namespace SymbolTable

/-- Symbols stay where they are, and a symbol found once stays marked. -/
structure Extends (t t' : SymbolTable) : Prop where
  symbols : t.symbols.toList <+: t'.symbols.toList
  used : ∀ id : Nat, t.used[id]? = some true → t'.used[id]? = some true

theorem extends_apply (op : Op) (t : SymbolTable) : t.Extends (op.apply t).2 := by
  obtain hsame | ⟨s, -, -, -, happly⟩ | ⟨name, scope, found, -, -, happly⟩ := apply_cases op t
  · rw [hsame]
    exact ⟨List.prefix_rfl, fun _ h => h⟩
  · rw [happly]
    refine ⟨?_, fun id hid => ?_⟩
    · have hpush : (t.push s).symbols.toList = t.symbols.toList ++ [s] := Array.toList_push
      rw [hpush]
      exact List.prefix_append _ _
    · have hlt : id < t.used.size := (Array.getElem?_eq_some_iff.mp hid).1
      have hpush : (t.push s).used[id]? = if id = t.used.size then some false else t.used[id]? :=
        Array.getElem?_push
      rw [hpush, if_neg (by omega)]
      exact hid
  · rw [happly]
    refine ⟨List.prefix_rfl, fun id hid => ?_⟩
    have hlt : id < t.used.size := (Array.getElem?_eq_some_iff.mp hid).1
    have hmark : (t.mark found).used[id]? =
        if found = id then (if found < t.used.size then some true else none) else t.used[id]? :=
      Array.getElem?_setIfInBounds
    rw [hmark]
    split
    · rw [if_pos (by omega)]
    · exact hid

end SymbolTable

namespace Compilation

/-- A compilation was only added to. -/
structure Extends (c c' : Compilation) : Prop where
  program : c.program <+: c'.program
  table : c.table.Extends c'.table
  errors : c.errors <+: c'.errors

theorem Extends.refl (c : Compilation) : Extends c c :=
  ⟨List.prefix_rfl, ⟨List.prefix_rfl, fun _ h => h⟩, List.prefix_rfl⟩

theorem Extends.trans {c₁ c₂ c₃ : Compilation} (h : Extends c₁ c₂) (h' : Extends c₂ c₃) :
    Extends c₁ c₃ where
  program := h.program.trans h'.program
  table := ⟨h.table.symbols.trans h'.table.symbols,
    fun id hid => h'.table.used id (h.table.used id hid)⟩
  errors := h.errors.trans h'.errors

/-- A request adds an instruction or nothing. -/
theorem extends_request (c : Compilation) (r : Request Text) : Extends c (c.request r) := by
  have hrefl := Extends.refl c
  rw [request]
  split
  · exact ⟨List.prefix_append _ _, hrefl.table, hrefl.errors⟩
  · exact ⟨hrefl.program, hrefl.table, hrefl.errors⟩

variable {c c' : Compilation} {resets : Prop}

theorem Change.extends (h : Change resets c c') : Extends c c' := by
  have hrefl := Extends.refl c
  cases h with
  | note h =>
    cases h with
    | table op => exact ⟨hrefl.program, SymbolTable.extends_apply op c.table, hrefl.errors⟩
    | record d => exact ⟨hrefl.program, hrefl.table, List.prefix_append _ _⟩
  | label => exact ⟨hrefl.program, hrefl.table, hrefl.errors⟩
  | request r => exact extends_request c r
  | counters _ supply => exact ⟨hrefl.program, hrefl.table, hrefl.errors⟩

theorem extends_of_changes (h : ReflTransGen (Change resets) c c') : Extends c c' := by
  induction h with
  | refl => exact .refl c
  | tail _ hstep ih => exact ih.trans hstep.extends

/-- Taking a name moves its counter forward, if at all. -/
theorem number_le_take (c : Compilation) (category d : Category) :
    c.supply.number d ≤ (c.take category).supply.number d := by
  by_cases htop : c.supply.number category = NameSupply.top
  · exact Int.le_of_eq (by rw [take_of_eq_top htop])
  · rw [take_of_ne_top htop]
    have hnumber := NameSupply.number_advance htop d
    split at hnumber
    · rename_i hd
      subst hd
      change _ ≤ (c.supply.advance d).number d
      omega
    · change _ ≤ (c.supply.advance category).number d
      omega

theorem number_le_request (c : Compilation) (r : Request Text) (d : Category) :
    c.supply.number d ≤ (c.request r).supply.number d := by
  cases hstores : r.stores with
  | false =>
    rw [request_of_not_stores hstores []]
    exact Int.le_refl _
  | true =>
    have htake := number_le_take c .temp d
    by_cases htop : c.supply.number .temp = NameSupply.top
    · exact Int.le_of_eq (by rw [request_of_eq_top hstores htop])
    · rw [take_of_ne_top htop] at htake
      rw [request_of_ne_top hstores htop]
      exact htake

/-- No counter goes back, unless it is set from outside. -/
theorem number_le_of_changes (h : ReflTransGen (Change False) c c') (d : Category) :
    c.supply.number d ≤ c'.supply.number d := by
  induction h with
  | refl => exact Int.le_refl _
  | tail _ hstep ih =>
    refine Int.le_trans ih ?_
    cases hstep with
    | note h =>
      cases h with
      | table op => exact Int.le_refl _
      | record e => exact Int.le_refl _
    | label => exact number_le_take _ .label d
    | request r => exact number_le_request _ r d
    | counters h supply => exact h.elim

end Compilation

/-! ## Moments of a run -/

namespace Session

open Compilation (Change)

/-- From one session to another, every unit went through single changes. -/
def Develops (s s' : Session) : Prop :=
  ∀ u, Option.Rel (ReflTransGen (Change True)) (s.unit? u) (s'.unit? u)

variable {s s' t : Session} {u : UnitId} {c c' : Compilation}

theorem Develops.refl (s : Session) : s.Develops s := by
  intro u
  cases s.unit? u with
  | none => exact .none
  | some c => exact .some .refl

theorem Develops.trans (h : s.Develops t) (h' : t.Develops s') : s.Develops s' := by
  intro u
  have hfirst := h u
  have hlater := h' u
  generalize s.unit? u = before at hfirst ⊢
  generalize t.unit? u = between at hfirst hlater
  generalize s'.unit? u = after at hlater ⊢
  cases hfirst with
  | none => exact hlater
  | some hchain =>
    cases hlater with
    | some hchain' => exact .some (hchain.trans hchain')

theorem Develops.sameUnits (h : s.Develops s') : s.SameUnits s' := by
  intro u
  have hrel := h u
  generalize s.unit? u = before at hrel ⊢
  generalize s'.unit? u = after at hrel ⊢
  cases hrel with
  | none => rfl
  | some _ => rfl

/-- A unit that has a compilation goes on having one. -/
theorem Develops.unit (h : s.Develops s') (hc : s.unit? u = some c) :
    ∃ c', s'.unit? u = some c' ∧ ReflTransGen (Change True) c c' := by
  have hrel := h u
  rw [hc] at hrel
  generalize s'.unit? u = after at hrel ⊢
  cases hrel with
  | some hchain => exact ⟨_, rfl, hchain⟩

/-- A unit that has a compilation had one before. -/
theorem Develops.unit_before (h : s.Develops s') (hc' : s'.unit? u = some c') :
    ∃ c, s.unit? u = some c ∧ ReflTransGen (Change True) c c' := by
  have hrel := h u
  rw [hc'] at hrel
  generalize s.unit? u = before at hrel ⊢
  cases hrel with
  | some hchain => exact ⟨_, rfl, hchain⟩

theorem develops_of_units (h : s.unit? u = some c) (hunits : s'.units = (s.setUnit u c').units)
    (hchain : ReflTransGen (Change True) c c') : s.Develops s' := by
  intro w
  rw [unit?_of_units h hunits w]
  split
  · rename_i hw
    rw [← hw, h]
    exact .some hchain
  · exact Develops.refl s w

/-- An action takes every unit through single changes. -/
theorem Performed.develops {v : Verbosity} {a : Action} {r : Except Overflow Result}
    (h : s.unit? u = some c) (hp : Performed v u c s a r s') : s.Develops s' := by
  have hchain := a.changes_effect s.bindings c s.sinks
  refine develops_of_units h (hp.effect h).2.1
    (ReflTransGen.mono (fun _ _ hchange => ?_) _ _ hchain)
  cases hchange with
  | note hnote => exact .note hnote
  | label => exact .label
  | request r => exact .request r
  | counters _ supply => exact .counters trivial supply

end Session

namespace Journal

/-- Between two journals, these actions were performed, and from each moment to every later one all
units went through single changes. -/
structure Timeline (new : List Deed) (χ χ' : Journal) : Prop where
  deeds : χ'.deeds = χ.deeds ++ new
  whole : χ.session.Develops χ'.session
  since : ∀ deed ∈ new, χ.session.Develops deed.before
  till : ∀ deed ∈ new, deed.before.Develops χ'.session
  order : new.Pairwise fun earlier later => earlier.before.Develops later.before
  /-- Each action was performed on a unit with a compilation and gave what it gives there. -/
  performed : ∀ deed ∈ new, ∃ c, deed.before.unit? deed.unit = some c ∧
    deed.outcome = (deed.action.effect deed.before.bindings c deed.before.sinks).outcome

variable {v : Verbosity} {χ χ₁ χ₂ χ' : Journal} {first later : List Deed} {u : UnitId}
    {c : Compilation}

theorem Timeline.of_develops (h : χ.session.Develops χ'.session) (hdeeds : χ'.deeds = χ.deeds) :
    Timeline [] χ χ' := by
  refine ⟨by rw [hdeeds, List.append_nil], h, ?_, ?_, .nil, ?_⟩
  · intro deed hdeed
    cases hdeed
  · intro deed hdeed
    cases hdeed
  · intro deed hdeed
    cases hdeed

theorem Timeline.trans (h : Timeline first χ χ₁) (h' : Timeline later χ₁ χ₂) :
    Timeline (first ++ later) χ χ₂ := by
  refine ⟨by rw [h'.deeds, h.deeds, List.append_assoc], h.whole.trans h'.whole, ?_, ?_, ?_, ?_⟩
  · intro deed hdeed
    rcases List.mem_append.mp hdeed with hmem | hmem
    · exact h.since deed hmem
    · exact h.whole.trans (h'.since deed hmem)
  · intro deed hdeed
    rcases List.mem_append.mp hdeed with hmem | hmem
    · exact (h.till deed hmem).trans h'.whole
    · exact h'.till deed hmem
  · refine List.pairwise_append.mpr ⟨h.order, h'.order, ?_⟩
    intro earlier hearlier next hnext
    exact (h.till earlier hearlier).trans (h'.since next hnext)
  · intro deed hdeed
    rcases List.mem_append.mp hdeed with hmem | hmem
    · exact h.performed deed hmem
    · exact h'.performed deed hmem

theorem Timeline.develops_of_lt {new : List Deed} (h : Timeline new χ χ') {i j : Nat}
    {earlier later : Deed} (hlt : i < j) (hi : new[i]? = some earlier) (hj : new[j]? = some later) :
    earlier.before.Develops later.before := by
  obtain ⟨hilt, rfl⟩ := List.getElem?_eq_some_iff.mp hi
  obtain ⟨hjlt, rfl⟩ := List.getElem?_eq_some_iff.mp hj
  exact List.pairwise_iff_getElem.mp h.order i j hilt hjlt hlt

theorem timeline_performed {a : Action} {r : Except Overflow Session.Result} {s' : Session}
    (hc : χ.session.unit? u = some c) (hp : Session.Performed v u c χ.session a r s') :
    Timeline [⟨u, a, χ.session, r⟩] χ ⟨s', χ.deeds ++ [⟨u, a, χ.session, r⟩]⟩ := by
  refine ⟨rfl, hp.develops hc, ?_, ?_, List.pairwise_singleton _ _, ?_⟩
  · intro deed hdeed
    cases List.mem_singleton.mp hdeed
    exact .refl χ.session
  · intro deed hdeed
    cases List.mem_singleton.mp hdeed
    exact hp.develops hc
  · intro deed hdeed
    cases List.mem_singleton.mp hdeed
    exact ⟨c, hc, (hp.effect hc).1⟩

/-- A step of a conditional or a loop of which nothing is kept. -/
theorem timeline_unkept {c' : Compilation} (hc : χ.session.unit? u = some c)
    (hunits : χ'.session.units = (χ.session.setUnit u c').units) (hdeeds : χ'.deeds = χ.deeds)
    (hchange : Compilation.Change True c c') : ∃ new, Timeline new χ χ' :=
  ⟨[], .of_develops (Session.develops_of_units hc hunits (.single hchange)) hdeeds⟩

/-- Every statement has its timeline. -/
theorem kept_timeline (v : Verbosity) : Kept v fun χ χ' => ∃ new, Timeline new χ χ' where
  refl χ := ⟨[], .of_develops (.refl χ.session) rfl⟩
  trans := by
    rintro χ₁ χ₂ χ₃ ⟨first, h⟩ ⟨later, h'⟩
    exact ⟨first ++ later, h.trans h'⟩
  units := by
    rintro χ χ' ⟨new, h⟩
    exact h.whole.sameUnits
  label hc := timeline_unkept hc rfl rfl .label
  emitted {χ u c r i supply} hc hbuild := by
    have hrequest : c.request r = { c with supply }.emit i := by rw [Compilation.request, hbuild]
    exact timeline_unkept hc rfl rfl (hrequest ▸ .request r)
  exhausted {χ u c r e supply} hc hbuild := by
    have hrequest : c.request r = { c with supply } := by rw [Compilation.request, hbuild]
    exact timeline_unkept hc rfl rfl (hrequest ▸ .request r)
  performed hc hp := ⟨_, timeline_performed hc hp⟩

/-- Every script has its timeline, made of all actions that it performs. -/
theorem timeline_run (v : Verbosity) (script : List Statement) (s : Session) :
    Timeline (run v script ⟨s, []⟩).2.deeds ⟨s, []⟩ (run v script ⟨s, []⟩).2 := by
  have hlog : ∀ χ : Journal, ∃ new, Timeline new χ χ.clearLog :=
    fun χ => ⟨[], .of_develops (.refl χ.session) rfl⟩
  obtain ⟨new, h⟩ := (kept_timeline v).run hlog script ⟨s, []⟩
  have hnew : (run v script ⟨s, []⟩).2.deeds = new := h.deeds
  rw [hnew]
  exact h

end Journal

/-! ## Main statement -/

/-- The list that a fault stands for; no fault stands for the empty one. -/
def ErrorList.ofFault? : Option Fault → ErrorList
  | some (.list l) => l
  | _ => []

theorem ErrorList.ofFault?_fault? (l : ErrorList) : ofFault? l.fault? = l := by
  cases l with
  | nil => rfl
  | cons d rest => rfl

namespace Deed

/-- The program that an action showed to its caller. -/
def program? (deed : Deed) : Option Program :=
  match deed.action, deed.outcome with
  | .finish, .ok (.finished p _) => some p
  | _, _ => none

/-- The diagnostics that an action showed to its caller. -/
def diagnostics? (deed : Deed) : Option ErrorList :=
  match deed.action, deed.outcome with
  | .finish, .ok (.finished _ f) => some (.ofFault? f)
  | .errors, .ok (.errors f) => some (.ofFault? f)
  | _, _ => none

variable {deed : Deed} {c : Compilation}

/-- What an action shows of a unit is what the unit holds. -/
theorem program?_of_effect
    (h : deed.outcome = (deed.action.effect deed.before.bindings c deed.before.sinks).outcome) :
    ∀ p ∈ deed.program?, p = c.program := by
  obtain ⟨u, a, s, r⟩ := deed
  cases a with
  | finish =>
    cases h
    intro p hp
    exact (Option.some.inj hp).symm
  | _ =>
    intro p hp
    cases hp

theorem diagnostics?_of_effect
    (h : deed.outcome = (deed.action.effect deed.before.bindings c deed.before.sinks).outcome) :
    ∀ l ∈ deed.diagnostics?, l = c.errors := by
  obtain ⟨u, a, s, r⟩ := deed
  cases a with
  | finish | errors =>
    cases h
    intro l hl
    rw [← Option.some.inj hl, ErrorList.ofFault?_fault?]
  | _ =>
    intro l hl
    cases hl

end Deed

/-- Every statement, also one that an overflow ends, leaves the program, the symbols and the
diagnostics of a unit as the beginning of what it holds afterwards, moves no counter back and takes
no mark away, if the counters of the unit are not set in it. In every script, what an action shows
of the program and of the diagnostics is the beginning of what later actions on the unit show, and
of what the unit holds at the end. -/
theorem units_only_grow (v : Verbosity) (u : UnitId) (s : Session) (c : Compilation)
    (hc : s.unit? u = some c) :
    (∀ st : Statement, (∀ x ∈ st.actions, x.1 = u → ¬x.2.setsCounters) →
      ∃ c', ((Session.runStatement v st).run s).2.unit? u = some c' ∧
        c.program <+: c'.program ∧ c.table.symbols.toList <+: c'.table.symbols.toList ∧
        c.errors <+: c'.errors ∧ c.supply.temps ≤ c'.supply.temps ∧
        c.supply.labels ≤ c'.supply.labels ∧
        ∀ id : Nat, c.table.used[id]? = some true → c'.table.used[id]? = some true) ∧
    ∀ script : List Statement,
      (Journal.run v script ⟨s, []⟩).2.session = (Session.run v script s).2 ∧
      ((Journal.run v script ⟨s, []⟩).2.deeds.filter fun deed => deed.unit = u).Pairwise
        (fun earlier later => (∀ p ∈ earlier.program?, ∀ q ∈ later.program?, p <+: q) ∧
          ∀ l ∈ earlier.diagnostics?, ∀ m ∈ later.diagnostics?, l <+: m) ∧
      ∃ c', (Session.run v script s).2.unit? u = some c' ∧
        ∀ deed ∈ (Journal.run v script ⟨s, []⟩).2.deeds, deed.unit = u →
          (∀ p ∈ deed.program?, p <+: c'.program) ∧ ∀ l ∈ deed.diagnostics?, l <+: c'.errors := by
  constructor
  · intro st hst
    have hmoves : Session.Moves u (Compilation.Change False) (Session.runStatement v st) :=
      Session.moves_runStatement v hst
    obtain ⟨c', hc', hchain⟩ := hmoves s c hc
    have hextends := Compilation.extends_of_changes hchain
    have hnumber := Compilation.number_le_of_changes hchain
    exact ⟨c', hc', hextends.program, hextends.table.symbols, hextends.errors,
      Int64.le_iff_toInt_le.mpr (hnumber .temp), Int64.le_iff_toInt_le.mpr (hnumber .label),
      hextends.table.used⟩
  · intro script
    have hsession := (Journal.run_eq v script ⟨s, []⟩).2
    have htimeline := Journal.timeline_run v script s
    obtain ⟨c', hc', -⟩ := htimeline.whole.unit hc
    refine ⟨hsession, ?_, c', hsession ▸ hc', ?_⟩
    · refine List.Pairwise.imp_of_mem ?_ (htimeline.order.filter _)
      intro earlier later hearlier hlater hdevelops
      obtain ⟨hmem, hunit⟩ := List.mem_filter.mp hearlier
      obtain ⟨hmem', hunit'⟩ := List.mem_filter.mp hlater
      obtain ⟨d, hd, houtcome⟩ := htimeline.performed earlier hmem
      obtain ⟨e, he, houtcome'⟩ := htimeline.performed later hmem'
      rw [of_decide_eq_true hunit] at hd
      rw [of_decide_eq_true hunit'] at he
      obtain ⟨e', he', hchain⟩ := hdevelops.unit hd
      cases he'.symm.trans he
      have hextends := Compilation.extends_of_changes hchain
      constructor
      · intro p hp q hq
        rw [Deed.program?_of_effect houtcome p hp, Deed.program?_of_effect houtcome' q hq]
        exact hextends.program
      · intro l hl m hm
        rw [Deed.diagnostics?_of_effect houtcome l hl, Deed.diagnostics?_of_effect houtcome' m hm]
        exact hextends.errors
    · intro deed hmem hunit
      obtain ⟨d, hd, houtcome⟩ := htimeline.performed deed hmem
      rw [hunit] at hd
      obtain ⟨e, he, hchain⟩ := (htimeline.till deed hmem).unit hd
      cases he.symm.trans hc'
      have hextends := Compilation.extends_of_changes hchain
      constructor
      · intro p hp
        rw [Deed.program?_of_effect houtcome p hp]
        exact hextends.program
      · intro l hl
        rw [Deed.diagnostics?_of_effect houtcome l hl]
        exact hextends.errors

/-- A unit with some work done and one temporary left. -/
def halfDone : Compilation where
  table := { symbols := #[⟨"a", "int", 0, none⟩], used := #[true] }
  supply := ⟨Int64.maxValue - 1, 3⟩
  program := [.jump "L0"]
  errors := [⟨none, .message "late"⟩]

/-- A conditional whose block reports a fault and needs two temporaries. -/
def cutShort : Statement :=
  .ifThen 0 ⟨.literal "a", .literal "<", .literal "b"⟩
    [.act 0 (.report none (.message ⟨.literal "odd", []⟩)),
      .act 0 (.emit (.binary (.literal "a") (.literal "+") (.literal "b")) none),
      .act 0 (.emit (.index (.literal "a") (.literal "b")) none)]

/-- An overflow ends the conditional; what the unit held before is still there, with four
instructions and a diagnostic behind it. -/
theorem halfDone_only_grows :
    ((Session.runStatement 0 cutShort).run { units := [some halfDone] }).1.isOk = false ∧
    ∃ c', ((Session.runStatement 0 cutShort).run { units := [some halfDone] }).2.unit? 0 = some c' ∧
      c'.program.length = 5 ∧ c'.errors.length = 2 ∧ c'.supply = ⟨Int64.maxValue, 5⟩ ∧
      [Instr.jump "L0"] <+: c'.program ∧ halfDone.errors <+: c'.errors ∧
      c'.table.used[0]? = some true := by
  have hrun : ((Session.runStatement 0 cutShort).run { units := [some halfDone] }).1.isOk =
      false := by
    decide +kernel
  have hafter : (((Session.runStatement 0 cutShort).run { units := [some halfDone] }).2.unit? 0).map
      (fun c => (c.program.length, c.errors.length, c.supply)) =
        some (5, 2, ⟨Int64.maxValue, 5⟩) := by
    decide +kernel
  obtain ⟨c', hc', hprogram, -, herrors, -, -, hused⟩ :=
    (units_only_grow 0 0 { units := [some halfDone] } halfDone rfl).1 cutShort (by decide)
  rw [hc', Option.map_some, Option.some.injEq, Prod.mk.injEq, Prod.mk.injEq] at hafter
  exact ⟨hrun, c', hc', hafter.1, hafter.2.1, hafter.2.2, hprogram, herrors, hused 0 rfl⟩

end ThreeAddress
