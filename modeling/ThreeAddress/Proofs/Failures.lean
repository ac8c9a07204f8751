import ThreeAddress.Proofs.Growth
import ThreeAddress.Proofs.Reports

/-!
# What a failure told stays true

A failed declaration or look-up tells something of the table as it was: the symbol that was in the
way, the limit that was reached, or that a name was not there. Tables go on growing, but in one
direction only. Main statement: whatever was recorded of such a failure is true of the table at the
end. The symbol in the way is still there under its number, a full table was full ever since and
refused every declaration, and a name that was missing can only have been declared later.
-/

open Relation (ReflTransGen)

namespace ThreeAddress

open Script (Action Statement UnitId)

namespace SymbolTable

variable {t : SymbolTable}

/-! ## Tables later in a run -/

/-- One table is what operations made of another. -/
def Later (t t' : SymbolTable) : Prop := ∃ ops, (run 0 ops t).2 = t'

theorem Later.step {t' : SymbolTable} (h : t.Later t') (op : Op) : t.Later (op.apply t').2 := by
  obtain ⟨ops, rfl⟩ := h
  refine ⟨ops ++ [op], ?_⟩
  induction ops generalizing t with
  | nil => rfl
  | cons first rest ih => exact ih

/-- Every number below the size has its symbol, which it keeps. -/
theorem Later.symbol {t' : SymbolTable} (h : t.Later t') {id : Nat} (hlt : id < t.size) :
    ∃ s, t.symbols[id]? = some s ∧ t'.symbols[id]? = some s := by
  obtain ⟨ops, rfl⟩ := h
  have hbound : id < t.symbols.size := hlt
  have hsymbol : t.symbols[id]? = some t.symbols[id] := Array.getElem?_eq_getElem hbound
  exact ⟨t.symbols[id], hsymbol, getElem?_symbols_run hsymbol 0 ops⟩

theorem Later.size_le {t' : SymbolTable} (h : t.Later t') : t.size ≤ t'.size := by
  by_contra hlt
  obtain ⟨s, -, hs⟩ := h.symbol (show t'.size < t.size by omega)
  have hbound : t'.size < t'.size := (Array.getElem?_eq_some_iff.mp hs).1
  omega

theorem Later.coherent {t' : SymbolTable} (h : t.Later t') (hcoherent : Coherent t) :
    Coherent t' := by
  obtain ⟨ops, rfl⟩ := h
  exact hcoherent.run 0 ops

theorem Later.limit_eq {t' : SymbolTable} (h : t.Later t') : t'.limit = t.limit := by
  obtain ⟨ops, rfl⟩ := h
  exact limit_run 0 ops t

/-- A full table stays full. -/
theorem Later.isFull {t' : SymbolTable} (h : t.Later t') (hcoherent : Coherent t)
    (hfull : t.isFull = true) :
    t'.isFull = true := by
  have hsize := h.size_le
  have hlimit := h.limit_eq
  have hcoherent' := h.coherent hcoherent
  obtain ⟨hpos, heq⟩ := hcoherent.isFull_iff.mp hfull
  have hpos' : 0 < t'.limit := by
    rw [hlimit]
    exact hpos
  have hwithin := hcoherent'.within hpos'
  rw [hlimit] at hwithin
  refine hcoherent'.isFull_iff.mpr ⟨hpos', ?_⟩
  rw [hlimit]
  omega

/-- A name that was missing can only have been declared since. -/
theorem Later.size_le_of_holds {t' : SymbolTable} (h : t.Later t') {id : Nat} {name : Text}
    {scope : Scope} (hmissing : ¬t.Holds id name scope) (hholds : t'.Holds id name scope) :
    t.size ≤ id := by
  by_contra hlt
  obtain ⟨s, hs, hs'⟩ := h.symbol (show id < t.size by omega)
  obtain ⟨found, hfound, hname, hscope⟩ := hholds
  cases hs'.symm.trans hfound
  exact hmissing ⟨s, hs, hname, hscope⟩

end SymbolTable

theorem Compilation.table_request (c : Compilation) (r : Request Text) :
    (c.request r).table = c.table := by
  rw [request]
  split <;> rfl

/-- Changes of a compilation do to its table what operations do. -/
theorem Compilation.later_of_changes {c c' : Compilation} {resets : Prop}
    (h : ReflTransGen (Change resets) c c') : c.table.Later c'.table := by
  induction h with
  | refl => exact ⟨[], rfl⟩
  | tail _ hstep ih =>
    cases hstep with
    | note hnote =>
      cases hnote with
      | table op => exact ih.step op
      | record d => exact ih
    | label => exact ih
    | request r =>
      rw [table_request]
      exact ih
    | counters _ supply => exact ih

namespace Session

/-- The limit that counts for each unit: the last one among its settings. -/
def plannedLimit (plans : List UnitPlan) (u : UnitId) : Int64 :=
  (plans[u]?.map fun plan => (plan.settings.filterMap Setting.limit?).getLastD 0).getD 0

/-- At every moment after the start, the table of a unit is coherent and
has the limit that was set. -/
theorem Develops.table {plans : List UnitPlan} {s : Session} {u : UnitId} {c : Compilation}
    (h : (start plans).2.Develops s) (hc : s.unit? u = some c) :
    SymbolTable.Coherent c.table ∧ c.table.limit = plannedLimit plans u := by
  obtain ⟨c₀, hc₀, hchain⟩ := h.unit_before hc
  obtain ⟨plan, hplan, -, -, htable, -⟩ := start_unit hc₀
  have hlater := Compilation.later_of_changes hchain
  rw [htable] at hlater
  refine ⟨hlater.coherent (SymbolTable.coherent_withLimits _), ?_⟩
  rw [hlater.limit_eq, plannedLimit, hplan]
  rfl

end Session

/-- An action that declares a symbol or resolves a name, and records a failure. -/
def Script.Action.recordsFailure : Action → Bool
  | .declare .. | .resolve .. => true
  | _ => false

/-- An action that declares a symbol, recording a failure or not. -/
def Script.Action.declares : Action → Bool
  | .declare .. | .table (.declare _) => true
  | _ => false

namespace Deed

/-- Why the declaration that an action made failed. -/
def refusal? (deed : Deed) : Option SymbolError :=
  match deed.outcome with
  | .ok (.declared (.error e)) => some e
  | .ok (.table (.id (.error e))) => some e
  | _ => none

variable {deed : Deed} {c : Compilation}

/-- A failure that was recorded is one of the table as the action found it. -/
theorem failure_cases
    (h : deed.outcome = (deed.action.effect deed.before.bindings c deed.before.sinks).outcome)
    (hrecords : deed.action.recordsFailure = true) {u : UnitId} {pos : Option Position}
    {e : SymbolError} (hnotice : deed.notice? = some (u, ⟨pos, .symbol e⟩)) :
    (∃ s : Symbol, s.pos = pos ∧ (c.table.declare s).1 = .error e) ∨
      ∃ name scope, e = .notFound name scope ∧ c.table.find? name scope = none := by
  obtain ⟨w, a, s, r⟩ := deed
  cases a with
  | declare d typePos =>
    simp only [Action.effect] at h
    cases hresult : (c.table.declare (d.spanned s.bindings typePos)).1 with
    | ok id =>
      rw [hresult] at h
      cases h
      cases hnotice
    | error e' =>
      rw [hresult] at h
      cases h
      cases hnotice
      exact .inl ⟨_, rfl, hresult⟩
  | resolve place name scope bind =>
    simp only [Action.effect] at h
    cases hfind : c.table.find? (name.read s.bindings) scope with
    | some id =>
      rw [hfind] at h
      cases h
      cases hnotice
    | none =>
      rw [hfind] at h
      cases h
      cases hnotice
      exact .inr ⟨_, _, rfl, hfind⟩
  | _ => cases hrecords

/-- A full table refuses every declaration. -/
theorem refusal?_of_isFull
    (h : deed.outcome = (deed.action.effect deed.before.bindings c deed.before.sinks).outcome)
    (hfull : c.table.isFull = true) (hdeclares : deed.action.declares = true) :
    deed.refusal? = some (.capacity c.table.limit) := by
  obtain ⟨w, a, s, r⟩ := deed
  cases a with
  | declare d typePos =>
    simp only [Action.effect, SymbolTable.declare_of_isFull hfull] at h
    cases h
    rfl
  | table op =>
    cases op with
    | declare d =>
      simp only [Action.effect, Script.TableOp.read, SymbolTable.Op.apply,
        SymbolTable.declare_of_isFull hfull] at h
      cases h
      rfl
    | _ => cases hdeclares
  | _ => cases hdeclares

end Deed

/-- What an action recorded stands among the diagnostics of its unit at the end. -/
theorem mem_errors_of_notice? {v : Verbosity} {plans : List Session.UnitPlan}
    {script : List Statement} {deed : Deed} {d : Diagnostic} {c : Compilation}
    (hdeed : deed ∈ Journal.deedsOf v plans script)
    (hnotice : deed.notice? = some (deed.unit, d))
    (hc : (Session.run v script (Session.start plans).2).2.unit? deed.unit = some c) :
    d ∈ c.errors := by
  obtain ⟨deeds, htold, -⟩ := Journal.told_run v script ⟨(Session.start plans).2, []⟩
  have hdeeds : Journal.deedsOf v plans script = deeds := htold.deeds
  have hinformed := htold.heard.informed htold.reporters_eq
  rw [(Journal.run_eq v script ⟨(Session.start plans).2, []⟩).2] at hinformed
  have hmem : (deed.unit, d) ∈ notices deeds :=
    List.mem_filterMap.mpr ⟨deed, hdeeds ▸ hdeed, hnotice⟩
  rw [hinformed.1 deed.unit c hc, Notice.own]
  exact List.mem_map.mpr ⟨(deed.unit, d), List.mem_filter.mpr ⟨hmem, by simp⟩, rfl⟩

/-! ## Main statement -/

/-- For every script in a session that starts, and every failure of a declaration or a look-up that
was recorded in a unit: it stands among the diagnostics of the unit at the end. A redeclaration has
the place it was recorded with, and the symbol that it tells was declared before and stands under
its number at the end. A capacity is the limit of the unit; the table held as many symbols when the
action began, holds as many at the end and held as many whenever a later action began, and every
later declaration in it was refused for the same reason. A name that was not found has, at the end,
only numbers that were not given yet. -/
theorem recorded_failures_stay_true (v : Verbosity) (plans : List Session.UnitPlan)
    (script : List Statement) (n : Nat) (deed : Deed) (pos : Option Position) (e : SymbolError)
    (hdeed : (Journal.deedsOf v plans script)[n]? = some deed)
    (hrecords : deed.action.recordsFailure = true)
    (hnotice : deed.notice? = some (deed.unit, ⟨pos, .symbol e⟩)) :
    (Journal.run v script ⟨(Session.start plans).2, []⟩).2.session =
      (Session.run v script (Session.start plans).2).2 ∧
    ∃ c c' : Compilation, deed.before.unit? deed.unit = some c ∧
      (Session.run v script (Session.start plans).2).2.unit? deed.unit = some c' ∧
      ⟨pos, .symbol e⟩ ∈ c'.errors ∧
      match e with
      | .redeclaration name scope place prev =>
        place = pos ∧ prev.name = name ∧ prev.scope = scope ∧
          ∃ id < c.table.size, c.table.symbols[id]? = some prev ∧ c'.table.symbols[id]? = some prev
      | .capacity limit =>
        limit = Session.plannedLimit plans deed.unit ∧ 0 < limit ∧
          (c.table.size : Int) = limit.toInt ∧ (c'.table.size : Int) = limit.toInt ∧
          ∀ m later, n < m → (Journal.deedsOf v plans script)[m]? = some later →
            ((later.before.unit deed.unit).table.size : Int) = limit.toInt ∧
            (later.unit = deed.unit → later.action.declares = true →
              later.refusal? = some (.capacity limit))
      | .notFound name scope =>
        ∀ id, c'.table.Holds id name scope ∨ c'.table.Holds id name globalScope →
          c.table.size ≤ id := by
  have hsession := (Journal.run_eq v script ⟨(Session.start plans).2, []⟩).2
  have htimeline : Journal.Timeline (Journal.deedsOf v plans script) _ _ :=
    Journal.timeline_run v script (Session.start plans).2
  have hmem := List.mem_of_getElem? hdeed
  obtain ⟨c, hc, houtcome⟩ := htimeline.performed deed hmem
  obtain ⟨c', hc', hchain⟩ := (htimeline.till deed hmem).unit hc
  obtain ⟨hcoherent, hlimit⟩ := (htimeline.since deed hmem).table hc
  have hlater := Compilation.later_of_changes hchain
  rw [hsession] at hc'
  refine ⟨hsession, c, c', hc, hc', mem_errors_of_notice? hmem hnotice hc', ?_⟩
  rcases deed.failure_cases houtcome hrecords hnotice with
    ⟨s, hpos, herror⟩ | ⟨name, scope, rfl, hfind⟩
  · rcases SymbolTable.declare_error_cases herror with ⟨rfl, hfull⟩ | ⟨_, -, rfl⟩
    · -- From here on the table is full, with the same limit, whenever it is looked at.
      have hstays : ∀ d : Compilation, ReflTransGen (Compilation.Change True) c d →
          d.table.isFull = true ∧ d.table.limit = c.table.limit ∧
            (d.table.size : Int) = c.table.limit.toInt := by
        intro d hd
        have hd' := Compilation.later_of_changes hd
        have hdfull := hd'.isFull hcoherent hfull
        obtain ⟨-, hdsize⟩ := (hd'.coherent hcoherent).isFull_iff.mp hdfull
        exact ⟨hdfull, hd'.limit_eq, hd'.limit_eq ▸ hdsize⟩
      obtain ⟨hpositive, hsize⟩ := hcoherent.isFull_iff.mp hfull
      refine ⟨hlimit, hpositive, hsize, (hstays c' hchain).2.2, ?_⟩
      intro m later hlt hm
      have hdevelops := htimeline.develops_of_lt hlt hdeed hm
      obtain ⟨d, hd, hdchain⟩ := hdevelops.unit hc
      obtain ⟨hdfull, hdlimit, hdsize⟩ := hstays d hdchain
      rw [Session.unit_of_unit? hd]
      refine ⟨hdsize, fun hunit hdeclares => ?_⟩
      obtain ⟨d', hd', houtcome'⟩ := htimeline.performed later (List.mem_of_getElem? hm)
      rw [hunit] at hd'
      cases hd'.symm.trans hd
      rw [later.refusal?_of_isFull houtcome' hdfull hdeclares, hdlimit]
    · obtain ⟨hplace, hname, hscope, id, hid⟩ := hcoherent.redeclaration_tells herror
      have hlt : id < c.table.size := (Array.getElem?_eq_some_iff.mp hid).1
      obtain ⟨prev, hprev, hprev'⟩ := hlater.symbol hlt
      cases hprev.symm.trans hid
      exact ⟨hplace.trans hpos, hname, hscope, id, hlt, hid, hprev'⟩
  · intro id hid
    have hmissing := (hcoherent.find?_eq_none_iff name scope).mp hfind id
    rcases hid with hown | hglobal
    · exact hlater.size_le_of_holds hmissing.1 hown
    · exact hlater.size_le_of_holds hmissing.2 hglobal

/-- A unit that may hold two symbols, since of two limits the last one counts. -/
def twoSymbols : List Session.UnitPlan := [⟨"m", [.limit 7, .limit 2]⟩]

/-- A symbol without a place. -/
def unplaced (name : Text) : Script.Declaration := ⟨.literal name, .literal "int", 1, none⟩

/-- A symbol declared twice, a name that is missing until it is declared, one symbol too many, and
the first one declared once more. -/
def crowding : List Statement :=
  [.act 0 (.declare (unplaced "a") none), .act 0 (.declare (unplaced "a") none),
    .act 0 (.resolve none (.literal "b") 1 none), .act 0 (.declare (unplaced "b") none),
    .act 0 (.declare (unplaced "c") none), .act 0 (.table (.declare (unplaced "a")))]

/-- The symbol that was in the way is still there, and once the table is full a redeclaration too is
refused for want of room. -/
theorem crowding_failures_stay_true :
    ∃ again tooMany last : Deed, (Journal.deedsOf 0 twoSymbols crowding)[1]? = some again ∧
      (Journal.deedsOf 0 twoSymbols crowding)[4]? = some tooMany ∧
      (Journal.deedsOf 0 twoSymbols crowding)[5]? = some last ∧
      again.notice? = some (0, ⟨none, .symbol (.redeclaration "a" 1 none ⟨"a", "int", 1, none⟩)⟩) ∧
      tooMany.notice? = some (0, ⟨none, .symbol (.capacity 2)⟩) ∧
      last.refusal? = some (.capacity 2) ∧
      ∃ c', (Session.run 0 crowding (Session.start twoSymbols).2).2.unit? 0 = some c' ∧
        (c'.table.size : Int) = 2 ∧
        ∃ id : Nat, c'.table.symbols[id]? = some ⟨"a", "int", 1, none⟩ := by
  have hsecond : (Journal.deedsOf 0 twoSymbols crowding)[1]?.map
      (fun deed => (deed.unit, deed.action.recordsFailure, deed.notice?)) =
      some (0, true,
        some (0, ⟨none, .symbol (.redeclaration "a" 1 none ⟨"a", "int", 1, none⟩)⟩)) := rfl
  have hfifth : (Journal.deedsOf 0 twoSymbols crowding)[4]?.map
      (fun deed => (deed.unit, deed.action.recordsFailure, deed.notice?)) =
      some (0, true, some (0, ⟨none, .symbol (.capacity 2)⟩)) := rfl
  have hsixth : (Journal.deedsOf 0 twoSymbols crowding)[5]?.map
      (fun deed => (deed.unit, deed.action.declares)) = some (0, true) := by decide +kernel
  obtain ⟨again, hagain, hagain'⟩ := Option.map_eq_some_iff.mp hsecond
  obtain ⟨tooMany, htooMany, htooMany'⟩ := Option.map_eq_some_iff.mp hfifth
  obtain ⟨last, hlast, hlast'⟩ := Option.map_eq_some_iff.mp hsixth
  simp only [Prod.mk.injEq] at hagain' htooMany' hlast'
  obtain ⟨-, c, c', -, hc', -, -, -, -, id, -, -, hid⟩ :=
    recorded_failures_stay_true 0 twoSymbols crowding 1 again _ _ hagain hagain'.2.1
      (hagain'.1 ▸ hagain'.2.2)
  obtain ⟨-, d, d', -, hd', -, -, -, -, hsize, hrefused⟩ :=
    recorded_failures_stay_true 0 twoSymbols crowding 4 tooMany _ _ htooMany htooMany'.2.1
      (htooMany'.1 ▸ htooMany'.2.2)
  have hrefusal := (hrefused 5 last (by decide) hlast).2 (hlast'.1.trans htooMany'.1.symm) hlast'.2
  rw [hagain'.1] at hc'
  rw [htooMany'.1] at hd'
  cases hc'.symm.trans hd'
  exact ⟨again, tooMany, last, hagain, htooMany, hlast, hagain'.2.2, htooMany'.2.2, hrefusal,
    c', hc', hsize, id, hid⟩

end ThreeAddress
