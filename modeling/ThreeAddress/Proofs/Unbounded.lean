import Mathlib.Data.List.Basic
import ThreeAddress.Proofs.Effects

/-!
# Overflow cuts a run short

A unit without limits numbers its names by integers, so its scripts never fail. A script that emits
code does on a real unit what it does on the unlimited one, up to the first name that would be
numbered past the largest word: there it ends, with what was emitted until then.
-/

namespace ThreeAddress

open Script (Action Bindings Statement UnitId)

/-- An action that emits an instruction or takes a label. -/
def Script.Action.emits : Action → Bool
  | .emit .. | .label .. => true
  | _ => false

/-- A unit whose counters have no limit. -/
structure Unbounded where
  /-- Number of the next temporary. -/
  temps : Int
  /-- Number of the next label. -/
  labels : Int
  /-- The instructions emitted. -/
  program : Program
  /-- The results bound so far. -/
  bindings : Bindings
  /-- The names taken so far: category and number, in order. -/
  taken : List (Category × Int) := []

namespace Unbounded

open Session (Result boundResult emitted)

/-- The unlimited unit that starts where a compilation stands. -/
def ofCompilation (c : Compilation) (b : Bindings) : Unbounded :=
  ⟨c.supply.temps.toInt, c.supply.labels.toInt, c.program, b, []⟩

/-- The counter of a category. -/
def number (σ : Unbounded) : Category → Int
  | .temp => σ.temps
  | .label => σ.labels

/-- The unit after one more name of a category. -/
def advance (σ : Unbounded) : Category → Unbounded
  | .temp => { σ with temps := σ.temps + 1, taken := σ.taken ++ [(.temp, σ.temps)] }
  | .label => { σ with labels := σ.labels + 1, taken := σ.taken ++ [(.label, σ.labels)] }

/-- Takes the next name of a category. -/
def fresh (category : Category) : StateM Unbounded Text := do
  let σ ← get
  set (σ.advance category)
  return category.named (σ.number category)

/-- Appends an instruction. -/
def append (i : Instr) : StateM Unbounded Unit :=
  modify fun σ => { σ with program := σ.program ++ [i] }

/-- Makes the instruction requested, with a fresh temporary for a result, and appends it. -/
def emit (r : Request Text) : StateM Unbounded Instr := do
  let dst ← if r.stores then fresh .temp else pure []
  append (r.instr dst)
  return r.instr dst

/-- The results bound so far. -/
def getBindings : StateM Unbounded Bindings := return (← get).bindings

/-- Performs an action that emits or takes a label; others leave the unit as it is. -/
def perform : Action → StateM Unbounded Result
  | .emit r bind => do
    let b ← getBindings
    let i ← emit (r.map (·.read b))
    modify fun σ => { σ with bindings := boundResult σ.bindings bind i }
    return emitted i
  | .label bind => do
    let name ← fresh .label
    modify fun σ => { σ with bindings := σ.bindings.bind bind name }
    return .label name
  | _ => return .done

/-- The unlimited unit as a host. -/
def host : Host (StateM Unbounded) where
  bindings := getBindings
  present _ := return true
  length _ := return (← get).program.length
  label _ := fresh .label
  emit _ r := do
    let _ ← emit r
  perform _ a := perform a
  close _ := return ()

theorem run_emit_of_not_stores {r : Request Text} (h : r.stores = false) (σ : Unbounded) :
    (emit r).run σ = (r.instr [], { σ with program := σ.program ++ [r.instr []] }) := by
  rw [emit, h]
  rfl

theorem run_emit_of_stores {r : Request Text} (h : r.stores = true) (σ : Unbounded) :
    (emit r).run σ = (r.instr (Category.temp.named (σ.number .temp)), { σ.advance .temp with
      program := σ.program ++ [r.instr (Category.temp.named (σ.number .temp))] }) := by
  rw [emit, h]
  rfl

/-- The category of the first name numbered with the largest word, if there is one. -/
def overflow? (σ : Unbounded) : Option Category :=
  (σ.taken.find? fun x => x.2 = NameSupply.top).map Prod.fst

/-- One state comes after another in a run: the program was extended, and the names taken meanwhile
are exactly those between the counters. -/
structure Grows (σ τ : Unbounded) : Prop where
  program : σ.program <+: τ.program
  number : ∀ category, σ.number category ≤ τ.number category
  taken : ∃ new, τ.taken = σ.taken ++ new ∧ ∀ category k,
    (category, k) ∈ new ↔ σ.number category ≤ k ∧ k < τ.number category

theorem Grows.refl (σ : Unbounded) : Grows σ σ where
  program := List.prefix_rfl
  number _ := Int.le_refl _
  taken := by
    refine ⟨[], (List.append_nil _).symm, fun category k => ?_⟩
    constructor
    · intro h
      cases h
    · intro h
      omega

theorem Grows.trans {σ τ ρ : Unbounded} (h₁ : Grows σ τ) (h₂ : Grows τ ρ) : Grows σ ρ where
  program := h₁.program.trans h₂.program
  number category := Int.le_trans (h₁.number category) (h₂.number category)
  taken := by
    obtain ⟨new₁, htaken₁, hmem₁⟩ := h₁.taken
    obtain ⟨new₂, htaken₂, hmem₂⟩ := h₂.taken
    refine ⟨new₁ ++ new₂, by rw [htaken₂, htaken₁, List.append_assoc], fun category k => ?_⟩
    have hle₁ := h₁.number category
    have hle₂ := h₂.number category
    rw [List.mem_append, hmem₁, hmem₂]
    omega

theorem grows_advance (σ : Unbounded) (category : Category) : Grows σ (σ.advance category) where
  program := by cases category <;> exact List.prefix_rfl
  number d := by cases category <;> cases d <;> simp only [number, advance] <;> omega
  taken := by
    refine ⟨[(category, σ.number category)], by cases category <;> rfl, fun d k => ?_⟩
    cases category <;> cases d <;> simp [number, advance] <;> omega

theorem grows_append (σ : Unbounded) (i : Instr) :
    Grows σ { σ with program := σ.program ++ [i] } where
  program := List.prefix_append _ _
  number category := by cases category <;> exact Int.le_refl _
  taken := (Grows.refl σ).taken

theorem grows_bindings (σ : Unbounded) (b : Bindings) : Grows σ { σ with bindings := b } where
  program := List.prefix_rfl
  number category := by cases category <;> exact Int.le_refl _
  taken := (Grows.refl σ).taken

/-- The first overflow of a run stays the first. -/
theorem Grows.overflow? {σ τ : Unbounded} (h : Grows σ τ) {category : Category}
    (hσ : σ.overflow? = some category) : τ.overflow? = some category := by
  obtain ⟨new, htaken, -⟩ := h.taken
  obtain ⟨x, hx, rfl⟩ := Option.map_eq_some_iff.mp hσ
  rw [Unbounded.overflow?, htaken, List.find?_append, hx]
  rfl

/-- Taking a name overflows exactly when its number is the largest word. -/
theorem overflow?_advance {σ : Unbounded} (h : σ.overflow? = none) (category : Category) :
    (σ.advance category).overflow? =
      if σ.number category = NameSupply.top then some category else none := by
  have htaken : (σ.advance category).taken = σ.taken ++ [(category, σ.number category)] := by
    cases category <;> rfl
  have hnone : (σ.taken.find? fun x => x.2 = NameSupply.top) = none := Option.map_eq_none_iff.mp h
  rw [overflow?, htaken, List.find?_append, hnone, List.find?_singleton]
  by_cases hn : σ.number category = NameSupply.top
  · simp [hn]
  · simp [hn]

theorem exists_top_lt_number_iff (σ : Unbounded) :
    (∃ category, NameSupply.top < σ.number category) ↔
    Int64.maxValue.toInt < σ.temps ∨ Int64.maxValue.toInt < σ.labels := by
  constructor
  · rintro ⟨category, h⟩
    cases category with
    | temp => exact .inl h
    | label => exact .inr h
  · rintro (h | h)
    · exact ⟨.temp, h⟩
    · exact ⟨.label, h⟩

/-- A run has overflowed exactly when a counter has passed the largest word. -/
theorem overflow?_isSome_iff {σ τ : Unbounded} (h : Grows σ τ) (hσ : σ.overflow? = none)
    (hle : ∀ category, σ.number category ≤ NameSupply.top) :
    τ.overflow?.isSome ↔ ∃ category, NameSupply.top < τ.number category := by
  obtain ⟨new, htaken, hmem⟩ := h.taken
  have hnone : (σ.taken.find? fun x => x.2 = NameSupply.top) = none := Option.map_eq_none_iff.mp hσ
  rw [overflow?, htaken, List.find?_append, hnone, Option.none_or, Option.isSome_map,
    List.find?_isSome]
  constructor
  · rintro ⟨⟨category, k⟩, hx, hk⟩
    have hk : k = NameSupply.top := of_decide_eq_true hk
    exact ⟨category, by have := ((hmem category k).mp hx).2; omega⟩
  · rintro ⟨category, hc⟩
    exact ⟨(category, NameSupply.top), (hmem _ _).mpr ⟨hle category, hc⟩, decide_eq_true rfl⟩

end Unbounded

/-- A session and an unlimited unit stand at the same place of a run that has not overflowed. -/
structure Agrees (u : UnitId) (s : Session) (c : Compilation) (σ : Unbounded) : Prop where
  unit : s.unit? u = some c
  bindings : s.bindings = σ.bindings
  program : c.program = σ.program
  number : ∀ category, c.supply.number category = σ.number category
  clear : σ.overflow? = none

/-- A unit and the unlimited unit that starts where it stands. -/
theorem agrees_ofCompilation {u : UnitId} {s : Session} {c : Compilation}
    (hc : s.unit? u = some c) :
    Agrees u s c (.ofCompilation c s.bindings) :=
  ⟨hc, rfl, rfl, fun d => by cases d <;> rfl, rfl⟩

/-- The unlimited unit does not overflow on a name that the session can still number. -/
theorem Agrees.ne_top_of_clear {u : UnitId} {s : Session} {c : Compilation} {σ : Unbounded}
    {category : Category} (h : Agrees u s c σ) (hclear : (σ.advance category).overflow? = none) :
    c.supply.number category ≠ NameSupply.top := by
  intro htop
  rw [Unbounded.overflow?_advance h.clear, ← h.number, if_pos htop] at hclear
  cases hclear

/-- The unlimited unit overflows on a name that the session can no longer number. -/
theorem Agrees.eq_top_of_overflow {u : UnitId} {s : Session} {c : Compilation} {σ : Unbounded}
    {category first : Category} (h : Agrees u s c σ)
    (hover : (σ.advance category).overflow? = some first) :
    c.supply.number category = NameSupply.top ∧ category = first := by
  rw [Unbounded.overflow?_advance h.clear, ← h.number] at hover
  by_cases htop : c.supply.number category = NameSupply.top
  · rw [if_pos htop] at hover
    exact ⟨htop, Option.some.inj hover⟩
  · rw [if_neg htop] at hover
    cases hover

/-- Taking a name below the largest word keeps a session and the unlimited unit together. -/
theorem Agrees.advance {u : UnitId} {s s' : Session} {c : Compilation} {σ : Unbounded}
    {category : Category} (h : Agrees u s c σ) (hne : c.supply.number category ≠ NameSupply.top)
    (hclear : (σ.advance category).overflow? = none)
    (hunit : s'.unit? u = some (c.take category)) (hb : s'.bindings = s.bindings) :
    Agrees u s' (c.take category) (σ.advance category) where
  unit := hunit
  bindings := by
    rw [hb, h.bindings]
    cases category <;> rfl
  program := by
    rw [Compilation.take_of_ne_top hne]
    cases category <;> exact h.program
  number d := by
    have hd := h.number d
    have hcat := h.number category
    rw [Compilation.take_of_ne_top hne, NameSupply.number_advance hne]
    cases category <;> cases d <;> simp [Unbounded.number, Unbounded.advance] at hd hcat ⊢ <;> omega
  clear := hclear

/-- Appending an instruction keeps a session and the unlimited unit together. -/
theorem Agrees.append {u : UnitId} {s s' : Session} {c : Compilation} {σ : Unbounded} {i : Instr}
    (h : Agrees u s c σ) (hunit : s'.unit? u = some (c.emit i)) (hb : s'.bindings = s.bindings) :
    Agrees u s' (c.emit i) { σ with program := σ.program ++ [i] } where
  unit := hunit
  bindings := hb.trans h.bindings
  program := by rw [Compilation.emit, h.program]
  number d := by
    have hd := h.number d
    cases d <;> exact hd
  clear := h.clear

/-- Work in a session does to a unit what other work does to the unlimited one. It
ends early exactly when that overflows, by the first overflow, and has then emitted
a part of what that emits. -/
structure Truncates {α : Type} (u : UnitId) (x : SessionM α) (y : StateM Unbounded α) : Prop where
  grows : ∀ σ, Unbounded.Grows σ (y.run σ).2
  finished : ∀ {s c σ}, Agrees u s c σ → (y.run σ).2.overflow? = none →
    ∃ s' c', x.run s = (.ok (y.run σ).1, s') ∧ Agrees u s' c' (y.run σ).2
  stopped : ∀ {s c σ category}, Agrees u s c σ → (y.run σ).2.overflow? = some category →
    ∃ s' c', x.run s = (.error ⟨category⟩, s') ∧ s'.unit? u = some c' ∧
      c'.program <+: (y.run σ).2.program ∧ ∀ d, σ.number d ≤ c'.supply.number d

namespace Truncates

open Session (fresh emit)
open Unbounded (Grows)

variable {α β : Type} {u : UnitId}

/-- Work that leaves the code of both units alone. -/
theorem of_quiet {x : SessionM α} {y : StateM Unbounded α}
    (hgrows : ∀ σ, Grows σ (y.run σ).2)
    (hclear : ∀ σ, (y.run σ).2.overflow? = σ.overflow?)
    (hrun : ∀ {s c σ}, Agrees u s c σ →
      ∃ s' c', x.run s = (.ok (y.run σ).1, s') ∧ Agrees u s' c' (y.run σ).2) : Truncates u x y where
  grows := hgrows
  finished h _ := hrun h
  stopped h hs := by
    rw [hclear, h.clear] at hs
    cases hs

theorem pure (a : α) : Truncates u (Pure.pure a) (Pure.pure a) :=
  of_quiet (fun σ => .refl σ) (fun _ => rfl) fun h => ⟨_, _, rfl, h⟩

theorem bind {x : SessionM α} {y : StateM Unbounded α} {f : α → SessionM β}
    {g : α → StateM Unbounded β} (hxy : Truncates u x y) (hfg : ∀ a, Truncates u (f a) (g a)) :
    Truncates u (x >>= f) (y >>= g) where
  grows σ := (hxy.grows σ).trans ((hfg _).grows _)
  finished {s c σ} h hclear := by
    have hgrows := (hfg (y.run σ).1).grows (y.run σ).2
    cases hmid : (y.run σ).2.overflow? with
    | some category =>
      rw [show ((y >>= g).run σ).2.overflow? = some category from hgrows.overflow? hmid] at hclear
      cases hclear
    | none =>
      obtain ⟨s₁, c₁, hx, h₁⟩ := hxy.finished h hmid
      obtain ⟨s₂, c₂, hf, h₂⟩ := (hfg (y.run σ).1).finished h₁ hclear
      exact ⟨s₂, c₂, by rw [run_bind, hx]; exact hf, h₂⟩
  stopped {s c σ category} h hover := by
    have hgrows := (hfg (y.run σ).1).grows (y.run σ).2
    cases hmid : (y.run σ).2.overflow? with
    | some first =>
      -- The rest of the unlimited run cannot change which overflow was the first.
      have hsame : some category = some first := hover.symm.trans (hgrows.overflow? hmid)
      cases hsame
      obtain ⟨s₁, c₁, hx, hc₁, hp, hn⟩ := hxy.stopped h hmid
      exact ⟨s₁, c₁, by rw [run_bind, hx], hc₁, hp.trans hgrows.program, hn⟩
    | none =>
      obtain ⟨s₁, c₁, hx, h₁⟩ := hxy.finished h hmid
      obtain ⟨s₂, c₂, hf, hc₂, hp, hn⟩ := (hfg (y.run σ).1).stopped h₁ hover
      refine ⟨s₂, c₂, by rw [run_bind, hx]; exact hf, hc₂, hp, fun d => ?_⟩
      exact Int.le_trans ((hxy.grows σ).number d) (hn d)

/-- Taking a name. -/
theorem take (category : Category) : Truncates u (fresh u category) (Unbounded.fresh category) where
  grows σ := Unbounded.grows_advance σ category
  finished {s c σ} h hclear := by
    have hne := h.ne_top_of_clear hclear
    obtain ⟨s', hrun, hb, ht⟩ := Session.fresh_spec u category s
    rw [Session.unit_of_unit? h.unit, NameSupply.fresh_of_ne_top hne, h.number] at hrun
    exact ⟨s', _, hrun, h.advance hne hclear (ht.self h.unit) hb⟩
  stopped {s c σ first} h hover := by
    obtain ⟨htop, rfl⟩ := h.eq_top_of_overflow hover
    obtain ⟨s', hrun, hb, ht⟩ := Session.fresh_spec u category s
    rw [Session.unit_of_unit? h.unit, NameSupply.fresh_of_eq_top htop] at hrun
    have hunit := ht.self h.unit
    rw [Compilation.take_of_eq_top htop] at hunit
    refine ⟨s', c, hrun, hunit, ?_, fun d => Int.le_of_eq (h.number d).symm⟩
    rw [h.program]
    exact (Unbounded.grows_advance σ category).program

/-- Emitting an instruction. -/
theorem emit (v : Verbosity) (r : Request Text) :
    Truncates u (Session.emit v u r) (Unbounded.emit r) := by
  cases hs : r.stores with
  | false =>
    have hrun := Unbounded.run_emit_of_not_stores hs
    refine of_quiet ?_ ?_ ?_
    · intro σ
      rw [hrun]
      exact Unbounded.grows_append σ _
    · intro σ
      rw [hrun]
      rfl
    · intro s c σ h
      obtain ⟨s', hemit, hb, ht⟩ := Session.emit_spec v u r s
      have hunit := ht.self h.unit
      rw [Compilation.request_of_not_stores hs []] at hunit
      rw [Request.build_of_not_stores hs []] at hemit
      rw [hrun]
      exact ⟨s', _, hemit, h.append hunit hb⟩
  | true =>
    have hrun := Unbounded.run_emit_of_stores hs
    refine ⟨?_, ?_, ?_⟩
    · intro σ
      rw [hrun]
      exact (Unbounded.grows_advance σ .temp).trans (Unbounded.grows_append _ _)
    · intro s c σ h hclear
      rw [hrun] at hclear ⊢
      have hne := h.ne_top_of_clear hclear
      obtain ⟨s', hemit, hb, ht⟩ := Session.emit_spec v u r s
      have hunit := ht.self h.unit
      have htake : Agrees u (s.setUnit u (c.take .temp)) (c.take .temp) (σ.advance .temp) :=
        h.advance hne hclear
          (by rw [Session.unit?_setUnit, if_pos rfl, h.unit, Option.map_some]) rfl
      rw [Compilation.request_of_ne_top hs hne, ← Compilation.take_of_ne_top hne] at hunit
      rw [Session.unit_of_unit? h.unit, Request.build_of_ne_top hs hne] at hemit
      rw [h.number] at hemit hunit
      exact ⟨s', _, hemit, htake.append hunit hb⟩
    · intro s c σ first h hover
      rw [hrun] at hover ⊢
      obtain ⟨htop, rfl⟩ := h.eq_top_of_overflow hover
      obtain ⟨s', hemit, hb, ht⟩ := Session.emit_spec v u r s
      have hunit := ht.self h.unit
      rw [Compilation.request_of_eq_top hs htop] at hunit
      rw [Session.unit_of_unit? h.unit, Request.build_of_eq_top hs htop] at hemit
      refine ⟨s', c, hemit, hunit, ?_, fun d => Int.le_of_eq (h.number d).symm⟩
      rw [h.program]
      exact List.prefix_append _ _

/-- Reading or binding results. -/
theorem of_bindings {x : SessionM α} {y : StateM Unbounded α} {a : Bindings → α}
    {b : Bindings → Bindings}
    (hx : ∀ s, x.run s = (.ok (a s.bindings), { s with bindings := b s.bindings }))
    (hy : ∀ σ, y.run σ = (a σ.bindings, { σ with bindings := b σ.bindings })) :
    Truncates u x y := by
  refine of_quiet ?_ ?_ ?_
  · intro σ
    rw [hy]
    exact Unbounded.grows_bindings σ _
  · intro σ
    rw [hy]
    rfl
  · intro s c σ h
    rw [hy]
    refine ⟨{ s with bindings := b s.bindings }, c, by rw [hx, h.bindings], ?_⟩
    refine ⟨h.unit, congrArg b h.bindings, h.program, fun d => ?_, h.clear⟩
    have hd := h.number d
    cases d <;> exact hd

theorem getBindings : Truncates u Session.getBindings Unbounded.getBindings :=
  of_bindings (a := id) (b := id) (fun _ => rfl) fun _ => rfl

/-- Performing an action that emits or takes a label. -/
theorem perform (v : Verbosity) {a : Action} (ha : a.emits = true) :
    Truncates u (Session.runAction v u a) (Unbounded.perform a) := by
  cases a with
  | emit r bind =>
    refine Truncates.bind getBindings fun b => Truncates.bind (emit v _) fun i => ?_
    refine of_bindings (a := fun _ => Session.emitted i)
      (b := fun b => Session.boundResult b bind i) (fun s => ?_) fun _ => rfl
    cases hd : i.dst? with
    | none =>
      simp only [Session.emitted, Session.boundResult, hd]
      rfl
    | some dst =>
      simp only [Session.emitted, Session.boundResult, hd]
      rfl
  | label bind =>
    refine Truncates.bind (take .label) fun name => ?_
    exact of_bindings (a := fun _ => .label name) (b := fun b => b.bind bind name) (fun _ => rfl)
      fun _ => rfl
  | _ => cases ha

/-- The session and the unlimited unit as hosts of scripts that emit code for one unit. -/
theorem simulation (v : Verbosity) (u : UnitId) :
    Host.Simulation (Session.host v) Unbounded.host (fun w => w = u) (fun _ a => a.emits = true)
      (Truncates u) where
  pure := pure
  bind := bind
  bindings := getBindings
  present w hw := by
    subst hw
    refine of_quiet (fun σ => .refl σ) (fun _ => rfl) fun {s c σ} h => ⟨s, c, ?_, h⟩
    change ((.ok (s.unit? w).isSome, s) : Except Overflow Bool × Session) = (.ok true, s)
    rw [h.unit, Option.isSome_some]
  length w hw := by
    subst hw
    refine of_quiet (fun σ => .refl σ) (fun _ => rfl) fun {s c σ} h => ⟨s, c, ?_, h⟩
    change ((.ok (s.unit w).program.length, s) : Except Overflow Nat × Session) =
      (.ok σ.program.length, s)
    rw [Session.unit_of_unit? h.unit, h.program]
  label w hw := by
    subst hw
    exact take .label
  emit w r hw := by
    subst hw
    exact bind (emit v r) fun _ => pure ()
  perform w a hw ha := by
    subst hw
    exact perform v ha
  close _ _ := pure ()

end Truncates

/-- If mapping an outcome gives a failure, the outcome is that failure. -/
theorem eq_error_of_map {ε α β : Type} {x : Except ε α} {f : α → β} {e : ε}
    (h : x.map f = .error e) : x = .error e := by
  cases x with
  | ok a => cases h
  | error e' =>
    cases h
    rfl

/-- A statement that emits code, run on a unit whose counters are not negative, against the
unlimited unit from the same place. It ends early exactly when the unlimited unit passes the largest
word with a counter, and then by the category of the first name that has the largest word as its
number; the program is then a beginning of the unlimited one, and no counter has become negative.
Otherwise the answers, the program and the counters are the unlimited ones. -/
theorem overflow_truncates (v : Verbosity) (u : UnitId) (st : Statement) (s : Session)
    (c : Compilation) (hunits : ∀ w ∈ st.units, w = u) (hacts : ∀ x ∈ st.actions, x.2.emits = true)
    (hc : s.unit? u = some c) (htemps : 0 ≤ c.supply.temps) (hlabels : 0 ≤ c.supply.labels) :
    ∃ c', ((Session.runStatement v st).run s).2.unit? u = some c' ∧
      let ideal := (Unbounded.host.runStatement st).run (.ofCompilation c s.bindings)
      ((∃ e, ((Session.runStatement v st).run s).1 = .error e) ↔
        Int64.maxValue.toInt < ideal.2.temps ∨ Int64.maxValue.toInt < ideal.2.labels) ∧
      (∀ e, ((Session.runStatement v st).run s).1 = .error e →
        (ideal.2.taken.find? fun x => x.2 = Int64.maxValue.toInt).map Prod.fst = some e.category ∧
        c'.program <+: ideal.2.program ∧ 0 ≤ c'.supply.temps ∧ 0 ≤ c'.supply.labels) ∧
      ∀ answer, ((Session.runStatement v st).run s).1 = .ok answer →
        answer = ideal.1 ∧ c'.program = ideal.2.program ∧
        c'.supply.temps.toInt = ideal.2.temps ∧ c'.supply.labels.toInt = ideal.2.labels := by
  have hsim := (Truncates.simulation v u).runStatement st hunits hacts
  rw [Session.host_runStatement] at hsim
  have hstart := agrees_ofCompilation hc
  have hpast := Unbounded.overflow?_isSome_iff (hsim.grows _) hstart.clear fun d => by
    rw [← hstart.number]
    exact NameSupply.toInt_le_top _
  rw [Unbounded.exists_top_lt_number_iff] at hpast
  cases hover :
    ((Unbounded.host.runStatement st).run (.ofCompilation c s.bindings)).2.overflow? with
  | none =>
    obtain ⟨s', c', hrun, hagree⟩ := hsim.finished hstart hover
    rw [hover] at hpast
    refine ⟨c', by rw [hrun]; exact hagree.unit, ?_, ?_, ?_⟩
    · rw [← hpast, hrun]
      simp
    · intro e he
      rw [hrun] at he
      cases he
    · intro answer ha
      rw [hrun] at ha
      cases ha
      exact ⟨rfl, hagree.program, hagree.number .temp, hagree.number .label⟩
  | some category =>
    obtain ⟨s', c', hrun, hunit, hprefix, hle⟩ := hsim.stopped hstart hover
    rw [hover] at hpast
    refine ⟨c', by rw [hrun]; exact hunit, ?_, ?_, ?_⟩
    · rw [← hpast, hrun]
      simp
    · intro e he
      rw [hrun] at he
      cases he
      refine ⟨hover, hprefix, ?_, ?_⟩
      · exact Int64.le_iff_toInt_le.mpr (Int.le_trans (Int64.le_iff_toInt_le.mp htemps) (hle .temp))
      · exact Int64.le_iff_toInt_le.mpr
          (Int.le_trans (Int64.le_iff_toInt_le.mp hlabels) (hle .label))
    · intro answer ha
      rw [hrun] at ha
      cases ha

/-- A conditional with an operation and a loop in its block: five labels in all. -/
def fiveLabels : Statement :=
  .ifThen 0 ⟨.literal "a", .literal "<", .literal "b"⟩
    [.act 0 (.emit (.binary (.literal "a") (.literal "+") (.literal "b")) none),
      .loop 0 [] ⟨.literal "a", .literal "<", .literal "b"⟩ []]

/-- Where two labels are left, a statement that needs five ends at the third, with the
four instructions until then. -/
theorem fiveLabels_truncates :
    ∃ c', ((Session.runStatement 0 fiveLabels).run
        { units := [some { supply := ⟨5, Int64.maxValue - 2⟩ }] }).2.unit? 0 = some c' ∧
      ((Session.runStatement 0 fiveLabels).run
        { units := [some { supply := ⟨5, Int64.maxValue - 2⟩ }] }).1 = .error ⟨.label⟩ ∧
      c'.program.length = 4 ∧
      c'.program <+: ((Unbounded.host.runStatement fiveLabels).run
        (.ofCompilation { supply := ⟨5, Int64.maxValue - 2⟩ } [])).2.program ∧
      0 ≤ c'.supply.labels := by
  obtain ⟨c', hc', -, herror, -⟩ := overflow_truncates 0 0 fiveLabels
    { units := [some { supply := ⟨5, Int64.maxValue - 2⟩ }] } _ (by decide) (by decide) rfl
    (by decide) (by decide)
  have hkind : (((Session.runStatement 0 fiveLabels).run
      { units := [some { supply := ⟨5, Int64.maxValue - 2⟩ }] }).1.map fun _ => ()) =
        .error ⟨.label⟩ := by decide +kernel
  have hrun := eq_error_of_map hkind
  have hlength : ((((Session.runStatement 0 fiveLabels).run
      { units := [some { supply := ⟨5, Int64.maxValue - 2⟩ }] }).2.unit? 0).map
        (·.program.length)) = some 4 := by decide +kernel
  obtain ⟨-, hprefix, -, hlabels⟩ := herror _ hrun
  rw [hc', Option.map_some, Option.some.injEq] at hlength
  exact ⟨c', hc', hrun, hlength, hprefix, hlabels⟩

end ThreeAddress
