import ThreeAddress.Proofs.Steps

/-!
# The journal of a run

A run that keeps a journal of the actions performed: on which unit, in which session and with which
outcome, in the order of time and also when an overflow ended the statement around them. The
journal changes nothing: steps and sessions are those of the run itself. Main statement: a relation
that is reflexive and transitive, and that holds across every single step on a unit with a
compilation, holds across every script.
-/

namespace ThreeAddress

open Script (Action Statement UnitId)

/-- An action that was performed. -/
structure Deed where
  /-- The unit it was performed on. -/
  unit : UnitId
  /-- The action. -/
  action : Action
  /-- The session before it. -/
  before : Session
  /-- What it gave, or the overflow that ended it. -/
  outcome : Except Overflow Session.Result

/-- A session with the actions performed so far, in order. -/
structure Journal where
  /-- The session. -/
  session : Session
  /-- The actions performed. -/
  deeds : List Deed := []

/-- Work in a session of which a journal is kept. -/
abbrev JournalM := ExceptT Overflow (StateM Journal)

/-- The same units have a compilation. -/
def Session.SameUnits (s s' : Session) : Prop := ∀ u, (s'.unit? u).isSome = (s.unit? u).isSome

namespace Journal

variable {α β : Type}

/-- Does work in the session, of which nothing is kept. -/
def lift (work : SessionM α) : JournalM α := fun χ =>
  ((work.run χ.session).1, { χ with session := (work.run χ.session).2 })

/-- Performs an action and keeps it. -/
def perform (v : Verbosity) (u : UnitId) (a : Action) : JournalM Session.Result := fun χ =>
  (((Session.runAction v u a).run χ.session).1,
    ⟨((Session.runAction v u a).run χ.session).2,
      χ.deeds ++ [⟨u, a, χ.session, ((Session.runAction v u a).run χ.session).1⟩]⟩)

/-- The session as a host that keeps a journal. -/
def host (v : Verbosity) : Host JournalM where
  bindings := lift (Session.host v).bindings
  present u := lift ((Session.host v).present u)
  length u := lift ((Session.host v).length u)
  label u := lift ((Session.host v).label u)
  emit u r := lift ((Session.host v).emit u r)
  perform := perform v
  close f := lift ((Session.host v).close f)

/-- The journal with an empty log. -/
def clearLog (χ : Journal) : Journal := { χ with session := { χ.session with log := [] } }

/-- Runs an outermost statement with an empty log. -/
def step (v : Verbosity) (st : Statement) (χ : Journal) : Session.Step × Journal :=
  let (outcome, χ') := ((host v).runStatement st).run χ.clearLog
  (⟨outcome, χ'.session.log⟩, χ')

/-- The steps of a script, in order, and the journal after it. -/
def run (v : Verbosity) : List Statement → Journal → List Session.Step × Journal
  | [], χ => ([], χ)
  | st :: rest, χ =>
    let (first, χ') := step v st χ
    let (later, last) := run v rest χ'
    (first :: later, last)

/-- The actions that a script performs in a session that starts, in order. -/
def deedsOf (v : Verbosity) (plans : List Session.UnitPlan) (script : List Statement) : List Deed :=
  (run v script ⟨(Session.start plans).2, []⟩).2.deeds

/-- What holds of the session whenever an action began, and of the actions before it, is carried
over from two sequences of actions to one after the other. -/
theorem moments_append {S : List Deed → Session → Prop} {first later : List Deed}
    (h : ∀ (n : Nat) deed, first[n]? = some deed → S (first.take n) deed.before)
    (h' : ∀ (n : Nat) deed, later[n]? = some deed → S (first ++ later.take n) deed.before) :
    ∀ (n : Nat) deed, (first ++ later)[n]? = some deed →
      S ((first ++ later).take n) deed.before := by
  intro n deed hn
  rcases Nat.lt_or_ge n first.length with hlt | hge
  · rw [List.getElem?_append_left hlt] at hn
    rw [List.take_append_of_le_length (Nat.le_of_lt hlt)]
    exact h n deed hn
  · rw [List.getElem?_append_right hge] at hn
    rw [List.take_append, List.take_of_length_le hge]
    exact h' (n - first.length) deed hn

/-- The host that keeps a journal does what the session does. -/
theorem mirrors_simulation (v : Verbosity) :
    Host.Simulation (Session.host v) (host v) (fun _ => True) (fun _ _ => True)
      (Mirrors session) where
  pure _ _ := ⟨rfl, rfl⟩
  bind := Mirrors.bind
  bindings _ := ⟨rfl, rfl⟩
  present _ _ _ := ⟨rfl, rfl⟩
  length _ _ _ := ⟨rfl, rfl⟩
  label _ _ _ := ⟨rfl, rfl⟩
  emit _ _ _ _ := ⟨rfl, rfl⟩
  perform _ _ _ _ _ := ⟨rfl, rfl⟩
  close _ _ _ := ⟨rfl, rfl⟩

theorem step_eq (v : Verbosity) (st : Statement) (χ : Journal) :
    (step v st χ).1 = (Session.step v st χ.session).1 ∧
      (step v st χ).2.session = (Session.step v st χ.session).2 := by
  have hmirrors := (mirrors_simulation v).runStatement st (fun _ _ => trivial) (fun _ _ => trivial)
  rw [Session.host_runStatement] at hmirrors
  obtain ⟨houtcome, hsession⟩ := hmirrors χ.clearLog
  refine ⟨?_, hsession⟩
  have hstep : (step v st χ).1 = ⟨(((host v).runStatement st).run χ.clearLog).1,
    (((host v).runStatement st).run χ.clearLog).2.session.log⟩ := rfl
  rw [hstep, houtcome, hsession]
  rfl

/-- Steps and session are those of the run itself. -/
theorem run_eq (v : Verbosity) (script : List Statement) (χ : Journal) :
    (run v script χ).1 = (Session.run v script χ.session).1 ∧
      (run v script χ).2.session = (Session.run v script χ.session).2 := by
  induction script generalizing χ with
  | nil => exact ⟨rfl, rfl⟩
  | cons st rest ih =>
    obtain ⟨hfirst, hsession⟩ := step_eq v st χ
    obtain ⟨hlater, hlast⟩ := ih (step v st χ).2
    rw [hsession] at hlater hlast
    constructor
    · change (step v st χ).1 :: (run v rest (step v st χ).2).1 = _
      rw [hfirst, hlater]
      rfl
    · exact hlast

/-- A relation between journals that holds across every single step on a unit with a compilation. -/
structure Kept (v : Verbosity) (S : Journal → Journal → Prop) : Prop where
  refl : ∀ χ, S χ χ
  trans : ∀ {χ₁ χ₂ χ₃}, S χ₁ χ₂ → S χ₂ χ₃ → S χ₁ χ₃
  /-- Related journals are about the same units. -/
  units : ∀ {χ χ'}, S χ χ' → χ.session.SameUnits χ'.session
  /-- A label was taken, or there was none left. -/
  label : ∀ {χ u c}, χ.session.unit? u = some c →
    S χ { χ with session := χ.session.setUnit u (c.take .label) }
  /-- An instruction was emitted. -/
  emitted : ∀ {χ u c} {r : Request Text} {i supply}, χ.session.unit? u = some c →
    r.build c.supply = (.ok i, supply) →
    S χ { χ with session := χ.session.emittedTo v u { c with supply } i }
  /-- There was no temporary for the result of an instruction. -/
  exhausted : ∀ {χ u c} {r : Request Text} {e supply}, χ.session.unit? u = some c →
    r.build c.supply = (.error e, supply) →
    S χ { χ with session := χ.session.setUnit u { c with supply } }
  /-- An action was performed. -/
  performed : ∀ {χ u c a r s'}, χ.session.unit? u = some c →
    Session.Performed v u c χ.session a r s' →
    S χ ⟨s', χ.deeds ++ [⟨u, a, χ.session, r⟩]⟩

/-- Work leads to a related journal when the units with a compilation are the given ones. -/
def Leads (S : Journal → Journal → Prop) (there : UnitId → Bool) (work : JournalM α) : Prop :=
  ∀ χ, (∀ u, (χ.session.unit? u).isSome = there u) → S χ (work.run χ).2

namespace Kept

variable {v : Verbosity} {S : Journal → Journal → Prop} (kept : Kept v S)

include kept

theorem leads_bind {there : UnitId → Bool} {x : JournalM α} {f : α → JournalM β}
    (hx : Leads S there x) (hf : ∀ a, Leads S there (f a)) : Leads S there (x >>= f) := by
  intro χ hχ
  have hfirst := hx χ hχ
  rw [run_bind]
  rcases hrun : x.run χ with ⟨r, χ'⟩
  rw [hrun] at hfirst
  cases r with
  | error e => exact hfirst
  | ok a =>
    have hχ' : ∀ u, (χ'.session.unit? u).isSome = there u :=
      fun u => (kept.units hfirst u).trans (hχ u)
    exact kept.trans hfirst (hf a χ' hχ')

theorem leads_emit {there : UnitId → Bool} {u : UnitId} (hu : there u = true) (r : Request Text) :
    Leads S there ((host v).emit u r) := by
  intro χ hχ
  obtain ⟨c, hc⟩ := Option.isSome_iff_exists.mp ((hχ u).trans hu)
  have hrun : ((host v).emit u r).run χ =
      ((((Session.emit v u r) >>= fun _ => pure ()).run χ.session).1,
        { χ with session := ((Session.emit v u r >>= fun _ => pure ()).run χ.session).2 }) := rfl
  rw [hrun, run_bind]
  rcases hbuild : r.build c.supply with ⟨made, supply⟩
  cases made with
  | ok i =>
    rw [Session.emit_run_ok v hc hbuild]
    exact kept.emitted hc hbuild
  | error e =>
    rw [Session.emit_run_error v hc hbuild]
    exact kept.exhausted hc hbuild

/-- The host that keeps a journal takes journals to related ones. -/
theorem simulation (there : UnitId → Bool) :
    Host.Simulation (host v) (host v) (fun u => there u = true) (fun _ _ => True)
      (fun x _ => Leads S there x) where
  pure _ χ _ := kept.refl χ
  bind hx hf := kept.leads_bind hx hf
  bindings χ _ := kept.refl χ
  present _ _ χ _ := kept.refl χ
  length _ _ χ _ := kept.refl χ
  label u hu χ hχ := by
    obtain ⟨c, hc⟩ := Option.isSome_iff_exists.mp ((hχ u).trans hu)
    have hrun : ((host v).label u).run χ = (((Session.fresh u .label).run χ.session).1,
        { χ with session := ((Session.fresh u .label).run χ.session).2 }) := rfl
    rw [hrun, Session.fresh_run hc]
    exact kept.label hc
  emit _ r hu := kept.leads_emit hu r
  perform u a hu _ χ hχ := by
    obtain ⟨c, hc⟩ := Option.isSome_iff_exists.mp ((hχ u).trans hu)
    exact kept.performed hc (Session.performed_runAction v hc a)
  close _ _ χ _ := kept.refl χ

/-- A statement leads to a related journal, also when an overflow ends it. -/
theorem runStatement (st : Statement) (χ : Journal) : S χ (((host v).runStatement st).run χ).2 := by
  have hguards : ∀ u, (kept.simulation fun u => (χ.session.unit? u).isSome).Guards u := by
    intro u x y hx χ' hχ'
    have hrun : ((host v).onUnit u x).run χ' =
        (if (χ'.session.unit? u).isSome then x else return .noUnit : JournalM _).run χ' := rfl
    rw [hrun]
    split
    · rename_i hpresent
      exact hx ((hχ' u).symm.trans hpresent) χ' hχ'
    · exact kept.refl χ'
  exact (kept.simulation _).runStatement_of_guards st (fun u _ => hguards u) (fun _ _ => trivial) χ
    fun _ => rfl

/-- A script leads to a related journal, if logs do not matter. -/
theorem run (hlog : ∀ χ, S χ χ.clearLog) (script : List Statement) (χ : Journal) :
    S χ (Journal.run v script χ).2 := by
  induction script generalizing χ with
  | nil => exact kept.refl χ
  | cons st rest ih =>
    have hstep : S χ (step v st χ).2 := kept.trans (hlog χ) (kept.runStatement st χ.clearLog)
    exact kept.trans hstep (ih (step v st χ).2)

end Kept

end Journal

end ThreeAddress
