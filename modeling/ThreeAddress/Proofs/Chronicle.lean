import ThreeAddress.Proofs.Effects

/-!
# The chronicle of a run

A run in which every single step is noted: what happened, and the session after it. It goes on
noting when an overflow ends a statement. The chronicle changes nothing: its outcomes and sessions
are those of the run itself. Over what was noted it can be said what callers promise: to mark only
labels that they were given, each at most once, and never to lower a counter.
-/

namespace ThreeAddress

open Script (Action Bindings Statement UnitId)

/-- What happened in a step of a run. -/
inductive Event where
  /-- A caller was given a label of a unit. -/
  | issued (u : UnitId) (name : Text)
  /-- A caller had a place of a unit marked with a name. -/
  | placed (u : UnitId) (name : Text)
  /-- The counters of a unit were set from outside. -/
  | counters (u : UnitId) (before after : NameSupply)
  /-- A conditional or a loop ended normally. -/
  | closed (f : Frame)
  /-- Anything else. -/
  | worked
  deriving DecidableEq

namespace Event

/-- What an action on a unit is noted as, given the session before it and its outcome. -/
def ofAction (u : UnitId) : Action → Session → Except Overflow Session.Result → Event
  | .label _, _, .ok (.label name) => issued u name
  | .emit (.mark name) _, s, _ => placed u (name.read s.bindings)
  | .setCounters temps labels, s, _ => counters u (s.unit u).supply ⟨temps, labels⟩
  | _, _, _ => worked

/-- What callers may do after what happened so far: mark a label of the unit that they were given
and have not marked yet, and set its counters to no less than they are. -/
def Allowed (u : UnitId) (past : List Event) : Event → Prop
  | placed w name => w = u → issued u name ∈ past ∧ placed u name ∉ past
  | counters w before after => w = u → before.temps ≤ after.temps ∧ before.labels ≤ after.labels
  | _ => True

instance decidableAllowed (u : UnitId) (past : List Event) :
    (e : Event) → Decidable (Allowed u past e)
  | placed w name =>
    inferInstanceAs (Decidable (w = u → issued u name ∈ past ∧ placed u name ∉ past))
  | counters w before after =>
    inferInstanceAs (Decidable (w = u → before.temps ≤ after.temps ∧ before.labels ≤ after.labels))
  | issued .. | closed .. | worked => .isTrue trivial

/-- Everything that callers did was allowed when they did it. -/
def Disciplined (u : UnitId) (past : List Event) : List Event → Prop
  | [] => True
  | e :: rest => Allowed u past e ∧ Disciplined u (past ++ [e]) rest

instance decidableDisciplined (u : UnitId) : (past events : List Event) →
    Decidable (Disciplined u past events)
  | _, [] => .isTrue trivial
  | past, e :: rest =>
    have := decidableDisciplined u (past ++ [e]) rest
    inferInstanceAs (Decidable (Allowed u past e ∧ Disciplined u (past ++ [e]) rest))

/-- One more event is allowed after all the events before it. -/
theorem disciplined_append_singleton (u : UnitId) (past events : List Event) (e : Event) :
    Disciplined u past (events ++ [e]) ↔
      Disciplined u past events ∧ Allowed u (past ++ events) e := by
  induction events generalizing past with
  | nil => simp only [List.nil_append, Disciplined, and_true, true_and, List.append_nil]
  | cons first rest ih =>
    rw [List.cons_append, Disciplined, Disciplined, ih, List.append_assoc,
      List.singleton_append, and_assoc]

end Event

/-- A step that was noted. -/
structure Moment where
  /-- What happened. -/
  event : Event
  /-- The session after it. -/
  after : Session

/-- A session with everything noted so far, in order. -/
structure Chronicle where
  /-- The session. -/
  session : Session
  /-- What was noted. -/
  moments : List Moment := []

/-- Work in a session that is being noted. -/
abbrev ChronicleM := ExceptT Overflow (StateM Chronicle)

namespace Chronicle

variable {α β : Type}

/-- What happened so far. -/
def events (χ : Chronicle) : List Event := χ.moments.map Moment.event

/-- Does work in the session and notes it, also when it fails. -/
def note (event : Session → Except Overflow α → Event) (work : SessionM α) :
    ChronicleM α := fun χ =>
  ((work.run χ.session).1, ⟨(work.run χ.session).2,
    χ.moments ++ [⟨event χ.session (work.run χ.session).1, (work.run χ.session).2⟩]⟩)

theorem note_run (event : Session → Except Overflow α → Event) {work : SessionM α} {χ : Chronicle}
    {r : Except Overflow α} {s' : Session} (h : work.run χ.session = (r, s')) :
    (note event work).run χ = (r, ⟨s', χ.moments ++ [⟨event χ.session r, s'⟩]⟩) := by
  have hnote : (note event work).run χ = ((work.run χ.session).1, ⟨(work.run χ.session).2,
      χ.moments ++ [⟨event χ.session (work.run χ.session).1, (work.run χ.session).2⟩]⟩) := rfl
  rw [hnote, h]

/-- Asks something about the session, of which nothing is noted. -/
def ask (question : Session → α) : ChronicleM α := fun χ => (.ok (question χ.session), χ)

/-- The session as a host that notes every step. -/
def host (v : Verbosity) : Host ChronicleM where
  bindings := ask (·.bindings)
  present u := ask fun s => (s.unit? u).isSome
  length u := ask fun s => (s.unit u).program.length
  label u := note (fun _ _ => .worked) (Session.fresh u .label)
  emit u r := note (fun _ _ => .worked) ((Session.host v).emit u r)
  perform u a := note (Event.ofAction u a) (Session.runAction v u a)
  close f := note (fun _ _ => .closed f) (pure ())

/-- Runs an outermost statement with an empty log. -/
def step (v : Verbosity) (χ : Chronicle) (st : Statement) : Chronicle :=
  (((host v).runStatement st).run { χ with session := { χ.session with log := [] } }).2

/-- Runs a script; an overflow ends only the outermost statement in which it occurs. -/
def run (v : Verbosity) (script : List Statement) (χ : Chronicle) : Chronicle :=
  script.foldl (step v) χ

/-- The noting host does what the session does. -/
theorem notes_simulation (v : Verbosity) :
    Host.Simulation (Session.host v) (host v) (fun _ => True) (fun _ _ => True)
      (Mirrors session) where
  pure _ _ := ⟨rfl, rfl⟩
  bind := Mirrors.bind
  bindings _ := ⟨rfl, rfl⟩
  present _ _ _ := ⟨rfl, rfl⟩
  length _ _ _ := ⟨rfl, rfl⟩
  label _ _ _ := ⟨rfl, rfl⟩
  emit _ _ _ _ := ⟨rfl, rfl⟩
  perform _ _ _ _ _ := ⟨rfl, rfl⟩
  close _ _ _ := ⟨rfl, rfl⟩

/-- A chronicle leads to the session that the run itself leads to. -/
theorem session_run (v : Verbosity) (script : List Statement) (χ : Chronicle) :
    (run v script χ).session = (Session.run v script χ.session).2 := by
  induction script generalizing χ with
  | nil => rfl
  | cons st rest ih =>
    have hnotes := (notes_simulation v).runStatement st (fun _ _ => trivial) (fun _ _ => trivial)
    rw [Session.host_runStatement] at hnotes
    have hstep : (step v χ st).session = (Session.step v st χ.session).2 :=
      (hnotes { χ with session := { χ.session with log := [] } }).2
    have hrun : run v (st :: rest) χ = run v rest (step v χ st) := rfl
    rw [hrun, ih, hstep]
    rfl

end Chronicle

end ThreeAddress
