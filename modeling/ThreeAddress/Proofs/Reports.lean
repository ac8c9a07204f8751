import ThreeAddress.Proofs.Journal

/-!
# Diagnostics reach everyone who listens

A notice is a diagnostic with the unit that reported it. What a journal tells is the sequence of all
notices of a run. Main statement: at every moment, the list of a unit is the sequence of its own
notices, each named list holds all notices, each as often as the list stands in the reporter of the
unit, and the warnings in the log are those of the places where the log stands in a reporter.
-/

namespace ThreeAddress

open Script (Action Statement UnitId)

/-- A diagnostic with the unit that reported it. -/
abbrev Notice := UnitId × Diagnostic

namespace Notice

/-- The diagnostics of one unit. -/
def own (u : UnitId) (notices : List Notice) : ErrorList :=
  (notices.filter fun n => n.1 = u).map Prod.snd

/-- What a target hears: each diagnostic as often as the target stands in
the reporter of its unit. -/
def heardBy (target : Target) (reporters : UnitId → Reporter) (notices : List Notice) : ErrorList :=
  notices.flatMap fun n => List.replicate ((reporters n.1).count target) n.2

theorem own_append (u : UnitId) (first second : List Notice) :
    own u (first ++ second) = own u first ++ own u second := by
  rw [own, own, own, List.filter_append, List.map_append]

theorem heardBy_append (target : Target) (reporters : UnitId → Reporter)
    (first second : List Notice) :
    heardBy target reporters (first ++ second) =
      heardBy target reporters first ++ heardBy target reporters second := by
  rw [heardBy, heardBy, heardBy, List.flatMap_append]

theorem heardBy_singleton (target : Target) (reporters : UnitId → Reporter) (u : UnitId)
    (d : Diagnostic) :
    heardBy target reporters [(u, d)] = List.replicate ((reporters u).count target) d := by
  rw [heardBy, List.flatMap_singleton]

/-- Only the reporters of units that reported matter. -/
theorem heardBy_congr {target : Target} {reporters reporters' : UnitId → Reporter}
    {notices : List Notice} (h : ∀ n ∈ notices, reporters n.1 = reporters' n.1) :
    heardBy target reporters notices = heardBy target reporters' notices := by
  induction notices with
  | nil => rfl
  | cons first rest ih =>
    have hrest := ih fun n hn => h n (List.mem_cons_of_mem _ hn)
    simp only [heardBy, List.flatMap_cons] at hrest ⊢
    rw [hrest, h first List.mem_cons_self]

end Notice

namespace Reporter

/-- A named list is served as often as it stands in a reporter. -/
theorem get_relay (d : Diagnostic) (r : Reporter) (s : Sinks) (name : Text) :
    (r.relay d s).1.get name = s.get name ++ List.replicate (r.count (.list name)) d := by
  induction r generalizing s with
  | nil => simp [relay]
  | cons target rest ih =>
    cases target with
    | log => simp [relay, ih]
    | list other =>
      rw [relay, ih, Sinks.report, Sinks.get_modify]
      by_cases h : name = other
      · simp [h, List.replicate_succ]
      · simp [h, Ne.symm h]

/-- The log is served as often as it stands in a reporter. -/
theorem log_relay (d : Diagnostic) (r : Reporter) (s : Sinks) :
    (r.relay d s).2 = List.replicate (r.count .log) d.warning := by
  induction r generalizing s with
  | nil => rfl
  | cons target rest ih =>
    cases target with
    | log => simp [relay, ih, List.replicate_succ]
    | list other => simp [relay, ih]

/-- Missing targets of a reporter are skipped, and one that stands there twice is kept twice. -/
theorem count_tee (targets : List (Option Target)) (target : Target) :
    (tee targets).count target = targets.count (some target) := by
  induction targets with
  | nil => rfl
  | cons first rest ih =>
    cases first with
    | none => simpa [tee] using ih
    | some other => simpa [tee, List.count_cons] using ih

end Reporter

theorem ErrorList.fault?_eq_none_iff (l : ErrorList) : l.fault? = none ↔ l = [] := by
  cases l with
  | nil => simp [fault?]
  | cons d rest => simp [fault?]

/-- The warnings in a log. -/
def warnings (log : List LogLine) : List LogLine := log.filter fun l => l.severity = .warning

theorem warnings_append (first second : List LogLine) :
    warnings (first ++ second) = warnings first ++ warnings second := by
  rw [warnings, warnings, warnings, List.filter_append]

theorem warnings_of_info {lines : List LogLine} (h : ∀ l ∈ lines, l.severity = .info) :
    warnings lines = [] := by
  refine List.filter_eq_nil_iff.mpr fun l hl => ?_
  rw [h l hl]
  decide

theorem warnings_atLeast (level v : Verbosity) {lines : List LogLine}
    (h : ∀ l ∈ lines, l.severity = .info) : warnings (Verbosity.atLeast level v lines) = [] := by
  rw [Verbosity.atLeast]
  split
  · exact warnings_of_info h
  · rfl

theorem warnings_trace (v : Verbosity) (i : Instr) : warnings (i.trace v) = [] := by
  rw [Instr.trace]
  split
  · rfl
  · exact warnings_atLeast 2 v (by simp [Instr.traceLine, LogLine.info])

theorem warnings_declareLog (v : Verbosity) (s : Symbol) (result : Except SymbolError Nat) :
    warnings (SymbolTable.declareLog v s result) = [] := by
  cases result with
  | ok id => exact warnings_atLeast 2 v (by simp [SymbolTable.declaredLine, LogLine.info])
  | error e => rfl

theorem warnings_tableLog (v : Verbosity) (op : SymbolTable.Op) (t : SymbolTable) :
    warnings (op.log v (op.apply t).1) = [] := by
  cases op with
  | declare s => exact warnings_declareLog v s _
  | _ => rfl

theorem warnings_finishLog (v : Verbosity) (c : Compilation) : warnings (c.finishLog v) = [] := by
  have hunused : warnings (Verbosity.atLeast 1 v (c.table.unused.map c.unusedLine)) = [] := by
    refine warnings_atLeast 1 v fun l hl => ?_
    obtain ⟨s, -, rfl⟩ := List.mem_map.mp hl
    rfl
  rw [Compilation.finishLog, warnings_append, hunused]
  split <;> rfl

namespace Session

/-- The reporter of each unit. -/
def reporters (s : Session) (u : UnitId) : Reporter := (s.unit u).reporter

/-- Between two sessions, these notices were recorded and passed on. -/
structure Heard (notices : List Notice) (s s' : Session) : Prop where
  /-- The list of each unit grew by its own notices. -/
  lists : ∀ u, (s'.unit? u).map (·.errors) = (s.unit? u).map (·.errors ++ Notice.own u notices)
  /-- Reporters stay as they are. -/
  reporters : s'.reporters = s.reporters
  /-- Each named list grew by what it was to hear. -/
  sinks : ∀ name, s'.sinks.get name =
    s.sinks.get name ++ Notice.heardBy (.list name) s.reporters notices

/-- Between two sessions, the log grew by the warnings for these notices. -/
def Warned (notices : List Notice) (s s' : Session) : Prop :=
  warnings s'.log =
    warnings s.log ++ (Notice.heardBy .log s.reporters notices).map Diagnostic.warning

variable {s s' t : Session} {u : UnitId} {c c' : Compilation} {notices later : List Notice}

theorem Heard.refl (s : Session) : Heard [] s s := by
  refine ⟨fun u => ?_, rfl, fun name => (List.append_nil _).symm⟩
  simp only [Notice.own, List.filter_nil, List.map_nil, List.append_nil]

theorem Heard.trans (h : Heard notices s t) (h' : Heard later t s') :
    Heard (notices ++ later) s s' := by
  refine ⟨fun u => ?_, h'.reporters.trans h.reporters, fun name => ?_⟩
  · have hfirst := h.lists u
    rw [h'.lists u, Notice.own_append]
    cases ht : t.unit? u with
    | none =>
      rw [ht] at hfirst
      rw [Option.map_none, eq_comm, Option.map_eq_none_iff]
      exact Option.map_eq_none_iff.mp hfirst.symm
    | some c =>
      rw [ht, Option.map_some, eq_comm, Option.map_eq_some_iff] at hfirst
      obtain ⟨c₀, hc₀, herrors⟩ := hfirst
      rw [hc₀, Option.map_some, Option.map_some, ← List.append_assoc, herrors]
  · rw [h'.sinks name, h.sinks name, h.reporters, Notice.heardBy_append, List.append_assoc]

theorem Heard.sameUnits (h : Heard notices s s') : s.SameUnits s' := by
  intro u
  have hlists := congrArg Option.isSome (h.lists u)
  rwa [Option.isSome_map, Option.isSome_map] at hlists

theorem Warned.trans (hreporters : t.reporters = s.reporters) (h : Warned notices s t)
    (h' : Warned later t s') : Warned (notices ++ later) s s' := by
  rw [Warned] at h h' ⊢
  rw [h', h, hreporters, Notice.heardBy_append, List.map_append, List.append_assoc]

/-- A change of one unit that records the notices of that unit and passes them on. -/
theorem heard_of_units (h : s.unit? u = some c) (hunits : s'.units = (s.setUnit u c').units)
    (hunit : ∀ n ∈ notices, n.1 = u) (herrors : c'.errors = c.errors ++ Notice.own u notices)
    (hreporter : c'.reporter = c.reporter)
    (hsinks : ∀ name, s'.sinks.get name =
      s.sinks.get name ++ Notice.heardBy (.list name) s.reporters notices) :
        Heard notices s s' := by
  have hafter := unit?_of_units h hunits
  refine ⟨fun w => ?_, ?_, hsinks⟩
  · rw [hafter w]
    by_cases hw : u = w
    · rw [if_pos hw, ← hw, h, Option.map_some, Option.map_some, herrors]
    · have hnone : Notice.own w notices = [] := by
        rw [Notice.own, List.map_eq_nil_iff, List.filter_eq_nil_iff]
        intro n hn
        simpa [hunit n hn] using hw
      simp only [if_neg hw, hnone, List.append_nil]
  · funext w
    rw [reporters, reporters, unit, unit, hafter w]
    split
    · rename_i hw
      rw [← hw, h, Option.getD_some, Option.getD_some, hreporter]
    · rfl

/-- A change of one unit that neither records nor passes on anything, with no warning. -/
theorem quiet_of_units (h : s.unit? u = some c) (hunits : s'.units = (s.setUnit u c').units)
    (herrors : c'.errors = c.errors) (hreporter : c'.reporter = c.reporter)
    (hsinks : ∀ name, s'.sinks.get name = s.sinks.get name) {lines : List LogLine}
    (hlog : s'.log = s.log ++ lines) (hlines : warnings lines = []) :
    Heard [] s s' ∧ Warned [] s s' := by
  constructor
  · refine heard_of_units h hunits (by simp) ?_ hreporter fun name => ?_
    · rw [herrors]
      exact (List.append_nil _).symm
    · rw [hsinks name]
      exact (List.append_nil _).symm
  · rw [Warned, hlog, warnings_append, hlines]
    rfl

/-- A diagnostic reported is recorded in its unit and passed on to the reporter of the unit. -/
theorem heard_reported (h : s.unit? u = some c) (d : Diagnostic) :
    Heard [(u, d)] s (s.reported u c d) := by
  have hunits : (s.reported u c d).units = (s.setUnit u (c.record d)).units := rfl
  refine heard_of_units h hunits (by simp) ?_ rfl fun name => ?_
  · simp [Compilation.record, Notice.own]
  · have hreporter : s.reporters u = c.reporter := by rw [reporters, unit_of_unit? h]
    rw [Notice.heardBy_singleton, hreporter]
    exact Reporter.get_relay d c.reporter s.sinks name

theorem warned_reported (h : s.unit? u = some c) (d : Diagnostic) :
    Warned [(u, d)] s (s.reported u c d) := by
  have hreporter : s.reporters u = c.reporter := by rw [reporters, unit_of_unit? h]
  have hwarnings : warnings (List.replicate (c.reporter.count .log) d.warning) =
      List.replicate (c.reporter.count .log) d.warning := by
    refine List.filter_eq_self.mpr fun l hl => ?_
    rw [List.eq_of_mem_replicate hl]
    rfl
  have hlog : (s.reported u c d).log = s.log ++ (c.reporter.relay d s.sinks).2 := rfl
  rw [Warned, hlog, Reporter.log_relay, warnings_append, hwarnings,
    Notice.heardBy_singleton, hreporter, List.map_replicate]

end Session

namespace Deed

/-- What an action reported: the failure that it gave to its caller, or the fault it was to report,
at the place it was given. -/
def notice? (deed : Deed) : Option Notice :=
  match deed.action, deed.outcome with
  | .declare d typePos, .ok (.declared (.error e)) =>
    some (deed.unit, ⟨(d.spanned deed.before.bindings typePos).pos, .symbol e⟩)
  | .resolve pos _ _ _, .ok (.resolved (.error e)) =>
    some (deed.unit, ⟨pos.map (·.read deed.before.bindings), .symbol e⟩)
  | .report pos cause, _ =>
    (cause.build? deed.before.bindings deed.before.sinks).map fun f =>
      (deed.unit, ⟨pos.map (·.read deed.before.bindings), f⟩)
  | _, _ => none

theorem unit_of_notice? {deed : Deed} {n : Notice} (h : deed.notice? = some n) :
    n.1 = deed.unit := by
  rw [notice?] at h
  split at h
  · cases h
    rfl
  · cases h
    rfl
  · obtain ⟨f, -, rfl⟩ := Option.map_eq_some_iff.mp h
    rfl
  · cases h

end Deed

/-- What a sequence of actions reported. -/
def notices (deeds : List Deed) : List Notice := deeds.filterMap Deed.notice?

namespace Session

variable {s s' : Session} {u : UnitId} {c : Compilation}

/-- The answer to the question for the diagnostics of a unit is its list, as one fault. -/
theorem Performed.outcome_of_errors {v : Verbosity} {r : Except Overflow Result}
    (h : Performed v u c s .errors r s') : r = .ok (.errors c.errors.fault?) := by
  cases h
  rfl

/-- What an action reports is heard, and nothing else. -/
theorem heard_performed {v : Verbosity} {a : Action} {r : Except Overflow Result}
    (h : s.unit? u = some c) (hp : Performed v u c s a r s') :
    Heard (notices [⟨u, a, s, r⟩]) s s' ∧ Warned (notices [⟨u, a, s, r⟩]) s s' := by
  have hself : s.units = (s.setUnit u c).units := by rw [setUnit_self h]
  have hlog : s.log = s.log ++ [] := (List.append_nil _).symm
  have hmention : ∀ names, Heard [] s { s with sinks := s.sinks.mention names } ∧
      Warned [] s { s with sinks := s.sinks.mention names } := fun names =>
    quiet_of_units h hself rfl rfl (fun name => s.sinks.get_mention names name) hlog rfl
  cases hp with
  | declared d typePos id hid =>
    exact quiet_of_units h rfl rfl rfl (fun _ => rfl) rfl (warnings_declareLog v _ _)
  | refused d typePos e he => exact ⟨heard_reported h _, warned_reported h _⟩
  | resolved pos name scope bind id hid =>
    exact quiet_of_units h rfl rfl rfl (fun _ => rfl) hlog rfl
  | missed pos name scope bind hnone =>
    obtain ⟨hlists, hreporters, hsinks⟩ := heard_reported h
      ⟨pos.map (·.read s.bindings), .symbol (.notFound (name.read s.bindings) scope)⟩
    exact ⟨⟨hlists, hreporters, hsinks⟩, warned_reported h _⟩
  | emitted r bind i supply hbuild =>
    exact quiet_of_units h rfl rfl rfl (fun _ => rfl) rfl (warnings_trace v i)
  | exhausted r bind e supply hbuild => exact quiet_of_units h rfl rfl rfl (fun _ => rfl) hlog rfl
  | labelled bind name hname => exact quiet_of_units h rfl rfl rfl (fun _ => rfl) hlog rfl
  | unlabelled bind e he => exact quiet_of_units h rfl rfl rfl (fun _ => rfl) hlog rfl
  | reported pos cause f hf =>
    have hnotices : notices [⟨u, .report pos cause, s, .ok .done⟩] =
        [] ++ [(u, ⟨pos.map (·.read s.bindings), f⟩)] := by
      simp [notices, Deed.notice?, hf]
    have hunit : unit? { s with sinks := s.sinks.mention (cause.lists s.bindings) } u = some c := h
    obtain ⟨hheard, hwarned⟩ := hmention (cause.lists s.bindings)
    rw [hnotices]
    exact ⟨hheard.trans (heard_reported hunit _),
      hwarned.trans hheard.reporters (warned_reported hunit _)⟩
  | unreported pos cause hnone =>
    have hnotices : notices [⟨u, .report pos cause, s, .ok .done⟩] = [] := by
      simp [notices, Deed.notice?, hnone]
    rw [hnotices]
    exact hmention (cause.lists s.bindings)
  | counters temps labels => exact quiet_of_units h rfl rfl rfl (fun _ => rfl) hlog rfl
  | table op => exact quiet_of_units h rfl rfl rfl (fun _ => rfl) rfl (warnings_tableLog v _ _)
  | errors => exact quiet_of_units h hself rfl rfl (fun _ => rfl) hlog rfl
  | finished => exact quiet_of_units h hself rfl rfl (fun _ => rfl) rfl (warnings_finishLog v c)
  | found kind => exact quiet_of_units h hself rfl rfl (fun _ => rfl) hlog rfl

end Session

theorem notices_append (first second : List Deed) :
    notices (first ++ second) = notices first ++ notices second := by
  rw [notices, notices, notices, List.filterMap_append]

namespace Journal

/-- Between two journals, these actions were performed, and what they reported was heard, at the end
and whenever one of them began. -/
structure Told (v : Verbosity) (new : List Deed) (χ χ' : Journal) : Prop where
  deeds : χ'.deeds = χ.deeds ++ new
  heard : χ.session.Heard (notices new) χ'.session
  /-- What was heard when an action began. -/
  moments : ∀ (n : Nat) deed, new[n]? = some deed →
    χ.session.Heard (notices (new.take n)) deed.before
  /-- Each action was performed on a unit with a compilation. -/
  performed : ∀ deed ∈ new, ∃ c s', deed.before.unit? deed.unit = some c ∧
    Session.Performed v deed.unit c deed.before deed.action deed.outcome s'

variable {v : Verbosity} {χ χ₁ χ₂ χ' : Journal} {first later : List Deed}

theorem Told.of_heard (h : χ.session.Heard [] χ'.session) (hdeeds : χ'.deeds = χ.deeds) :
    Told v [] χ χ' := by
  refine ⟨by rw [hdeeds, List.append_nil], h, ?_, ?_⟩
  · intro n deed hn
    cases hn
  · intro deed hdeed
    cases hdeed

theorem Told.trans (h : Told v first χ χ₁) (h' : Told v later χ₁ χ₂) :
    Told v (first ++ later) χ χ₂ := by
  refine ⟨by rw [h'.deeds, h.deeds, List.append_assoc], ?_, ?_, ?_⟩
  · rw [notices_append]
    exact h.heard.trans h'.heard
  · refine moments_append (S := fun deeds s => χ.session.Heard (notices deeds) s) h.moments ?_
    intro n deed hn
    rw [notices_append]
    exact h.heard.trans (h'.moments n deed hn)
  · intro deed hdeed
    rcases List.mem_append.mp hdeed with hmem | hmem
    · exact h.performed deed hmem
    · exact h'.performed deed hmem

/-- An action that was performed. -/
theorem told_performed {u : Script.UnitId} {c : Compilation} {a : Script.Action}
    {r : Except Overflow Session.Result} {s' : Session} (hc : χ.session.unit? u = some c)
    (hp : Session.Performed v u c χ.session a r s') :
    Told v [⟨u, a, χ.session, r⟩] χ ⟨s', χ.deeds ++ [⟨u, a, χ.session, r⟩]⟩ := by
  refine ⟨rfl, (Session.heard_performed hc hp).1, ?_, ?_⟩
  · intro n deed hn
    cases n with
    | zero =>
      cases hn
      exact .refl χ.session
    | succ n => simp at hn
  · intro deed hdeed
    cases List.mem_singleton.mp hdeed
    exact ⟨c, s', hc, hp⟩

/-- A change of one unit of which nothing is kept, and with which nothing is reported. -/
theorem told_of_quiet (h : χ.session.Heard [] χ'.session ∧ χ.session.Warned [] χ'.session)
    (hdeeds : χ'.deeds = χ.deeds) :
    ∃ new, Told v new χ χ' ∧ χ.session.Warned (notices new) χ'.session :=
  ⟨[], .of_heard h.1 hdeeds, h.2⟩

/-- Everything that is reported while a statement runs is heard. -/
theorem kept_told (v : Verbosity) : Kept v fun χ χ' => ∃ new, Told v new χ χ' ∧
    χ.session.Warned (notices new) χ'.session where
  refl χ := ⟨[], .of_heard (.refl χ.session) rfl, (List.append_nil _).symm⟩
  trans := by
    rintro χ₁ χ₂ χ₃ ⟨first, htold, hwarned⟩ ⟨later, htold', hwarned'⟩
    refine ⟨first ++ later, htold.trans htold', ?_⟩
    rw [notices_append]
    exact hwarned.trans htold.heard.reporters hwarned'
  units := by
    rintro χ χ' ⟨new, htold, -⟩
    exact htold.heard.sameUnits
  label hc := told_of_quiet
    (Session.quiet_of_units hc rfl rfl rfl (fun _ => rfl) (List.append_nil _).symm rfl) rfl
  emitted hc _ := told_of_quiet
    (Session.quiet_of_units hc rfl rfl rfl (fun _ => rfl) rfl (warnings_trace v _)) rfl
  exhausted hc _ := told_of_quiet
    (Session.quiet_of_units hc rfl rfl rfl (fun _ => rfl) (List.append_nil _).symm rfl) rfl
  performed := by
    intro χ u c a r s' hc hp
    exact ⟨_, told_performed hc hp, (Session.heard_performed hc hp).2⟩

/-- Everything that is reported while a script runs is heard. -/
theorem told_run (v : Verbosity) (script : List Script.Statement) (χ : Journal) :
    ∃ new, Told v new χ (run v script χ).2 ∧
      warnings ((run v script χ).1.flatMap Session.Step.log) =
        (Notice.heardBy .log χ.session.reporters (notices new)).map Diagnostic.warning := by
  induction script generalizing χ with
  | nil => exact ⟨[], .of_heard (.refl χ.session) rfl, rfl⟩
  | cons st rest ih =>
    obtain ⟨first, htold, hwarned⟩ := (kept_told v).runStatement st χ.clearLog
    obtain ⟨later, htold', hwarnings⟩ := ih (step v st χ).2
    have hrefl := Session.Heard.refl χ.session
    have hclear : Told v [] χ χ.clearLog := .of_heard ⟨hrefl.lists, rfl, hrefl.sinks⟩ rfl
    have hfirst : Told v first χ (step v st χ).2 := hclear.trans htold
    refine ⟨first ++ later, hfirst.trans htold', ?_⟩
    have hsteps : (run v (st :: rest) χ).1 =
        (step v st χ).1 :: (run v rest (step v st χ).2).1 := rfl
    have hlog : warnings (step v st χ).1.log =
        (Notice.heardBy .log χ.session.reporters (notices first)).map Diagnostic.warning := hwarned
    rw [hsteps, List.flatMap_cons, warnings_append, hlog, hwarnings, hfirst.heard.reporters,
      notices_append, Notice.heardBy_append, List.map_append]

end Journal

namespace Session

/-- The reporter that counts for each unit: the last one among its settings. -/
def plannedReporter (plans : List UnitPlan) (u : UnitId) : Reporter :=
  (plans[u]?.map fun plan => Setting.lastReporter plan.settings).getD []

/-- The list of each unit is the sequence of its own notices, and each named list holds all notices,
each as often as the list stands in the reporter of the unit. -/
def Informed (s : Session) (reporters : UnitId → Reporter) (notices : List Notice) : Prop :=
  (∀ u c, s.unit? u = some c → c.errors = Notice.own u notices) ∧
    ∀ name, s.sinks.get name = Notice.heardBy (.list name) reporters notices

theorem reporters_start {plans : List UnitPlan} {u : UnitId}
    (h : ((start plans).2.unit? u).isSome) :
    (start plans).2.reporters u = plannedReporter plans u := by
  obtain ⟨c, hc⟩ := Option.isSome_iff_exists.mp h
  obtain ⟨plan, hplan, -, -, -, hreporter⟩ := start_unit hc
  rw [reporters, unit_of_unit? hc, hreporter, plannedReporter, hplan]
  rfl

/-- What was heard since a session started is all there is. -/
theorem Heard.informed {plans : List UnitPlan} {notices : List Notice} {s : Session}
    (h : Heard notices (start plans).2 s)
    (hreporters : ∀ n ∈ notices, (start plans).2.reporters n.1 = plannedReporter plans n.1) :
    s.Informed (plannedReporter plans) notices := by
  constructor
  · intro u c hc
    have hlists := h.lists u
    rw [hc, Option.map_some, eq_comm, Option.map_eq_some_iff] at hlists
    obtain ⟨c₀, hc₀, herrors⟩ := hlists
    obtain ⟨plan, -, -, hempty, -⟩ := start_unit hc₀
    rw [← herrors, hempty, List.nil_append]
  · intro name
    rw [h.sinks name, start_sinks, List.nil_append, Notice.heardBy_congr hreporters]

end Session

/-- Actions are performed on units that were there when the session started. -/
theorem Journal.Told.reporters_eq {v : Verbosity} {plans : List Session.UnitPlan}
    {deeds : List Deed} {χ' : Journal} (h : Told v deeds ⟨(Session.start plans).2, []⟩ χ') :
    ∀ n ∈ notices deeds,
      (Session.start plans).2.reporters n.1 = Session.plannedReporter plans n.1 := by
  intro n hn
  obtain ⟨deed, hdeed, hnotice⟩ := List.mem_filterMap.mp hn
  obtain ⟨c, -, hc, -⟩ := h.performed deed hdeed
  obtain ⟨i, hi⟩ := List.mem_iff_getElem?.mp hdeed
  have hsame := (h.moments i deed hi).sameUnits deed.unit
  rw [hc, Option.isSome_some, ← Deed.unit_of_notice? hnotice] at hsame
  exact Session.reporters_start hsame.symm

end ThreeAddress
