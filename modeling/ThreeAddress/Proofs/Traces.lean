import ThreeAddress.Proofs.Reading
import ThreeAddress.Proofs.Steps
import ThreeAddress.Proofs.Unbounded

/-!
# The log of emitted code

An instruction is logged where it is made and joins the program afterwards, and a marker is not
logged at all. Main statement: whatever a statement that emits code does, and wherever an
overflow ends it, its log holds one line for each instruction that it appended, markers apart,
in the order of the program.
-/

namespace ThreeAddress

open Script (Action Statement UnitId)

theorem Text.chomp_append_newline (t : Text) : chomp (t ++ [newline]) = t := by
  simp [chomp]

namespace Instr

/-- The newline that ends the text of an instruction is its last byte,
whatever its operands hold. -/
theorem text_eq_dropLast (i : Instr) : i.text = i.text.dropLast ++ [Text.newline] := by
  rw [text_eq_line, List.dropLast_concat]

theorem traceLine_eq (i : Instr) :
    i.traceLine = .info ("emitting " ++ i.kind.name ++ " `" ++ i.text.dropLast ++ "'") := by
  have hchomp : i.text.chomp = i.text.dropLast := by
    rw [text_eq_line, Text.chomp_append_newline, List.dropLast_concat]
  rw [traceLine, hchomp]

/-- A line of the trace is shown whole, since it ends with a quote. -/
theorem message_traceLine (i : Instr) : i.traceLine.message = i.traceLine.text := by
  have hlast : i.traceLine.text.getLast? = some 39 := List.getLast?_concat
  rw [LogLine.message, Text.chomp, hlast]
  rfl

theorem flatMap_trace (v : Verbosity) (p : Program) :
    p.flatMap (trace v) = if 2 ≤ v then (p.filter (·.kind ≠ .label)).map traceLine else [] := by
  induction p with
  | nil => simp
  | cons i rest ih =>
    rw [List.flatMap_cons, ih, trace, Verbosity.atLeast]
    by_cases hkind : i.kind = .label <;> by_cases hv : 2 ≤ v <;> simp [hkind, hv]

end Instr

namespace Session

variable {α β : Type} {v : Verbosity} {u : UnitId}

/-- From one session to another, instructions were appended to the program of a unit
and their trace to the log. -/
def Traced (v : Verbosity) (u : UnitId) (c : Compilation) (s s' : Session) : Prop :=
  ∃ c' appended, s'.unit? u = some c' ∧ c'.program = c.program ++ appended ∧
    s'.log = s.log ++ appended.flatMap (Instr.trace v)

/-- A change of the counters appends nothing and logs nothing. -/
theorem traced_setUnit {s : Session} {c : Compilation} (hc : s.unit? u = some c)
    (supply : NameSupply) :
    Traced v u c s (s.setUnit u { c with supply }) :=
  ⟨{ c with supply }, [], by rw [unit?_of_units hc rfl, if_pos rfl], (List.append_nil _).symm,
    (List.append_nil _).symm⟩

/-- An instruction joins the program and its trace the log. -/
theorem traced_emittedTo {s : Session} {c : Compilation} (hc : s.unit? u = some c)
    (supply : NameSupply) (i : Instr) : Traced v u c s (s.emittedTo v u { c with supply } i) := by
  have hunit : (s.emittedTo v u { c with supply } i).unit? u = some ({ c with supply }.emit i) :=
    (unit?_of_units hc rfl u).trans (if_pos rfl)
  refine ⟨_, [i], hunit, rfl, ?_⟩
  rw [List.flatMap_singleton]
  rfl

/-- Work on a unit that appends instructions and their trace, however it ends. -/
def Traces (v : Verbosity) (u : UnitId) (work : SessionM α) : Prop :=
  ∀ s c, s.unit? u = some c → Traced v u c s (work.run s).2

namespace Traces

/-- Work that leaves the units and the log as they are. -/
theorem of_silent {work : SessionM α}
    (h : ∀ s, (work.run s).2.units = s.units ∧ (work.run s).2.log = s.log) : Traces v u work := by
  intro s c hc
  obtain ⟨hunits, hlog⟩ := h s
  refine ⟨c, [], ?_, (List.append_nil _).symm, by rw [hlog, List.flatMap_nil, List.append_nil]⟩
  rw [unit?, hunits]
  exact hc

theorem pure (a : α) : Traces v u (Pure.pure a) := of_silent fun _ => ⟨rfl, rfl⟩

theorem bind {x : SessionM α} {f : α → SessionM β} (hx : Traces v u x)
    (hf : ∀ a, Traces v u (f a)) :
    Traces v u (x >>= f) := by
  intro s c hc
  obtain ⟨c₁, first, hc₁, hprogram₁, hlog₁⟩ := hx s c hc
  rw [run_bind]
  rcases hrun : x.run s with ⟨r, s₁⟩
  rw [hrun] at hc₁ hlog₁
  cases r with
  | error e => exact ⟨c₁, first, hc₁, hprogram₁, hlog₁⟩
  | ok a =>
    obtain ⟨c₂, later, hc₂, hprogram₂, hlog₂⟩ := hf a s₁ c₁ hc₁
    refine ⟨c₂, first ++ later, hc₂, ?_, ?_⟩
    · rw [hprogram₂, hprogram₁, List.append_assoc]
    · rw [hlog₂, hlog₁, List.append_assoc, List.flatMap_append]

theorem label : Traces v u (Session.fresh u .label) := by
  intro s c hc
  rw [fresh_run hc]
  exact traced_setUnit hc _

theorem emit (r : Request Text) : Traces v u (Session.emit v u r) := by
  intro s c hc
  rcases hbuild : r.build c.supply with ⟨made, supply⟩
  cases made with
  | ok i =>
    rw [emit_run_ok v hc hbuild]
    exact traced_emittedTo hc supply i
  | error e =>
    rw [emit_run_error v hc hbuild]
    exact traced_setUnit hc supply

/-- An action that emits does no more than its request or its label, apart from a binding. -/
theorem perform {a : Action} (ha : a.emits = true) : Traces v u (runAction v u a) := by
  intro s c hc
  have hperformed := performed_runAction v hc a
  generalize (runAction v u a).run s = result at hperformed ⊢
  obtain ⟨r, s'⟩ := result
  cases hperformed with
  | emitted r bind i supply hbuild => exact traced_emittedTo hc supply i
  | exhausted r bind e supply hbuild => exact traced_setUnit hc supply
  | labelled bind name hname => exact traced_setUnit hc _
  | unlabelled bind e hname => exact traced_setUnit hc _
  | _ => cases ha

/-- Statements that emit code for a unit are traced if their parts are. -/
theorem simulation (v : Verbosity) (u : UnitId) :
    Host.Simulation (host v) (host v) (fun w => w = u) (fun _ a => a.emits = true)
      (fun x _ => Traces v u x) where
  pure := pure
  bind := bind
  bindings := of_silent fun _ => ⟨rfl, rfl⟩
  present _ _ := of_silent fun _ => ⟨rfl, rfl⟩
  length _ _ := of_silent fun _ => ⟨rfl, rfl⟩
  label w hw := by
    subst hw
    exact label
  emit w r hw := by
    subst hw
    exact bind (emit r) fun _ => pure ()
  perform w a hw ha := by
    subst hw
    exact perform ha
  close _ _ := pure ()

end Traces

/-- The log of a statement that emits code, also of one that an overflow ends: from verbosity 2 on a
note for each instruction appended that is no marker, in order, with the kind of the instruction and
its text up to the newline at its end; below that nothing. -/
theorem log_mirrors_program (v : Verbosity) (u : UnitId) (st : Statement) (s : Session)
    (c : Compilation) (hunits : ∀ w ∈ st.units, w = u) (hacts : ∀ x ∈ st.actions, x.2.emits = true)
    (hc : s.unit? u = some c) :
    ∃ c' appended, (step v st s).2.unit? u = some c' ∧ c'.program = c.program ++ appended ∧
      (step v st s).1.log =
        (if 2 ≤ v then
          (appended.filter (·.kind ≠ .label)).map fun i =>
            ⟨.info, "emitting " ++ i.kind.name ++ " `" ++ i.text.dropLast ++ "'"⟩
        else []) ∧
      (∀ i ∈ appended, i.text = i.text.dropLast ++ [Text.newline]) ∧
      ∀ line ∈ (step v st s).1.log, line.message = line.text := by
  have htraces := (Traces.simulation v u).runStatement st hunits hacts
  rw [host_runStatement] at htraces
  obtain ⟨c', appended, hc', hprogram, hlog⟩ := htraces { s with log := [] } c hc
  have hlines : (step v st s).1.log =
      if 2 ≤ v then (appended.filter (·.kind ≠ .label)).map Instr.traceLine else [] := by
    rw [← Instr.flatMap_trace]
    exact hlog
  refine ⟨c', appended, hc', hprogram, ?_, fun i _ => i.text_eq_dropLast, ?_⟩
  · rw [hlines, funext Instr.traceLine_eq]
    rfl
  · intro line hline
    rw [hlines] at hline
    split at hline
    · obtain ⟨i, -, rfl⟩ := List.mem_map.1 hline
      exact i.message_traceLine
    · cases hline

/-- A conditional that ends at its third label has appended four instructions, one of them a
marker, and logged three. -/
theorem log_mirrors_fiveLabels :
    let s : Session := { units := [some { supply := ⟨5, Int64.maxValue - 2⟩ }] }
    ((step 2 fiveLabels s).1.outcome.map fun _ => ()) = .error ⟨.label⟩ ∧
      (step 2 fiveLabels s).1.log.length = 3 ∧
      ∃ c' appended, (step 2 fiveLabels s).2.unit? 0 = some c' ∧ c'.program = appended ∧
        appended.length = 4 ∧
        (step 2 fiveLabels s).1.log = (appended.filter (·.kind ≠ .label)).map fun i =>
          ⟨.info, "emitting " ++ i.kind.name ++ " `" ++ i.text.dropLast ++ "'"⟩ := by
  intro s
  obtain ⟨c', appended, hc', hprogram, hlog, -, -⟩ := log_mirrors_program 2 0 fiveLabels s
    { supply := ⟨5, Int64.maxValue - 2⟩ } (by decide) (by decide) rfl
  have hlength : (((step 2 fiveLabels s).2.unit? 0).map (·.program.length)) = some 4 := by
    decide +kernel
  rw [hc', Option.map_some, Option.some.injEq, hprogram] at hlength
  exact ⟨by decide +kernel, by decide +kernel, c', appended, hc', hprogram, hlength, hlog⟩

end Session

end ThreeAddress
