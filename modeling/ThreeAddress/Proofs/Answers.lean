import ThreeAddress.Proofs.Journal

/-!
# Answers tell what the actions gave

The answer of a statement holds the answers of the statements in its blocks, in the order in which
they ran. Main statement: as long as no statement is ended by an overflow, what the actions in the
journal of a script gave is, in order, what its answers tell.
-/

namespace ThreeAddress

open Script (Action Statement UnitId)
open Session (Answer Result)

mutual

/-- What the actions gave that an answer tells of, in order. -/
def Session.Answer.results : Answer → List Result
  | .noUnit => []
  | .action _ result => [result]
  | .block _ answers => allResults answers

/-- What the actions gave that answers tell of, in order. -/
def Session.Answer.allResults : List Answer → List Result
  | [] => []
  | answer :: rest => answer.results ++ allResults rest

end

theorem Session.Answer.allResults_append (first second : List Answer) :
    allResults (first ++ second) = allResults first ++ allResults second := by
  induction first with
  | nil => rfl
  | cons answer rest ih => rw [List.cons_append, allResults, allResults, ih, List.append_assoc]

/-- What the actions gave that an outermost statement tells of. -/
def Session.Step.results (step : Session.Step) : List Result :=
  (step.outcome.map Answer.results).toOption.getD []

namespace Journal

variable {α β : Type} {v : Verbosity} {u : UnitId}

/-- Work that ends without an overflow has added actions to the journal, all without an overflow,
and what they gave fits the result of the work. -/
def Tells (fits : α → List Result → Prop) (x : JournalM α) : Prop :=
  ∀ χ a, (x.run χ).1 = .ok a → ∃ results,
    (x.run χ).2.deeds.map Deed.outcome = χ.deeds.map Deed.outcome ++ results.map .ok ∧
    fits a results

/-- Work whose answer tells what its actions gave. -/
abbrev TellsOwn (x : JournalM Answer) : Prop :=
  Tells (fun answer results => results = answer.results) x

/-- Work whose answers tell what its actions gave. -/
abbrev TellsAll (x : JournalM (List Answer)) : Prop :=
  Tells (fun answers results => results = Answer.allResults answers) x

/-- Work that adds no action to the journal. -/
def Quiet (x : JournalM α) : Prop := ∀ χ, (x.run χ).2.deeds = χ.deeds

theorem Quiet.bind {x : JournalM α} {f : α → JournalM β} (hx : Quiet x) (hf : ∀ a, Quiet (f a)) :
    Quiet (x >>= f) := by
  intro χ
  have hfirst := hx χ
  rw [run_bind]
  rcases hrun : x.run χ with ⟨r, χ₁⟩
  rw [hrun] at hfirst
  cases r with
  | error e => exact hfirst
  | ok a => exact (hf a χ₁).trans hfirst

theorem quiet_emitAt (r : Request Text) : Quiet ((host v).emitAt u r) :=
  Quiet.bind (fun _ => rfl) fun _ => Quiet.bind (fun _ => rfl) fun _ _ => rfl

namespace Tells

variable {P : α → List Result → Prop} {Q : β → List Result → Prop}

theorem pure {a : α} (h : P a []) : Tells P (Pure.pure a) := by
  intro χ b hb
  cases hb
  exact ⟨[], (List.append_nil _).symm, h⟩

theorem bind {x : JournalM α} {f : α → JournalM β} (hx : Tells P x)
    (hf : ∀ a results, P a results → Tells (fun b more => Q b (results ++ more)) (f a)) :
    Tells Q (x >>= f) := by
  intro χ b hb
  rw [run_bind] at hb ⊢
  rcases hrun : x.run χ with ⟨r, χ₁⟩
  rw [hrun] at hb
  cases r with
  | error e => cases hb
  | ok a =>
    obtain ⟨results, hdeeds, hP⟩ := hx χ a (by rw [hrun])
    obtain ⟨more, hmore, hQ⟩ := hf a results hP χ₁ b hb
    rw [hrun] at hdeeds
    refine ⟨results ++ more, ?_, hQ⟩
    rw [hmore, hdeeds, List.map_append, List.append_assoc]

theorem bind_quiet {x : JournalM α} {f : α → JournalM β} (hx : Quiet x) (hf : ∀ a, Tells Q (f a)) :
    Tells Q (x >>= f) := by
  have hnone : Tells (fun _ results => results = []) x := by
    intro χ a _
    refine ⟨[], ?_, rfl⟩
    rw [hx χ]
    exact (List.append_nil _).symm
  refine hnone.bind fun a results hresults => ?_
  subst hresults
  exact hf a

theorem perform (a : Action) :
    Tells (fun result results => results = [result]) ((host v).perform u a) := by
  intro χ result hresult
  refine ⟨[result], ?_, rfl⟩
  have hrun : ((host v).perform u a).run χ = Journal.perform v u a χ := rfl
  rw [hrun, Journal.perform] at hresult ⊢
  dsimp only at hresult ⊢
  rw [hresult, List.map_append]
  rfl

section Frames

variable {block other : JournalM (List Answer)}

theorem ifThen (test : Relation Text) (hblock : TellsAll block) :
    TellsAll ((host v).ifThen u test block) := by
  refine bind_quiet (fun _ => rfl) fun start => ?_
  refine bind_quiet (fun _ => rfl) fun yes => bind_quiet (fun _ => rfl) fun done => ?_
  refine bind_quiet (quiet_emitAt _) fun first => bind_quiet (quiet_emitAt _) fun second => ?_
  refine bind_quiet (fun _ => rfl) fun _ => hblock.bind fun answers results hresults => ?_
  refine bind_quiet (fun _ => rfl) fun _ => bind_quiet (fun _ => rfl) fun stop => ?_
  refine bind_quiet (fun _ => rfl) fun _ => pure ?_
  rw [List.append_nil, hresults]

theorem ifElse (test : Relation Text) (hblock : TellsAll block) (hother : TellsAll other) :
    TellsAll ((host v).ifElse u test block other) := by
  refine bind_quiet (fun _ => rfl) fun start => ?_
  refine bind_quiet (fun _ => rfl) fun yes => bind_quiet (fun _ => rfl) fun done => ?_
  refine bind_quiet (quiet_emitAt _) fun branch => hother.bind fun earlier results hresults => ?_
  refine bind_quiet (quiet_emitAt _) fun jump => bind_quiet (fun _ => rfl) fun _ => ?_
  refine hblock.bind fun later more hmore => ?_
  refine bind_quiet (fun _ => rfl) fun _ => bind_quiet (fun _ => rfl) fun stop => ?_
  refine bind_quiet (fun _ => rfl) fun _ => pure ?_
  rw [List.append_nil, hresults, hmore, Answer.allResults_append]

theorem loop (test : Relation Script.Operand) (hblock : TellsAll block) (hother : TellsAll other) :
    TellsAll ((host v).loop u (do
      let answers ← other
      let b ← (host v).bindings
      return (answers, test.map (·.read b))) block) := by
  rw [Host.loop]
  simp only [bind_assoc, pure_bind]
  refine bind_quiet (fun _ => rfl) fun start => bind_quiet (fun _ => rfl) fun top => ?_
  refine bind_quiet (fun _ => rfl) fun body => bind_quiet (fun _ => rfl) fun done => ?_
  refine bind_quiet (fun _ => rfl) fun _ => hother.bind fun earlier results hresults => ?_
  refine bind_quiet (fun _ => rfl) fun b => bind_quiet (quiet_emitAt _) fun branch => ?_
  refine bind_quiet (quiet_emitAt _) fun exit => bind_quiet (fun _ => rfl) fun _ => ?_
  refine hblock.bind fun later more hmore => bind_quiet (quiet_emitAt _) fun back => ?_
  refine bind_quiet (fun _ => rfl) fun _ => bind_quiet (fun _ => rfl) fun stop => ?_
  refine bind_quiet (fun _ => rfl) fun _ => pure ?_
  rw [List.append_nil, hresults, hmore, Answer.allResults_append]

end Frames

/-- A unit without a compilation has nothing to tell. -/
theorem onUnit {x : JournalM Answer} (hx : TellsOwn x) : TellsOwn ((host v).onUnit u x) := by
  refine bind_quiet (fun _ => rfl) fun present => ?_
  cases present with
  | true => exact hx
  | false => exact pure rfl

theorem answered {x : JournalM (List Answer)} (hx : TellsAll x) :
    TellsOwn (do
      let answers ← x
      return Answer.block (← (host v).length u) answers) := by
  refine hx.bind fun answers results hresults => bind_quiet (fun _ => rfl) fun n => pure ?_
  rw [List.append_nil, hresults, Answer.results]

end Tells

mutual

/-- The answer of a statement tells what its actions gave. -/
theorem tells_runStatement : (st : Statement) → TellsOwn ((host v).runStatement st)
  | .act u a => by
    refine .onUnit ((Tells.perform a).bind fun result results hresults => ?_)
    refine .bind_quiet (fun _ => rfl) fun n => .pure ?_
    rw [List.append_nil, hresults, Answer.results]
  | .ifThen u test yes => by
    have hyes := tells_runBlock yes
    exact .onUnit (.bind_quiet (fun _ => rfl) fun b => .answered (.ifThen _ hyes))
  | .ifElse u test yes no => by
    have hyes := tells_runBlock yes
    have hno := tells_runBlock no
    exact .onUnit (.bind_quiet (fun _ => rfl) fun b => .answered (.ifElse _ hyes hno))
  | .loop u pre test body => by
    have hpre := tells_runBlock pre
    have hbody := tells_runBlock body
    exact .onUnit (.answered (.loop test hbody hpre))

/-- The answers of a block tell what its actions gave. -/
theorem tells_runBlock : (block : List Statement) → TellsAll ((host v).runBlock block)
  | [] => .pure rfl
  | st :: rest => by
    refine (tells_runStatement st).bind fun answer results hresults => ?_
    refine (tells_runBlock rest).bind fun answers more hmore => .pure ?_
    rw [List.append_nil, hresults, hmore, Answer.allResults]

end

/-- The steps of a script that no overflow interrupts tell what its actions gave. -/
theorem results_run (script : List Statement) {χ : Journal}
    (hok : ∀ step ∈ (run v script χ).1, step.outcome.isOk = true) :
    (run v script χ).2.deeds.map Deed.outcome =
      χ.deeds.map Deed.outcome ++ ((run v script χ).1.flatMap Session.Step.results).map .ok := by
  induction script generalizing χ with
  | nil => exact (List.append_nil _).symm
  | cons st rest ih =>
    have hcons : (run v (st :: rest) χ).1 = (step v st χ).1 :: (run v rest (step v st χ).2).1 := rfl
    rw [hcons] at hok ⊢
    obtain ⟨hfirst, hrest⟩ := List.forall_mem_cons.mp hok
    have hlast := ih hrest
    cases houtcome : (step v st χ).1.outcome with
    | error e =>
      rw [houtcome] at hfirst
      cases hfirst
    | ok answer =>
      obtain ⟨results, hdeeds, hresults⟩ :=
        tells_runStatement (v := v) st χ.clearLog answer houtcome
      have hstep : (step v st χ).1.results = results := by
        rw [Session.Step.results, houtcome, hresults]
        rfl
      rw [List.flatMap_cons, List.map_append, hstep, ← List.append_assoc]
      have hafter : (step v st χ).2.deeds.map Deed.outcome =
          χ.deeds.map Deed.outcome ++ results.map .ok := hdeeds
      rw [← hafter]
      exact hlast

/-- The journal that is kept of a script from the start of a session tells what the script does
there: its steps and its session are those of the script, and if no overflow interrupts it, then
what its actions gave is what the answers tell. -/
structure Faithful (v : Verbosity) (s : Session) (script : List Statement) : Prop where
  steps : (run v script ⟨s, []⟩).1 = (Session.run v script s).1
  session : (run v script ⟨s, []⟩).2.session = (Session.run v script s).2
  results : (∀ step ∈ (Session.run v script s).1, step.outcome.isOk = true) →
    (run v script ⟨s, []⟩).2.deeds.map Deed.outcome =
      ((Session.run v script s).1.flatMap Session.Step.results).map .ok

theorem faithful (v : Verbosity) (s : Session) (script : List Statement) : Faithful v s script := by
  obtain ⟨hsteps, hsession⟩ := run_eq v script ⟨s, []⟩
  refine ⟨hsteps, hsession, fun hok => ?_⟩
  rw [← hsteps] at hok ⊢
  exact results_run script hok

end Journal

end ThreeAddress
