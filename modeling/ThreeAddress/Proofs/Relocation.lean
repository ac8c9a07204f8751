import ThreeAddress.Proofs.Meaning
import ThreeAddress.Proofs.Templates

/-!
# Lowered code can be relocated

Statements that emit code and read nothing but texts given outright and results of their own are
lowered to the same code wherever they stand, up to the numbers of the names they take. Main
statement: in every unit, from any counters that leave room, lowering appends the template of the
statements with its holes filled by the names that follow the counters, moves the counters past them
and changes nothing else of the unit.
-/

namespace ThreeAddress

open Script (Action Bindings Operand Statement UnitId)

/-! ## Filling a template -/

/-- An unlimited unit stands where a draft does, if the first names have the given numbers: it has
taken as many names, its program goes on with the filled lines, and the results bound last are the
filled ones, under the given names. -/
structure Fits (first : Category → Int) (before : Program) (outer : Bindings)
    (names : List Text) (d : Draft) (σ : Unbounded) : Prop where
  number : ∀ category, σ.number category = first category + d.number category
  program : σ.program = before ++ d.lines.map (·.fill first)
  bindings : σ.bindings = d.bound.map (fun x => (x.1, x.2.fill first)) ++ outer
  names : d.bound.map Prod.fst = names

theorem lookup_map_fill (first : Category → Int) (bound : List (Text × Term)) (name : Text) :
    (bound.map fun x => (x.1, x.2.fill first)).lookup name =
      (bound.lookup name).map (·.fill first) := by
  induction bound with
  | nil => rfl
  | cons x rest ih =>
    rw [List.map_cons, List.lookup_cons, List.lookup_cons, ih]
    cases name == x.1 <;> rfl

namespace Fits

variable {first : Category → Int} {before : Program} {outer : Bindings}
    {names : List Text} {d : Draft}
  {σ : Unbounded}

/-- A known operand stands for the same text in the unit and in the filled draft. -/
theorem read (h : Fits first before outer names d σ) {o : Operand} (ho : o.isKnown names = true) :
    o.read σ.bindings = (d.read o).fill first := by
  cases o with
  | literal t => rfl
  | named name =>
    have hmem : name ∈ d.bound.map Prod.fst := by
      rw [h.names]
      exact List.contains_iff_mem.mp ho
    obtain ⟨x, hx, rfl⟩ := List.mem_map.mp hmem
    obtain ⟨t, ht⟩ : ∃ t, d.bound.lookup x.1 = some t :=
      Option.isSome_iff_exists.mp (List.lookup_isSome_iff.mpr ⟨x, hx, beq_self_eq_true x.1⟩)
    rw [Operand.read, Bindings.get, h.bindings, List.lookup_append, lookup_map_fill, Draft.read, ht]
    rfl

theorem relation (h : Fits first before outer names d σ) {test : Relation Operand}
    (htest : test.terms.all (·.isKnown names) = true) :
    test.map (·.read σ.bindings) = (test.map d.read).map (·.fill first) := by
  rw [Relation.map_map]
  exact Relation.map_congr fun o ho => h.read (List.all_eq_true.mp htest o ho)

theorem request (h : Fits first before outer names d σ) {r : Request Operand}
    (hr : r.terms.all (·.isKnown names) = true) :
    r.map (·.read σ.bindings) = (r.map d.read).map (·.fill first) := by
  rw [Request.map_map]
  exact Request.map_congr fun o ho => h.read (List.all_eq_true.mp hr o ho)

theorem advance (h : Fits first before outer names d σ) (category : Category) :
    Fits first before outer names (d.advance category) (σ.advance category) where
  number other := by
    have hother := h.number other
    cases category <;> cases other <;>
      simp only [Unbounded.number, Unbounded.advance, Draft.number, Draft.advance] at hother ⊢ <;>
        omega
  program := by cases category <;> exact h.program
  bindings := by cases category <;> exact h.bindings
  names := by cases category <;> exact h.names

theorem next_label (h : Fits first before outer names d σ) :
    σ.labels + 1 = first .label + (d.labels + 1 : Nat) := by
  have hlabels : σ.labels = first .label + d.labels := h.number .label
  omega

theorem add (h : Fits first before outer names d σ) (line : Line) :
    Fits first before outer names (d.add line) (σ.extend (line.fill first)) where
  number category := by
    have hnumber := h.number category
    cases category <;> exact hnumber
  program := by
    rw [Unbounded.extend, Draft.add, h.program, List.map_append, List.append_assoc]
    rfl
  bindings := h.bindings
  names := h.names

/-- An instruction without a result that is the filled line. -/
theorem put (h : Fits first before outer names d σ) {r : Request Term} {i : Instr}
    (hi : (r.map (·.fill first)).instr [] = i) :
    Fits first before outer names (d.put r) (σ.extend i) := by
  rw [← hi]
  exact h.add ⟨.text [], r⟩

theorem bind (h : Fits first before outer names d σ) (t : Term) {name : Option Operand}
    (hname : name.all (·.isLiteral) = true) :
    Fits first before outer (Script.literalName name ++ names) (d.bind name t)
      { σ with bindings := σ.bindings.bind name (t.fill first) } := by
  have hnumber : ∀ category,
      { σ with bindings := σ.bindings.bind name (t.fill first) }.number category =
        σ.number category := by
    intro category
    cases category <;> rfl
  rcases name with _ | text | text
  · exact ⟨h.number, h.program, h.bindings, h.names⟩
  · refine ⟨fun category => ?_, h.program, congrArg _ h.bindings, congrArg _ h.names⟩
    rw [hnumber, h.number]
    cases category <;> rfl
  · cases hname

theorem branch (h : Fits first before outer names d σ) {test : Relation Operand}
    (htest : test.terms.all (·.isKnown names) = true) {k : Nat} {n : Int}
    (hn : n = first .label + k) :
    let known := test.map (·.read σ.bindings)
    Fits first before outer names (d.put (.branch (test.map d.read) (.hole .label k)))
      (σ.extend (.condJump known.left known.relop known.right (Category.label.named n))) := by
  refine h.put ?_
  rw [h.relation htest, ← Term.fill_hole hn]
  rfl

theorem jump (h : Fits first before outer names d σ) {k : Nat} {n : Int}
    (hn : n = first .label + k) :
    Fits first before outer names (d.put (.jump (.hole .label k)))
      (σ.extend (.jump (Category.label.named n))) :=
  h.put (congrArg Instr.jump (Term.fill_hole hn))

theorem mark (h : Fits first before outer names d σ) {k : Nat} {n : Int}
    (hn : n = first .label + k) :
    Fits first before outer names (d.put (.mark (.hole .label k)))
      (σ.extend (.label (Category.label.named n))) :=
  h.put (congrArg Instr.label (Term.fill_hole hn))

theorem openBranch (h : Fits first before outer names d σ) {test : Relation Operand}
    (htest : test.terms.all (·.isKnown names) = true) :
    Fits first before outer names (d.openBranch (test.map d.read))
      (σ.openBranch (test.map (·.read σ.bindings))) :=
  ((h.advance .label).advance .label).branch htest (h.number .label)

theorem openYes (h : Fits first before outer names d σ) {k : Nat} {n : Int}
    (hn : n = first .label + k) :
    Fits first before outer names (d.openYes k) (σ.openYes n) :=
  (h.jump (by omega)).mark hn

theorem openLoop (h : Fits first before outer names d σ) :
    Fits first before outer names d.openLoop σ.openLoop :=
  (((h.advance .label).advance .label).advance .label).mark (h.number .label)

theorem openBody (h : Fits first before outer names d σ) {test : Relation Operand}
    (htest : test.terms.all (·.isKnown names) = true) {k : Nat} {n : Int}
    (hn : n = first .label + k) :
    Fits first before outer names (d.openBody (test.map d.read) k)
      (σ.openBody (test.map (·.read σ.bindings)) n) :=
  ((h.branch htest (by omega)).jump (by omega)).mark (by omega)

theorem closeLoop (h : Fits first before outer names d σ) {k : Nat} {n : Int}
    (hn : n = first .label + k) :
    Fits first before outer names (d.closeLoop k) (σ.closeLoop n) :=
  (h.jump hn).mark (by omega)

/-- An action that emits or takes a label does to the unit what it does to the draft. -/
theorem perform (h : Fits first before outer names d σ) {a : Action} (ha : a.emits = true)
    (hclosed : a.isClosed names = true) :
    Fits first before outer (a.binds ++ names) (d.perform a) ((Unbounded.perform a).run σ).2 := by
  rw [Action.isClosed, Bool.and_eq_true] at hclosed
  obtain ⟨hreads, hname⟩ := hclosed
  cases a with
  | emit r bind =>
    have hrun : ((Unbounded.perform (.emit r bind)).run σ).2 =
        let made := (Unbounded.emit (r.map (·.read σ.bindings))).run σ
        { made.2 with bindings := Session.boundResult made.2.bindings bind made.1 } := rfl
    rw [hrun, h.request hreads]
    cases hstores : r.stores with
    | true =>
      have hstores' : ((r.map d.read).map (·.fill first)).stores = true := by
        cases r with
        | binary | index => rfl
        | _ => cases hstores
      have hline := (h.advance .temp).add ⟨.hole .temp d.temps, r.map d.read⟩
      have hbound := hline.bind (.hole .temp d.temps) hname
      rw [Unbounded.run_emit_of_stores hstores', Draft.perform, Action.binds, if_pos hstores,
        if_pos hstores, h.number .temp]
      dsimp only
      rw [Session.boundResult, Request.dst?_instr, hstores', if_pos rfl]
      exact hbound
    | false =>
      have hstores' : ((r.map d.read).map (·.fill first)).stores = false := by
        cases r with
        | binary | index => cases hstores
        | _ => rfl
      rw [Unbounded.run_emit_of_not_stores hstores', Draft.perform, Action.binds, hstores]
      dsimp only
      rw [Session.boundResult, Request.dst?_instr, hstores']
      exact h.put rfl
  | label bind =>
    have hname' : (Term.hole .label d.labels).fill first = Category.label.named σ.labels :=
      Term.fill_hole (h.number .label)
    have hbound := (h.advance .label).bind (.hole .label d.labels) hname
    rw [hname'] at hbound
    exact hbound
  | _ => cases ha

end Fits

mutual

/-- A statement that emits code and is closed does to the unit what it does to the draft. -/
theorem fits_runStatement {first : Category → Int} {before : Program} {outer : Bindings} :
    (st : Statement) → {names : List Text} → {d : Draft} → {σ : Unbounded} →
    (∀ x ∈ st.actions, x.2.emits = true) → st.isClosed names = true →
      Fits first before outer names d σ →
    Fits first before outer (st.binds ++ names) (st.draft d)
      ((Unbounded.host.runStatement st).run σ).2
  | .act u a, names, d, σ, hacts, hclosed, h => by
    have ha : a.emits = true := hacts (u, a) (by simp [Statement.actions])
    rw [Host.runStatement, Statement.draft]
    exact h.perform ha hclosed
  | .ifThen u test yes, names, d, σ, hacts, hclosed, h => by
    rw [Statement.isClosed, Bool.and_eq_true] at hclosed
    have hyes :=
      fits_runBlock yes hacts hclosed.2 ((h.openBranch hclosed.1).openYes (h.number .label))
    rw [Host.runStatement, Statement.draft]
    exact hyes.mark h.next_label
  | .ifElse u test yes no, names, d, σ, hacts, hclosed, h => by
    rw [Statement.isClosed, Bool.and_eq_true, Bool.and_eq_true] at hclosed
    obtain ⟨⟨htest, hclosedNo⟩, hclosedYes⟩ := hclosed
    -- The second block comes first in the program, so the first one may read its results.
    have hno := fits_runBlock no (fun x hx => hacts x (by simp [Statement.actions, hx])) hclosedNo
      (h.openBranch htest)
    have hyes :=
      fits_runBlock yes (fun x hx => hacts x (by simp [Statement.actions, hx])) hclosedYes
        (hno.openYes (h.number .label))
    rw [Unbounded.run_ifElse, Statement.draft, Statement.binds, List.append_assoc]
    exact hyes.mark h.next_label
  | .loop u pre test body, names, d, σ, hacts, hclosed, h => by
    rw [Statement.isClosed, Bool.and_eq_true, Bool.and_eq_true] at hclosed
    obtain ⟨⟨hclosedPre, htest⟩, hclosedBody⟩ := hclosed
    have hpre :=
      fits_runBlock pre (fun x hx => hacts x (by simp [Statement.actions, hx]))
        hclosedPre h.openLoop
    have hbody :=
      fits_runBlock body (fun x hx => hacts x (by simp [Statement.actions, hx])) hclosedBody
        (hpre.openBody htest (h.number .label))
    rw [Unbounded.run_loop, Statement.draft, Statement.binds, List.append_assoc]
    exact hbody.closeLoop (h.number .label)

/-- A block that emits code and is closed does to the unit what it does to the draft. -/
theorem fits_runBlock {first : Category → Int} {before : Program} {outer : Bindings} :
    (block : List Statement) → {names : List Text} → {d : Draft} → {σ : Unbounded} →
    (∀ x ∈ Script.blockActions block, x.2.emits = true) → Script.blockIsClosed names block = true →
    Fits first before outer names d σ →
    Fits first before outer (Script.blockBinds block ++ names) (Script.blockDraft block d)
      ((Unbounded.host.runBlock block).run σ).2
  | [], _, _, _, _, _, h => h
  | st :: rest, names, d, σ, hacts, hclosed, h => by
    rw [Script.blockIsClosed, Bool.and_eq_true] at hclosed
    have hst := fits_runStatement st
      (fun x hx => hacts x (by simp [Script.blockActions, hx])) hclosed.1 h
    have hrest :=
      fits_runBlock rest (fun x hx => hacts x (by simp [Script.blockActions, hx])) hclosed.2 hst
    rw [Script.blockBinds, List.append_assoc]
    exact hrest

end

/-! ## Main statement -/

/-- Nothing of a compilation changed but its counters and its program. -/
def Compilation.OnlyCode (c c' : Compilation) : Prop :=
  c' = { c with supply := c'.supply, program := c'.program }

theorem Compilation.onlyCode_take (c : Compilation) (category : Category) :
    c.OnlyCode (c.take category) :=
  rfl

theorem Compilation.onlyCode_request (c : Compilation) (r : Request Text) :
    c.OnlyCode (c.request r) := by
  rw [Compilation.request]
  rcases r.build c.supply with ⟨made, supply⟩
  cases made <;> rfl

namespace Session

/-- An action that emits or takes a label changes only the code of its unit. -/
theorem moves_onlyCode (v : Verbosity) {u w : UnitId} {a : Action} (ha : a.emits = true) :
    Moves u Compilation.OnlyCode (runAction v w a) := by
  refine .of_touched (w := w) fun s => ?_
  cases a with
  | emit r bind =>
    obtain ⟨s', hrun, -, ht⟩ := runAction_emit_spec v w r bind s
    exact ⟨_, by rw [hrun]; exact ht, fun c => .single (c.onlyCode_request _)⟩
  | label bind =>
    obtain ⟨s', hrun, -, ht⟩ := runAction_label_spec v w bind s
    exact ⟨_, by rw [hrun]; exact ht, fun c => .single (c.onlyCode_take .label)⟩
  | _ => cases ha

/-- Statements that emit code change only the code of a unit. -/
theorem onlyCode_runBlock (v : Verbosity) {u : UnitId} {block : List Statement} {s : Session}
    {c c' : Compilation} (hacts : ∀ x ∈ Script.blockActions block, x.2.emits = true)
    (hc : s.unit? u = some c) (hc' : ((runBlock v block).run s).2.unit? u = some c') :
    c.OnlyCode c' := by
  have hmoves : Moves u Compilation.OnlyCode (runBlock v block) := by
    rw [← host_runBlock]
    exact (Moves.simulation v (fun c => c.onlyCode_take .label) (fun c => c.onlyCode_request)
      fun _ _ => moves_onlyCode v).runBlock block (fun _ _ => trivial) hacts
  obtain ⟨last, hlast, hchain⟩ := hmoves s c hc
  cases hlast.symm.trans hc'
  clear hlast hc'
  induction hchain with
  | refl => rfl
  | tail _ hstep ih =>
    rw [Compilation.OnlyCode, hstep, ih]

end Session

/-- Statements for one unit that emit code, in which every operand is a text given outright or an
earlier result, have a template. It has the lines that the forms of the statements need, and a hole
for no other name than those they need. Wherever the counters of the unit leave room for these
names, whatever else the unit and the session hold, the statements end without an overflow; the
template, with its holes filled by the names that follow the counters, has been appended to the
program, each counter has moved past the names, and nothing else of the unit has changed. -/
theorem lowering_is_relocatable (u : UnitId) (block : List Statement)
    (hunits : ∀ w ∈ Script.blockUnits block, w = u)
    (hacts : ∀ x ∈ Script.blockActions block, x.2.emits = true)
    (hclosed : Script.blockIsClosed [] block = true) :
    ∃ template : List Line,
      (∀ first kind, (template.map fun line => (line.fill first).kind).count kind =
        Script.needs block (.line kind)) ∧
      (∀ line ∈ template, ∀ t ∈ line.terms,
        t.Below fun category => Script.needs block (.name category)) ∧
      ∀ v s c, s.unit? u = some c →
        (∀ category,
          c.supply.number category + Script.needs block (.name category) ≤ NameSupply.top) →
        ∃ answers s' supply', (Session.runBlock v block).run s = (.ok answers, s') ∧
          s'.unit? u = some { c with
            supply := supply', program := c.program ++ template.map (·.fill c.supply.number) } ∧
          ∀ category, NameSupply.number supply' category =
            c.supply.number category + Script.needs block (.name category) := by
  have hdrafted := Draft.drafted_block block {}
  have hnumber : ∀ category, (Script.blockDraft block {}).number category =
      Script.needs block (.name category) := by
    intro category
    have hcount := hdrafted.count (.name category)
    cases category <;> exact hcount.trans (Nat.zero_add _)
  refine ⟨(Script.blockDraft block {}).lines, ?_, ?_, ?_⟩
  · intro first kind
    simp only [Line.kind_fill]
    exact (hdrafted.count (.line kind)).trans (Nat.zero_add _)
  · have hsound := hdrafted.sound ⟨by simp, by simp⟩
    exact funext hnumber ▸ hsound.lines
  · intro v s c hc hroom
    have hstart : Fits c.supply.number c.program s.bindings [] {} (.ofCompilation c s.bindings) :=
      ⟨fun category => by cases category <;> exact (Int.add_zero _).symm,
        (List.append_nil _).symm, rfl, rfl⟩
    have hfits := fits_runBlock block hacts hclosed hstart
    have hsim := (Truncates.simulation v u).runBlock block hunits hacts
    rw [Session.host_runBlock] at hsim
    have hagrees := agrees_ofCompilation hc
    -- The counters end within the largest word, so no name was numbered with it.
    have hclear : ((Unbounded.host.runBlock block).run (.ofCompilation c s.bindings)).2.overflow? =
        none := by
      have hpast := Unbounded.overflow?_isSome_iff (hsim.grows _) hagrees.clear fun category => by
        rw [← hagrees.number]
        exact NameSupply.toInt_le_top _
      rw [← Option.not_isSome_iff_eq_none, hpast]
      rintro ⟨category, hover⟩
      rw [hfits.number, hnumber] at hover
      exact absurd (hroom category) (Int.not_le.mpr hover)
    obtain ⟨s', c', hrun, hend⟩ := hsim.finished hagrees hclear
    have honly : c.OnlyCode c' :=
      Session.onlyCode_runBlock v hacts hc (by rw [hrun]; exact hend.unit)
    refine ⟨_, s', c'.supply, hrun, ?_, ?_⟩
    · rw [hend.unit, honly, hend.program, hfits.program]
    · intro category
      rw [hend.number, hfits.number, hnumber]

/-- A label that is marked, a sum, a conditional whose first block reads a result of its second one,
and a loop that prepares its test: three temporaries and six labels. -/
def mixedTree : List Statement :=
  [.act 0 (.label (some (.literal "top"))),
    .act 0 (.emit (.mark (.named "top")) none),
    .act 0 (.emit (.binary (.literal "a") (.literal "+") (.literal "b")) (some (.literal "sum"))),
    .ifElse 0 ⟨.named "sum", .literal "<", .literal "c"⟩
      [.act 0 (.emit (.branch ⟨.named "item", .literal "=", .named "sum"⟩ (.named "top")) none)]
      [.act 0 (.emit (.index (.literal "xs") (.named "sum")) (some (.literal "item")))],
    .loop 0
      [.act 0 (.emit (.binary (.named "sum") (.literal "-") (.literal "1"))
        (some (.literal "less")))]
      ⟨.named "less", .literal ">", .literal "0"⟩
      [.act 0 (.emit (.jump (.named "top")) none)]]

/-- A unit that has a program and just as many labels left as the statements need. -/
def nearlyDone : Compilation := { supply := ⟨41, Int64.maxValue - 6⟩, program := [.jump "L9"] }

/-- The statements append one template to a new unit and to one that has hardly a label left. -/
theorem mixedTree_is_relocatable :
    ∃ template : List Line,
      (∀ first, (template.map fun line => (line.fill first).kind).count .jump = 4) ∧
      ∀ c ∈ [{}, nearlyDone], ∃ answers s' supply',
        (Session.runBlock 0 mixedTree).run { units := [some c] } = (.ok answers, s') ∧
        s'.unit? 0 = some { c with
          supply := supply', program := c.program ++ template.map (·.fill c.supply.number) } ∧
        NameSupply.number supply' .temp = c.supply.number .temp + 3 ∧
        NameSupply.number supply' .label = c.supply.number .label + 6 := by
  obtain ⟨template, hkinds, -, htemplate⟩ :=
    lowering_is_relocatable 0 mixedTree (by decide) (by decide) (by decide)
  refine ⟨template, fun first => hkinds first .jump, fun c hc => ?_⟩
  have hroom : ∀ category,
      c.supply.number category + Script.needs mixedTree (.name category) ≤ NameSupply.top := by
    intro category
    simp only [List.mem_cons, List.not_mem_nil, or_false] at hc
    rcases hc with rfl | rfl <;> cases category <;> decide
  obtain ⟨answers, s', supply', hrun, hunit, hnumber⟩ :=
    htemplate 0 { units := [some c] } c rfl hroom
  exact ⟨answers, s', supply', hrun, hunit, hnumber .temp, hnumber .label⟩

end ThreeAddress
