import Mathlib.Data.List.Basic
import ThreeAddress.Proofs.Names
import ThreeAddress.Proofs.Operands

/-!
# Templates of code

A template is code with holes for the names that are taken while it is emitted. The template of
statements is drafted from the statements alone, as they would be lowered: names are only
counted, and what was bound to a name is a term, which may be a hole. Main statement: a draft
takes just the names and has just the lines that the forms of the statements need, and its
holes are for names that it took.
-/

namespace ThreeAddress

open Script (Action Operand Statement)

/-! ## Terms and lines -/

/-- A text of a template: one that is given, or a hole for a name. Holes of a category are numbered
from zero, in the order in which the names are taken. -/
inductive Term where
  /-- The text itself. -/
  | text (t : Text)
  /-- The name that is taken as the `k`-th of its category. -/
  | hole (category : Category) (k : Nat)
  deriving DecidableEq

namespace Term

/-- The text that a term stands for when the first name of each category has the given number. -/
def fill (first : Category → Int) : Term → Text
  | text t => t
  | hole category k => category.named (first category + k)

theorem fill_hole {first : Category → Int} {category : Category} {k : Nat} {n : Int}
    (h : n = first category + k) : (hole category k).fill first = category.named n := by
  rw [fill, h]

/-- A term whose hole is among the first ones of its category. -/
def Below (count : Category → Nat) : Term → Prop
  | text _ => True
  | hole category k => k < count category

theorem Below.mono {count more : Category → Nat}
    (h : ∀ category, count category ≤ more category) {t : Term} (ht : t.Below count) :
    t.Below more := by
  cases t with
  | text t => trivial
  | hole category k => exact Nat.lt_of_lt_of_le ht (h category)

end Term

/-- The kind of the instruction requested. -/
def Request.kind {τ : Type} : Request τ → Kind
  | binary .. => .assign
  | index .. => .load
  | branch .. => .condJump
  | jump .. => .jump
  | mark .. => .label

theorem Relation.map_map {τ υ ω : Type} (f : τ → υ) (g : υ → ω) (r : Relation τ) :
    (r.map f).map g = r.map fun t => g (f t) := rfl

theorem Request.map_map {τ υ ω : Type} (f : τ → υ) (g : υ → ω) (r : Request τ) :
    (r.map f).map g = r.map fun t => g (f t) := by
  cases r <;> rfl

theorem Relation.terms_map {τ υ : Type} (f : τ → υ) (r : Relation τ) :
    (r.map f).terms = r.terms.map f := rfl

theorem Request.terms_map {τ υ : Type} (f : τ → υ) (r : Request τ) :
    (r.map f).terms = r.terms.map f := by
  cases r <;> rfl

/-- An instruction with holes: a request, and what receives the result if it has one. -/
structure Line where
  /-- What receives the result. -/
  dst : Term
  /-- The request. -/
  request : Request Term
  deriving DecidableEq

namespace Line

/-- The instruction that a line stands for when the first name of each
category has the given number. -/
def fill (first : Category → Int) (line : Line) : Instr :=
  (line.request.map (·.fill first)).instr (line.dst.fill first)

/-- The terms of a line. -/
def terms (line : Line) : List Term := line.dst :: line.request.terms

theorem kind_fill (first : Category → Int) (line : Line) :
    (line.fill first).kind = line.request.kind := by
  rw [fill]
  cases line.request <;> rfl

end Line

/-! ## Names that statements read and bind -/

namespace Script

/-- An operand given outright or by one of these names. -/
def Operand.isKnown (names : List Text) : Operand → Bool
  | literal _ => true
  | named name => names.contains name

/-- The name to which the result of an action is to be bound. -/
def Action.target? : Action → Option Operand
  | .resolve _ _ _ bind | .emit _ bind | .label bind => bind
  | _ => none

/-- A name given outright to which a result is to be bound. -/
def literalName : Option Operand → List Text
  | some (.literal name) => [name]
  | _ => []

/-- The names to which an action binds its result; without a result there are none. -/
def Action.binds : Action → List Text
  | .emit r bind => if r.stores then literalName bind else []
  | .resolve _ _ _ bind | .label bind => literalName bind
  | _ => []

/-- An action that reads known operands only and binds its result, if at all,
to a name given outright. -/
def Action.isClosed (names : List Text) (a : Action) : Bool :=
  a.operands.all (·.isKnown names) && a.target?.all (·.isLiteral)

mutual

/-- The names to which a statement and the statements in it bind results, the latest first. -/
def Statement.binds : Statement → List Text
  | .act _ a => a.binds
  | .ifThen _ _ yes => blockBinds yes
  | .ifElse _ _ yes no => blockBinds yes ++ blockBinds no
  | .loop _ pre _ body => blockBinds body ++ blockBinds pre

/-- The names to which the statements of a block bind results, the latest first. -/
def blockBinds : List Statement → List Text
  | [] => []
  | st :: rest => blockBinds rest ++ st.binds

end

mutual

/-- A statement that reads only texts given outright, results bound to these names before and
results of statements in it. -/
def Statement.isClosed : List Text → Statement → Bool
  | names, .act _ a => a.isClosed names
  | names, .ifThen _ test yes => test.terms.all (·.isKnown names) && blockIsClosed names yes
  | names, .ifElse _ test yes no =>
    test.terms.all (·.isKnown names) && blockIsClosed names no &&
      blockIsClosed (blockBinds no ++ names) yes
  | names, .loop _ pre test body =>
    blockIsClosed names pre && test.terms.all (·.isKnown (blockBinds pre ++ names)) &&
      blockIsClosed (blockBinds pre ++ names) body

/-- A block that reads only texts given outright, results bound to these names
before and its own results. -/
def blockIsClosed : List Text → List Statement → Bool
  | _, [] => true
  | names, st :: rest => st.isClosed names && blockIsClosed (st.binds ++ names) rest

end

end Script

/-! ## What statements need -/

/-- Something that lowering a statement uses up or produces. -/
inductive Item where
  /-- A fresh name of a category. -/
  | name (category : Category)
  /-- An instruction of a kind. -/
  | line (kind : Kind)
  deriving DecidableEq

/-- The form of a statement. -/
inductive Form where
  /-- An action that emits an instruction of a kind. -/
  | emission (kind : Kind)
  /-- An action that takes a label. -/
  | label
  /-- Any other action. -/
  | other
  /-- A conditional with one block. -/
  | ifThen
  /-- A conditional with two blocks. -/
  | ifElse
  /-- A loop. -/
  | loop
  deriving DecidableEq

/-- What a statement of a form needs itself, without the statements in it. -/
def Form.items : Form → List Item
  | emission .assign => [.name .temp, .line .assign]
  | emission .load => [.name .temp, .line .load]
  | emission kind => [.line kind]
  | label => [.name .label]
  | other => []
  | ifThen | ifElse =>
    [.name .label, .name .label, .line .condJump, .line .jump, .line .label, .line .label]
  | loop =>
    [.name .label, .name .label, .name .label, .line .condJump, .line .jump, .line .jump,
      .line .label, .line .label, .line .label]

namespace Script

/-- The form of an action. -/
def Action.form : Action → Form
  | .emit r _ => .emission r.kind
  | .label _ => .label
  | _ => .other

mutual

/-- The forms of a statement and of the statements in it. -/
def Statement.forms : Statement → List Form
  | .act _ a => [a.form]
  | .ifThen _ _ yes => .ifThen :: blockForms yes
  | .ifElse _ _ yes no => .ifElse :: (blockForms no ++ blockForms yes)
  | .loop _ pre _ body => .loop :: (blockForms pre ++ blockForms body)

/-- The forms of the statements of a block and of the statements in them. -/
def blockForms : List Statement → List Form
  | [] => []
  | st :: rest => st.forms ++ blockForms rest

end

/-- How many names of a category, or instructions of a kind, the statements
of a block need together. -/
def needs (block : List Statement) (item : Item) : Nat :=
  ((blockForms block).flatMap Form.items).count item

end Script

/-! ## Drafting a template -/

/-- A template that is being drafted. -/
structure Draft where
  /-- How many temporaries were taken. -/
  temps : Nat := 0
  /-- How many labels were taken. -/
  labels : Nat := 0
  /-- The lines drafted so far. -/
  lines : List Line := []
  /-- The results bound so far, the latest first. -/
  bound : List (Text × Term) := []

namespace Draft

/-- How many names of a category were taken. -/
def number (d : Draft) : Category → Nat
  | .temp => d.temps
  | .label => d.labels

/-- The draft after one more name of a category. -/
def advance (d : Draft) : Category → Draft
  | .temp => { d with temps := d.temps + 1 }
  | .label => { d with labels := d.labels + 1 }

/-- The draft with one more line. -/
def add (d : Draft) (line : Line) : Draft := { d with lines := d.lines ++ [line] }

/-- The draft with one more line, for an instruction without a result. -/
def put (d : Draft) (r : Request Term) : Draft := d.add ⟨.text [], r⟩

/-- The term that an operand stands for. -/
def read (d : Draft) : Operand → Term
  | .literal t => .text t
  | .named name => (d.bound.lookup name).getD (.text [])

/-- The draft with a result bound to a name. -/
def bind (d : Draft) : Option Operand → Term → Draft
  | some (.literal name), t => { d with bound := (name, t) :: d.bound }
  | _, _ => d

/-- The draft after an action that emits or takes a label; others leave it as it is. -/
def perform (d : Draft) : Action → Draft
  | .emit r bind =>
    if r.stores then
      ((d.advance .temp).add ⟨.hole .temp d.temps, r.map d.read⟩).bind bind (.hole .temp d.temps)
    else d.put (r.map d.read)
  | .label bind => (d.advance .label).bind bind (.hole .label d.labels)
  | _ => d

/-- The draft after the labels and the test of a conditional. -/
def openBranch (d : Draft) (test : Relation Term) : Draft :=
  ((d.advance .label).advance .label).put (.branch test (.hole .label d.labels))

/-- The draft where the block starts that runs if the test holds; `n` numbers the first label. -/
def openYes (d : Draft) (n : Nat) : Draft :=
  (d.put (.jump (.hole .label (n + 1)))).put (.mark (.hole .label n))

/-- The draft after the labels and the head of a loop. -/
def openLoop (d : Draft) : Draft :=
  (((d.advance .label).advance .label).advance .label).put (.mark (.hole .label d.labels))

/-- The draft where the block of a loop starts; `n` numbers the first label. -/
def openBody (d : Draft) (test : Relation Term) (n : Nat) : Draft :=
  ((d.put (.branch test (.hole .label (n + 1)))).put (.jump (.hole .label (n + 1 + 1)))).put
    (.mark (.hole .label (n + 1)))

/-- The draft after a loop; `n` numbers the first label. -/
def closeLoop (d : Draft) (n : Nat) : Draft :=
  (d.put (.jump (.hole .label n))).put (.mark (.hole .label (n + 1 + 1)))

end Draft

namespace Script

mutual

/-- The draft after a statement. -/
def Statement.draft : Statement → Draft → Draft
  | .act _ a, d => d.perform a
  | .ifThen _ test yes, d =>
    (blockDraft yes ((d.openBranch (test.map d.read)).openYes d.labels)).put
      (.mark (.hole .label (d.labels + 1)))
  | .ifElse _ test yes no, d =>
    (blockDraft yes ((blockDraft no (d.openBranch (test.map d.read))).openYes d.labels)).put
      (.mark (.hole .label (d.labels + 1)))
  | .loop _ pre test body, d =>
    let prepared := blockDraft pre d.openLoop
    (blockDraft body (prepared.openBody (test.map prepared.read) d.labels)).closeLoop d.labels

/-- The draft after a block. -/
def blockDraft : List Statement → Draft → Draft
  | [], d => d
  | st :: rest, d => blockDraft rest (st.draft d)

end

end Script

/-! ## What a draft comes to -/

namespace Draft

/-- How many names of a category were taken, or lines of a kind drafted. -/
def count (d : Draft) : Item → Nat
  | .name category => d.number category
  | .line kind => (d.lines.map (·.request.kind)).count kind

/-- Every hole in a draft is for a name that was taken. -/
structure Sound (d : Draft) : Prop where
  lines : ∀ line ∈ d.lines, ∀ t ∈ line.terms, t.Below d.number
  bound : ∀ x ∈ d.bound, x.2.Below d.number

theorem Sound.read {d : Draft} (h : d.Sound) (o : Operand) : (d.read o).Below d.number := by
  cases o with
  | literal t => trivial
  | named name =>
    rw [Draft.read]
    cases hname : d.bound.lookup name with
    | none => trivial
    | some t =>
      obtain ⟨later, earlier, hbound, -⟩ := List.lookup_eq_some_iff.mp hname
      exact h.bound (name, t) (by simp [hbound])

/-- From one draft to another these names were taken and these lines drafted, and no
hole was left without a name. -/
structure Drafted (d d' : Draft) (items : List Item) : Prop where
  count : ∀ item, d'.count item = d.count item + items.count item
  sound : d.Sound → d'.Sound

namespace Drafted

variable {d d₁ d₂ d' : Draft} {items items₁ items₂ : List Item}

theorem refl (d : Draft) : Drafted d d [] := ⟨fun _ => rfl, id⟩

theorem trans (h₁ : Drafted d d₁ items₁) (h₂ : Drafted d₁ d₂ items₂) :
    Drafted d d₂ (items₁ ++ items₂) where
  count item := by rw [h₂.count, h₁.count, List.count_append, Nat.add_assoc]
  sound h := h₂.sound (h₁.sound h)

theorem of_count (h : Drafted d d' items₁)
    (hcount : ∀ item, items₁.count item = items₂.count item) :
    Drafted d d' items₂ where
  count item := by rw [h.count, hcount]
  sound := h.sound

/-- A label taken meanwhile is a label taken. -/
theorem lt_labels (h : Drafted d d' items) {k : Nat} (hk : k < items.count (.name .label)) :
    d.labels + k < d'.labels := by
  have hlabels : d'.labels = d.labels + items.count (.name .label) := h.count (.name .label)
  omega

theorem advance (d : Draft) (category : Category) :
    Drafted d (d.advance category) [.name category] where
  count item := by
    cases item with
    | line kind => cases category <;> rfl
    | name other => cases category <;> cases other <;> rfl
  sound h := by
    have hle : ∀ other, d.number other ≤ (d.advance category).number other := by
      intro other
      cases category <;> cases other <;> simp [Draft.advance, number]
    have hlines : (d.advance category).lines = d.lines := by cases category <;> rfl
    have hbound : (d.advance category).bound = d.bound := by cases category <;> rfl
    refine ⟨?_, ?_⟩
    · rw [hlines]
      exact fun line hline t ht => (h.lines line hline t ht).mono hle
    · rw [hbound]
      exact fun x hx => (h.bound x hx).mono hle

theorem add {line : Line} (hline : d.Sound → ∀ t ∈ line.terms, t.Below d.number) :
    Drafted d (d.add line) [.line line.request.kind] where
  count item := by
    cases item with
    | name category => cases category <;> rfl
    | line kind => simp [Draft.count, Draft.add, List.count_singleton]
  sound h := by
    refine ⟨?_, h.bound⟩
    intro other hother t ht
    rcases List.mem_append.mp hother with hold | hnew
    · exact h.lines other hold t ht
    · cases List.mem_singleton.mp hnew
      exact hline h t ht

theorem put {r : Request Term} (hr : d.Sound → ∀ t ∈ r.terms, t.Below d.number) :
    Drafted d (d.put r) [.line r.kind] := by
  refine add fun h t ht => ?_
  rcases List.mem_cons.mp ht with rfl | hmem
  · trivial
  · exact hr h t hmem

/-- A line that names one label that was taken. -/
theorem jump {n : Nat} (h : n < d.labels) :
    Drafted d (d.put (.jump (.hole .label n))) [.line .jump] :=
  put fun _ t ht => by cases List.mem_singleton.mp ht; exact h

theorem mark {n : Nat} (h : n < d.labels) :
    Drafted d (d.put (.mark (.hole .label n))) [.line .label] :=
  put fun _ t ht => by cases List.mem_singleton.mp ht; exact h

/-- A line with a test that reads what is bound. -/
theorem branch (test : Relation Operand) {n : Nat} (h : n < d.labels) :
    Drafted d (d.put (.branch (test.map d.read) (.hole .label n))) [.line .condJump] := by
  refine put fun hsound t ht => ?_
  rcases List.mem_append.mp ht with htest | htarget
  · obtain ⟨o, -, rfl⟩ := List.mem_map.mp (test.terms_map d.read ▸ htest)
    exact hsound.read o
  · cases List.mem_singleton.mp htarget
    exact h

/-- Binding a name that was taken. -/
theorem bind (h : Drafted d d' items) {t : Term} (ht : t.Below d'.number) (name : Option Operand) :
    Drafted d (d'.bind name t) items := by
  obtain hnone | ⟨text, rfl⟩ : d'.bind name t = d' ∨ ∃ text, name = some (.literal text) := by
    rcases name with _ | text | text
    · exact .inl rfl
    · exact .inr ⟨text, rfl⟩
    · exact .inl rfl
  · rw [hnone]
    exact h
  · refine ⟨fun item => ?_, fun hsound => ⟨(h.sound hsound).lines, ?_⟩⟩
    · rw [← h.count item]
      cases item with
      | name category => cases category <;> rfl
      | line kind => rfl
    · intro x hx
      rcases List.mem_cons.mp hx with rfl | hmem
      · exact ht
      · exact (h.sound hsound).bound x hmem

theorem perform (a : Action) (d : Draft) : Drafted d (d.perform a) a.form.items := by
  cases a with
  | emit r bind =>
    cases hstores : r.stores with
    | true =>
      have hkind : (Action.emit r bind).form.items =
          [.name .temp] ++ [.line (r.map d.read).kind] := by
        cases r with
        | binary | index => rfl
        | _ => cases hstores
      have htaken : Term.Below (d.advance .temp).number (.hole .temp d.temps) :=
        Nat.lt_succ_self d.temps
      have hline : Drafted (d.advance .temp)
          ((d.advance .temp).add ⟨.hole .temp d.temps, r.map d.read⟩)
          [.line (r.map d.read).kind] := by
        refine add fun hsound t ht => ?_
        rcases List.mem_cons.mp ht with rfl | hmem
        · exact htaken
        · obtain ⟨o, -, rfl⟩ := List.mem_map.mp (r.terms_map d.read ▸ hmem)
          exact hsound.read o
      rw [Draft.perform, if_pos hstores, hkind]
      exact ((advance d .temp).trans hline).bind htaken bind
    | false =>
      have hkind : (Action.emit r bind).form.items = [.line (r.map d.read).kind] := by
        cases r with
        | binary | index => cases hstores
        | _ => rfl
      rw [Draft.perform, hstores, hkind]
      refine put fun hsound t ht => ?_
      obtain ⟨o, -, rfl⟩ := List.mem_map.mp (r.terms_map d.read ▸ ht)
      exact hsound.read o
  | label bind =>
    have htaken : Term.Below (d.advance .label).number (.hole .label d.labels) :=
      Nat.lt_succ_self d.labels
    exact (advance d .label).bind htaken bind
  | _ => exact refl d

theorem openBranch (d : Draft) (test : Relation Operand) :
    Drafted d (d.openBranch (test.map d.read)) [.name .label, .name .label, .line .condJump] :=
  ((advance d .label).trans (advance _ .label)).trans
    (branch test (d := (d.advance .label).advance .label)
      (show d.labels < d.labels + 1 + 1 by omega))

theorem openYes {n : Nat} (h : n + 1 < d.labels) :
    Drafted d (d.openYes n) [.line .jump, .line .label] :=
  (jump h).trans (mark (show n < d.labels by omega))

theorem openLoop (d : Draft) :
    Drafted d d.openLoop [.name .label, .name .label, .name .label, .line .label] :=
  (((advance d .label).trans (advance _ .label)).trans (advance _ .label)).trans
    (mark (show d.labels < d.labels + 1 + 1 + 1 by omega))

theorem openBody (test : Relation Operand) {n : Nat} (h : n + 1 + 1 < d.labels) :
    Drafted d (d.openBody (test.map d.read) n) [.line .condJump, .line .jump, .line .label] := by
  have hbody : n + 1 < d.labels := by omega
  exact ((branch test hbody).trans (jump h)).trans (mark hbody)

theorem closeLoop {n : Nat} (h : n + 1 + 1 < d.labels) :
    Drafted d (d.closeLoop n) [.line .jump, .line .label] :=
  (jump (show n < d.labels by omega)).trans (mark h)

end Drafted

mutual

/-- A statement takes the names and drafts the lines that the statements in it need. -/
theorem drafted_statement : (st : Statement) → (d : Draft) →
    Drafted d (st.draft d) (st.forms.flatMap Form.items)
  | .act u a, d => by
    rw [Statement.draft, Statement.forms, List.flatMap_singleton]
    exact .perform a d
  | .ifThen u test yes, d => by
    have hopen :=
      (Drafted.openBranch d test).trans (.openYes (show d.labels + 1 < d.labels + 1 + 1 by omega))
    have hyes := hopen.trans (drafted_block yes _)
    have hdone := hyes.trans (.mark (hyes.lt_labels (k := 1) (by simp)))
    rw [Statement.draft, Statement.forms, List.flatMap_cons]
    -- A form lists what it needs around its block in one piece, so only the counts can be compared.
    refine hdone.of_count fun item => ?_
    simp only [Form.items, List.count_append, List.count_cons, List.count_nil]
    omega
  | .ifElse u test yes no, d => by
    have hno := (Drafted.openBranch d test).trans (drafted_block no _)
    have hopen := hno.trans (.openYes (hno.lt_labels (k := 1) (by simp)))
    have hyes := hopen.trans (drafted_block yes _)
    have hdone := hyes.trans (.mark (hyes.lt_labels (k := 1) (by simp)))
    rw [Statement.draft, Statement.forms, List.flatMap_cons, List.flatMap_append]
    refine hdone.of_count fun item => ?_
    simp only [Form.items, List.count_append, List.count_cons, List.count_nil]
    omega
  | .loop u pre test body, d => by
    have hpre := (Drafted.openLoop d).trans (drafted_block pre _)
    have hopen := hpre.trans (.openBody test (hpre.lt_labels (k := 2) (by simp)))
    have hbody := hopen.trans (drafted_block body _)
    have hdone := hbody.trans (.closeLoop (hbody.lt_labels (k := 2) (by simp)))
    rw [Statement.draft, Statement.forms, List.flatMap_cons, List.flatMap_append]
    refine hdone.of_count fun item => ?_
    simp only [Form.items, List.count_append, List.count_cons, List.count_nil]
    omega

/-- A block takes the names and drafts the lines that its statements need. -/
theorem drafted_block : (block : List Statement) → (d : Draft) →
    Drafted d (Script.blockDraft block d) ((Script.blockForms block).flatMap Form.items)
  | [], d => .refl d
  | st :: rest, d => by
    rw [Script.blockDraft, Script.blockForms, List.flatMap_append]
    exact (drafted_statement st d).trans (drafted_block rest _)

end

end Draft

end ThreeAddress
