import ThreeAddress.Proofs.Footprint

/-!
# The operands of a script

The operands that an action or a statement reads. Bindings that give them the same texts
give an action the same effect; so bindings do not matter at all to a script whose
operands are texts given outright.
-/

namespace ThreeAddress

/-- The operands of a test. -/
def Relation.terms {τ : Type} (r : Relation τ) : List τ := [r.left, r.relop, r.right]

/-- The operands and targets of a request. -/
def Request.terms {τ : Type} : Request τ → List τ
  | .binary left op right => [left, op, right]
  | .index array i => [array, i]
  | .branch test target => test.terms ++ [target]
  | .jump target => [target]
  | .mark name => [name]

theorem Relation.map_congr {τ υ : Type} {f g : τ → υ} {r : Relation τ}
    (h : ∀ t ∈ r.terms, f t = g t) :
    r.map f = r.map g := by
  have hleft := h r.left (by simp [terms])
  have hrelop := h r.relop (by simp [terms])
  have hright := h r.right (by simp [terms])
  rw [map, map, hleft, hrelop, hright]

theorem Request.map_congr {τ υ : Type} {f g : τ → υ} {r : Request τ}
    (h : ∀ t ∈ r.terms, f t = g t) :
    r.map f = r.map g := by
  cases r with
  | branch test target =>
    have htest : test.map f = test.map g :=
      Relation.map_congr fun t ht => h t (List.mem_append_left _ ht)
    have htarget := h target (by simp [terms])
    rw [map, map, htest, htarget]
  | _ => simp_all [terms, map]

namespace Script

/-- A text that is given outright. -/
def Operand.isLiteral : Operand → Bool
  | literal _ => true
  | named _ => false

/-- Bindings do not matter to a text that is given outright. -/
theorem Operand.read_of_isLiteral {o : Operand} (h : o.isLiteral = true) (b b' : Bindings) :
    o.read b = o.read b' := by
  cases o with
  | literal t => rfl
  | named name => cases h

def Place.operands (p : Place) : List Operand := [p.file]

def Declaration.operands (d : Declaration) : List Operand :=
  d.name :: d.type :: d.pos.toList.flatMap Place.operands

def Argument.operands : Argument → List Operand
  | text t => [t]
  | number _ => []

def Message.operands (m : Message) : List Operand := m.template :: m.args.flatMap Argument.operands

def Cause.operands : Cause → List Operand
  | redeclaration again prev => again.operands ++ prev.operands
  | notFound name _ => [name]
  | message m => m.operands
  | wrapped m cause => m.operands ++ cause.operands
  | snapshot list => [list]
  | absent | capacity _ | overflow _ => []

def TableOp.operands : TableOp → List Operand
  | declare d => d.operands
  | lookup name _ => [name]
  | _ => []

/-- The operands that an action reads; the name to which its result is bound is not among them. -/
def Action.operands : Action → List Operand
  | declare d typePos => d.operands ++ typePos.toList.flatMap Place.operands
  | resolve pos name _ _ => name :: pos.toList.flatMap Place.operands
  | emit r _ => r.terms
  | report pos cause => pos.toList.flatMap Place.operands ++ cause.operands
  | table op => op.operands
  | _ => []

mutual

/-- The operands that a statement and the statements in it read. -/
def Statement.operands : Statement → List Operand
  | .act _ a => a.operands
  | .ifThen _ test yes => test.terms ++ blockOperands yes
  | .ifElse _ test yes no => test.terms ++ (blockOperands no ++ blockOperands yes)
  | .loop _ pre test body => test.terms ++ (blockOperands pre ++ blockOperands body)

/-- The operands that the statements of a block read. -/
def blockOperands : List Statement → List Operand
  | [] => []
  | st :: rest => st.operands ++ blockOperands rest

end

/-- Bindings give the same texts to operands. -/
def Bindings.Agree (b b' : Bindings) (operands : List Operand) : Prop :=
  ∀ o ∈ operands, o.read b = o.read b'

section Agree

variable {b b' : Bindings}

theorem Place.read_congr {pos : Option Place} (h : b.Agree b' (pos.toList.flatMap operands)) :
    pos.map (·.read b) = pos.map (·.read b') := by
  cases pos with
  | none => rfl
  | some p =>
    have hfile := h p.file (by simp [operands])
    simp only [Option.map_some, read, hfile]

theorem Declaration.read_congr {d : Declaration} (h : b.Agree b' d.operands) :
    d.read b = d.read b' := by
  have hname := h d.name (by simp [operands])
  have htype := h d.type (by simp [operands])
  have hpos := Place.read_congr fun o ho => h o (List.mem_cons_of_mem _ (List.mem_cons_of_mem _ ho))
  rw [read, read, hname, htype, hpos]

theorem Message.read_congr {m : Message} (h : b.Agree b' m.operands) : m.read b = m.read b' := by
  have htemplate := h m.template (by simp [operands])
  have hargs : m.args.map (·.read b) = m.args.map (·.read b') := by
    refine List.map_congr_left fun arg harg => ?_
    cases arg with
    | number n => rfl
    | text t =>
      have ht := h t
        (List.mem_cons_of_mem _ (List.mem_flatMap.mpr ⟨_, harg, by simp [Argument.operands]⟩))
      rw [Argument.read, Argument.read, ht]
  rw [read, read, htemplate, hargs]

theorem Cause.build?_congr_bindings {cause : Cause} (h : b.Agree b' cause.operands) (s : Sinks) :
    cause.build? b s = cause.build? b' s ∧ cause.lists b = cause.lists b' := by
  induction cause with
  | redeclaration again prev =>
    have hagain := Declaration.read_congr fun o ho => h o (List.mem_append_left _ ho)
    have hprev := Declaration.read_congr fun o ho => h o (List.mem_append_right _ ho)
    exact ⟨by rw [build?, build?, hagain, hprev], rfl⟩
  | notFound name scope =>
    have hname := h name (by simp [operands])
    exact ⟨by rw [build?, build?, hname], rfl⟩
  | message m => exact ⟨by rw [build?, build?, Message.read_congr h], rfl⟩
  | wrapped m cause ih =>
    have hm := Message.read_congr fun o ho => h o (List.mem_append_left _ ho)
    obtain ⟨hbuild, hlists⟩ := ih fun o ho => h o (List.mem_append_right _ ho)
    exact ⟨by rw [build?, build?, hm, hbuild], hlists⟩
  | snapshot list =>
    have hlist := h list (by simp [operands])
    exact ⟨by rw [build?, build?, hlist], by rw [lists, lists, hlist]⟩
  | absent | capacity | overflow => exact ⟨rfl, rfl⟩

theorem TableOp.read_congr {op : TableOp} (h : b.Agree b' op.operands) :
    op.read b = op.read b' := by
  cases op with
  | declare d => rw [read, read, Declaration.read_congr h]
  | lookup name scope =>
    have hname := h name (by simp [operands])
    rw [read, read, hname]
  | _ => rfl

/-- What comes of an action depends on its operands as they are read. -/
theorem Action.effect_congr {a : Action} (h : b.Agree b' a.operands) (c : Compilation)
    (sinks : Sinks) :
    a.effect b c sinks = a.effect b' c sinks := by
  cases a with
  | declare d typePos =>
    have hd := Declaration.read_congr fun o ho => h o (List.mem_append_left _ ho)
    have hpos := Place.read_congr fun o ho => h o (List.mem_append_right _ ho)
    have hspanned : d.spanned b typePos = d.spanned b' typePos := by
      rw [Declaration.spanned, Declaration.spanned, hd, hpos]
    rw [effect, effect, hspanned]
  | resolve pos name scope bind =>
    have hname := h name (by simp [operands])
    have hpos := Place.read_congr fun o ho => h o (List.mem_cons_of_mem _ ho)
    rw [effect, effect, hname, hpos]
  | emit r bind =>
    have hr : r.map (·.read b) = r.map (·.read b') := Request.map_congr h
    rw [effect, effect, hr]
  | report pos cause =>
    have hpos := Place.read_congr fun o ho => h o (List.mem_append_left _ ho)
    have hcause : b.Agree b' cause.operands := fun o ho => h o (List.mem_append_right _ ho)
    obtain ⟨hbuild, hlists⟩ := Cause.build?_congr_bindings hcause sinks
    rw [effect, effect, hbuild, hlists, hpos]
  | table op => rw [effect, effect, TableOp.read_congr h]
  | _ => rfl

end Agree

end Script

end ThreeAddress
