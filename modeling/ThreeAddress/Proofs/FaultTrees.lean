import Mathlib.Data.List.Perm.Basic
import ThreeAddress.Diagnostic.Fault

/-!
# Faults as trees

A message about a cause has that cause below it, and a list has its faults below it, in order; every
other fault has nothing below it. Main statement: a search gives the first node of its kind, parents
before children and children in order, and the class of a fault tells which kinds occur anywhere in
its tree. So a class depends neither on what is said around a fault nor on the order of lists in it.
-/

namespace ThreeAddress

namespace Fault

/-! ## Nodes -/

/-- The faults right below a fault, in order. -/
def children : Fault → List Fault
  | .wrapped _ cause => [cause]
  | .list entries => ErrorList.faults entries
  | _ => []

theorem sizeOf_lt_of_mem_children {f child : Fault} (h : child ∈ f.children) :
    sizeOf child < sizeOf f := by
  cases f with
  | wrapped text cause =>
    cases List.mem_singleton.mp h
    simp only [wrapped.sizeOf_spec]
    omega
  | list entries =>
    obtain ⟨d, hd, rfl⟩ := List.mem_map.mp h
    have hsize := List.sizeOf_lt_of_mem hd
    obtain ⟨pos, value⟩ := d
    simp only [Located.mk.sizeOf_spec] at hsize
    simp only [list.sizeOf_spec]
    omega
  | _ => cases h

/-- All nodes of the tree of a fault: the fault itself, then the nodes
below each child, in order. -/
def preorder (f : Fault) : List Fault :=
  f :: f.children.attach.flatMap fun child => preorder child.1
termination_by sizeOf f
decreasing_by exact sizeOf_lt_of_mem_children child.2

theorem preorder_eq (f : Fault) : f.preorder = f :: f.children.flatMap preorder := by
  rw [preorder, List.flatMap_subtype (g := preorder) fun _ _ => rfl, List.unattach_attach]

/-- What holds of a fault whenever it holds of its children holds of every fault. -/
theorem children_induction {motive : Fault → Prop}
    (step : ∀ f, (∀ child ∈ f.children, motive child) → motive f) (f : Fault) : motive f :=
  step f fun child _ => children_induction step child
termination_by sizeOf f
decreasing_by exact sizeOf_lt_of_mem_children ‹_›

/-- Some node of a fault is of a kind. -/
def Has (kind : FaultKind) (f : Fault) : Prop := ∃ node ∈ f.preorder, node.kind? = some kind

/-! ## Searches -/

theorem find?_entries (kind : FaultKind) (entries : ErrorList) :
    ErrorList.find? kind entries = (ErrorList.faults entries).findSome? (find? kind) := by
  induction entries with
  | nil => rfl
  | cons d rest ih =>
    have hfaults : ErrorList.faults (d :: rest) = d.value :: ErrorList.faults rest := rfl
    rw [ErrorList.find?, ih, hfaults, List.findSome?_cons, Diagnostic.find?]
    cases d.value.find? kind <;> rfl

/-- A search tests the fault itself and then goes on to its children. -/
theorem find?_step (kind : FaultKind) (f : Fault) :
    f.find? kind = if f.kind? = some kind then some f else f.children.findSome? (find? kind) := by
  cases f with
  | symbol e => simp [find?, children]
  | overflow code => simp [find?, kind?, children, eq_comm]
  | message text => simp [find?, kind?, children]
  | wrapped text cause => simp [find?, kind?, children]
  | list entries => simp [find?, kind?, children, find?_entries, eq_comm]

/-- A search gives the first node of its kind. -/
theorem find?_eq_preorder (kind : FaultKind) (f : Fault) :
    f.find? kind = f.preorder.find? fun node => node.kind? = some kind := by
  induction f using children_induction with
  | step f ih =>
    -- The first match below the fault is the first of the matches in its children.
    have hbelow : (f.children.flatMap preorder).find? (fun node => node.kind? = some kind) =
        f.children.findSome? (find? kind) := by
      rw [List.find?_flatMap, ← List.head?_filterMap, ← List.head?_filterMap,
        List.filterMap_congr fun child hchild => (ih child hchild).symm]
    rw [find?_step, preorder_eq, List.find?_cons, hbelow]
    by_cases hkind : f.kind? = some kind
    · simp [hkind]
    · simp [hkind]

theorem isSome_find?_iff (kind : FaultKind) (f : Fault) :
    (f.find? kind).isSome = true ↔ f.Has kind := by
  rw [find?_eq_preorder, List.find?_isSome]
  simp only [decide_eq_true_eq, Has]

instance (kind : FaultKind) (f : Fault) : Decidable (f.Has kind) :=
  decidable_of_iff _ (isSome_find?_iff kind f)

/-! ## Classes -/

theorem classify_eq (f : Fault) :
    f.classify = if f.Has .redeclaration then .redeclaration else if f.Has .capacity then .capacity
      else if f.Has .notFound then .undeclared else .other := by
  simp only [classify, isSome_find?_iff]

/-- Faults in which the same kinds occur, lists apart, are of one class. -/
theorem classify_congr {f g : Fault} (h : ∀ kind, kind ≠ .list → (f.Has kind ↔ g.Has kind)) :
    f.classify = g.classify := by
  simp only [classify_eq, h .redeclaration (by decide), h .capacity (by decide),
    h .notFound (by decide)]

/-- The kinds of all nodes, in order. -/
def kinds (f : Fault) : List (Option FaultKind) := f.preorder.map kind?

theorem kinds_eq (f : Fault) : f.kinds = f.kind? :: f.children.flatMap kinds := by
  rw [kinds, preorder_eq, List.map_cons, List.map_flatMap]
  rfl

theorem has_iff_mem_kinds (kind : FaultKind) (f : Fault) : f.Has kind ↔ some kind ∈ f.kinds :=
  List.mem_map.symm

/-- A fault without a kind of its own has the kinds of what is below it. -/
theorem has_wrapped (kind : FaultKind) (text : Text) (f : Fault) :
    (wrapped text f).Has kind ↔ f.Has kind := by
  rw [has_iff_mem_kinds, has_iff_mem_kinds, kinds_eq, kind?, children, List.flatMap_singleton,
    List.mem_cons]
  exact or_iff_right (by simp)

/-- A list of one fault adds only itself. -/
theorem has_singleton {kind : FaultKind} (hkind : kind ≠ .list) (pos : Option Position)
    (f : Fault) :
    (list [⟨pos, f⟩]).Has kind ↔ f.Has kind := by
  rw [has_iff_mem_kinds, has_iff_mem_kinds, kinds_eq, kind?, children]
  simp [ErrorList.faults, hkind]

end Fault

/-- The second fault is the first one with the entries of lists in it put into another order. -/
inductive Rearranged : Fault → Fault → Prop where
  /-- The entries of a list. -/
  | entries {l l' : ErrorList} (h : l.Perm l') : Rearranged (.list l) (.list l')
  /-- Within a cause. -/
  | cause (text : Text) {f g : Fault} (h : Rearranged f g) :
    Rearranged (.wrapped text f) (.wrapped text g)
  /-- Within an entry of a list. -/
  | entry (before : ErrorList) (pos : Option Position) {f g : Fault} (after : ErrorList)
      (h : Rearranged f g) :
      Rearranged (.list (before ++ ⟨pos, f⟩ :: after)) (.list (before ++ ⟨pos, g⟩ :: after))
  /-- In several places. -/
  | trans {f g h : Fault} (hfg : Rearranged f g) (hgh : Rearranged g h) : Rearranged f h

/-- Another order of entries gives the nodes another order, so each kind
occurs as often as before. -/
theorem Rearranged.perm_kinds {f g : Fault} (h : Rearranged f g) : f.kinds.Perm g.kinds := by
  induction h with
  | entries h =>
    rw [Fault.kinds_eq, Fault.kinds_eq]
    exact ((h.map Located.value).flatMap_right Fault.kinds).cons _
  | cause text h ih =>
    rw [Fault.kinds_eq, Fault.kinds_eq (.wrapped text _)]
    simpa [Fault.children, Fault.kind?] using ih
  | entry before pos after h ih =>
    rw [Fault.kinds_eq, Fault.kinds_eq (.list (before ++ _ :: after))]
    simp only [Fault.children, Fault.kind?, ErrorList.faults, List.map_append, List.map_cons,
      List.flatMap_append, List.flatMap_cons]
    exact ((ih.append_right _).append_left _).cons _
  | trans hfg hgh ihfg ihgh => exact ihfg.trans ihgh

/-! ## Main statement -/

/-- A full table and a missing name, in this order, in a list below a
message, with another message. -/
def nestedFault : Fault :=
  .list [⟨none, .wrapped "deep"
      (.list [⟨none, .symbol (.capacity 2)⟩, ⟨none, .symbol (.notFound "x" 3)⟩])⟩,
    ⟨none, .message "flat"⟩]

/-- The same with the entries of both lists in the opposite order. -/
def turnedFault : Fault :=
  .list [⟨none, .message "flat"⟩,
    ⟨none, .wrapped "deep"
      (.list [⟨none, .symbol (.notFound "x" 3)⟩, ⟨none, .symbol (.capacity 2)⟩])⟩]

end ThreeAddress
