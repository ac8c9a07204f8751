import Mathlib.Logic.ExistsUnique
import ThreeAddress.Program
import ThreeAddress.Request

/-!
# Positions in a program

Where in a program a name is stored, marked or aimed at. A name that a program has once stands at
exactly one position, and a program keeps what stands at its positions when it is extended.
-/

namespace ThreeAddress

/-- The name that a marker marks. -/
def Instr.marker? : Instr → Option Text
  | label name => some name
  | _ => none

/-- The name that a jump, conditional or not, aims at. -/
def Instr.target? : Instr → Option Text
  | condJump _ _ _ target => some target
  | jump target => some target
  | _ => none

theorem Instr.marker?_eq_some {i : Instr} {t : Text} : i.marker? = some t ↔ i = .label t := by
  cases i <;> simp [marker?]

namespace Program

/-- The names in which the instructions of a program store results, in order. -/
def destinations (p : Program) : List Text := p.filterMap Instr.dst?

/-- The names that the markers of a program mark, in order. -/
def markers (p : Program) : List Text := p.filterMap Instr.marker?

theorem destinations_append (p q : Program) :
    destinations (p ++ q) = p.destinations ++ q.destinations :=
  List.filterMap_append

theorem markers_append (p q : Program) : markers (p ++ q) = p.markers ++ q.markers :=
  List.filterMap_append

theorem destinations_cons (i : Instr) (p : Program) :
    destinations (i :: p) = i.dst?.toList ++ destinations p := by
  rw [destinations, List.filterMap_cons]
  cases i.dst? <;> rfl

theorem markers_cons (i : Instr) (p : Program) :
    markers (i :: p) = i.marker?.toList ++ markers p := by
  rw [markers, List.filterMap_cons]
  cases i.marker? <;> rfl

theorem mem_markers {p : Program} {t : Text} : t ∈ p.markers ↔ Instr.label t ∈ p := by
  rw [markers, List.mem_filterMap]
  constructor
  · rintro ⟨i, hi, ht⟩
    rwa [Instr.marker?_eq_some.mp ht] at hi
  · intro h
    exact ⟨_, h, rfl⟩

variable {f : Instr → Option Text}

theorem mem_filterMap_of_position {p : Program} {t : Text} {position : Nat}
    (h : p[position]?.bind f = some t) : t ∈ p.filterMap f := by
  obtain ⟨i, hi, hd⟩ := Option.bind_eq_some_iff.mp h
  exact List.mem_filterMap.mpr ⟨i, List.mem_of_getElem? hi, hd⟩

/-- A name that occurs once stands at exactly one position. -/
theorem existsUnique_position {p : Program} {t : Text} (hmem : t ∈ p.filterMap f)
    (hnodup : (p.filterMap f).Nodup) : ∃! position : Nat, p[position]?.bind f = some t := by
  obtain ⟨i, hi, hd⟩ := List.mem_filterMap.mp hmem
  obtain ⟨before, after, rfl⟩ := List.append_of_mem hi
  rw [List.filterMap_append, List.filterMap_cons, hd] at hnodup
  obtain ⟨-, hrest, hapart⟩ := List.nodup_append.mp hnodup
  have hafter : t ∉ after.filterMap f := (List.nodup_cons.mp hrest).1
  have hbefore : t ∉ before.filterMap f := fun h => hapart t h t List.mem_cons_self rfl
  refine ⟨before.length, by simp [hd], ?_⟩
  intro k hk
  rcases Nat.lt_trichotomy k before.length with hlt | heq | hgt
  · rw [List.getElem?_append_left hlt] at hk
    exact absurd (mem_filterMap_of_position hk) hbefore
  · exact heq
  · obtain ⟨j, rfl⟩ := Nat.exists_eq_add_of_lt hgt
    rw [List.getElem?_append_right (by omega)] at hk
    have hj : before.length + j + 1 - before.length = j + 1 := by omega
    rw [hj, List.getElem?_cons_succ] at hk
    exact absurd (mem_filterMap_of_position hk) hafter

/-- Two positions of a marker that occurs once are the same. -/
theorem marker_position_unique {p : Program} (hnodup : p.markers.Nodup) {t : Text} {i j : Nat}
    (hi : p[i]? = some (.label t)) (hj : p[j]? = some (.label t)) : i = j := by
  have hmem : t ∈ p.markers := mem_markers.mpr (List.mem_of_getElem? hi)
  have hunique := existsUnique_position hmem hnodup
  have hi' : p[i]?.bind Instr.marker? = some t := by rw [hi]; rfl
  have hj' : p[j]?.bind Instr.marker? = some t := by rw [hj]; rfl
  exact hunique.unique hi' hj'

/-- What stands at a position of a program stands there in every extension. -/
theorem getElem?_of_prefix {p q : Program} (h : p <+: q) {i : Nat} {x : Instr}
    (hx : p[i]? = some x) : q[i]? = some x := by
  obtain ⟨rest, rfl⟩ := h
  have hlt := (List.getElem?_eq_some_iff.mp hx).1
  rw [List.getElem?_append_left hlt, hx]

end Program

end ThreeAddress
