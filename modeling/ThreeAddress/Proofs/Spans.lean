import Mathlib.Data.Prod.Lex
import Mathlib.Order.Bounds.Basic
import ThreeAddress.Position

/-!
# What merged positions span

Places of one file are ordered by line and then by column. The span of two positions starts at the
earlier start, whichever comes first in the call, and its last column is that of the later end.
Several positions can be merged pairwise in many orders and groupings. Main statement: the file and
the start of the result are always the same, namely the least start, and for positions on one line
so is the last column, namely the greatest.
-/

namespace ThreeAddress.Position

/-! ## Two positions -/

/-- Where a position starts, in reading order. -/
def start (p : Position) : ℤ ×ₗ ℤ := toLex (p.line.toInt, p.startCol.toInt)

/-- Where a position ends, in reading order. -/
def stop (p : Position) : ℤ ×ₗ ℤ := toLex (p.line.toInt, p.endCol.toInt)

theorem before_iff {line col line' col' : Int64} :
    Before line col line' col' ↔
      toLex (line.toInt, col.toInt) < toLex (line'.toInt, col'.toInt) := by
  rw [Before, Prod.Lex.toLex_lt_toLex, Int64.lt_iff_toInt_lt, Int64.lt_iff_toInt_lt,
    Int64.toInt_inj]

theorem start_eq_iff {p : Position} {line col : Int64} :
    p.start = toLex (line.toInt, col.toInt) ↔ p.line = line ∧ p.startCol = col := by
  rw [start, toLex_inj, Prod.mk.injEq, Int64.toInt_inj, Int64.toInt_inj]

/-- The span of two positions starts at the earlier start. -/
theorem start_span (a b : Position) : (span a b).start = min a.start b.start := by
  by_cases h : Before b.line b.startCol a.line a.startCol
  · have hlt : b.start < a.start := before_iff.mp h
    rw [min_eq_right hlt.le]
    simp only [span, start, if_pos h]
  · have hle : a.start ≤ b.start := not_lt.mp (mt before_iff.mpr h)
    rw [min_eq_left hle]
    simp only [span, start, if_neg h]

/-- The last column of a span is that of the later end. -/
theorem endCol_span (a b : Position) : (span a b).endCol.toInt = (ofLex (max a.stop b.stop)).2 := by
  by_cases h : Before a.line a.endCol b.line b.endCol
  · have hlt : a.stop < b.stop := before_iff.mp h
    rw [max_eq_right hlt.le]
    simp only [span, stop, if_pos h, ofLex_toLex]
  · have hle : b.stop ≤ a.stop := not_lt.mp (mt before_iff.mpr h)
    rw [max_eq_left hle]
    simp only [span, stop, if_neg h, ofLex_toLex]

/-- On one line the later end is the greater column. -/
theorem endCol_span_of_line_eq {a b : Position} (h : a.line = b.line) :
    (span a b).endCol.toInt = max a.endCol.toInt b.endCol.toInt := by
  have hline : a.line.toInt = b.line.toInt := congrArg Int64.toInt h
  rw [endCol_span]
  rcases le_total a.endCol.toInt b.endCol.toInt with hle | hle
  · have hstop : a.stop ≤ b.stop := Prod.Lex.toLex_le_toLex.mpr (.inr ⟨hline, hle⟩)
    rw [max_eq_right hle, max_eq_right hstop, stop, ofLex_toLex]
  · have hstop : b.stop ≤ a.stop := Prod.Lex.toLex_le_toLex.mpr (.inr ⟨hline.symm, hle⟩)
    rw [max_eq_left hle, max_eq_left hstop, stop, ofLex_toLex]

/-- Positions of one file have the same span in either order. -/
theorem span_comm {a b : Position} (h : a.file = b.file) : span a b = span b a := by
  have hstart : (span a b).start = (span b a).start := by rw [start_span, start_span, min_comm]
  obtain ⟨hline, hcol⟩ := start_eq_iff.mp hstart
  have hend : (span a b).endCol = (span b a).endCol := by
    rw [← Int64.toInt_inj, endCol_span, endCol_span, max_comm]
  have hfile : (span a b).file = (span b a).file := h
  calc span a b = ⟨(span a b).file, (span a b).line, (span a b).startCol, (span a b).endCol⟩ := rfl
    _ = span b a := by rw [hfile, hline, hcol, hend]

/-! ## Several positions -/

/-- A way to merge several positions, of which some may be missing, two at a time. -/
inductive Merging where
  /-- Take one as it is. -/
  | leaf (p : Option Position)
  /-- Merge what two ways give. -/
  | pair (first second : Merging)

namespace Merging

/-- What is merged, from left to right. -/
def leaves : Merging → List (Option Position)
  | leaf p => [p]
  | pair first second => first.leaves ++ second.leaves

/-- What the merges give. -/
def result : Merging → Option Position
  | leaf p => p
  | pair first second => merge first.result second.result

end Merging

/-- The positions of a list that are not missing. -/
def present (places : List (Option Position)) : Set Position := {p | some p ∈ places}

theorem present_append (first second : List (Option Position)) :
    present (first ++ second) = present first ∪ present second :=
  Set.ext fun _ => List.mem_append

/-- A position that covers some positions: it starts at their least start, is of their file if they
are of one, and ends at their greatest last column if they are on one line. -/
structure Covers (r : Position) (places : Set Position) : Prop where
  start : IsLeast (Position.start '' places) r.start
  file : ∀ file, (∀ p ∈ places, p.file = file) → r.file = file
  endCol : ∀ line, (∀ p ∈ places, p.line = line) →
    IsGreatest ((fun p => p.endCol.toInt) '' places) r.endCol.toInt

/-- What merging some positions should give: one that covers them, or nothing if there are none. -/
def Sums (places : Set Position) : Option Position → Prop
  | none => places = ∅
  | some r => r.Covers places

theorem covers_singleton (p : Position) : p.Covers {p} where
  start := by
    rw [Set.image_singleton]
    exact isLeast_singleton
  file := fun _ h => h p rfl
  endCol := fun _ _ => by
    rw [Set.image_singleton]
    exact isGreatest_singleton

/-- A position that covers positions of one line is on that line. -/
theorem Covers.line {r : Position} {places : Set Position} (h : r.Covers places) {line : Int64}
    (hline : ∀ p ∈ places, p.line = line) : r.line = line := by
  obtain ⟨p, hp, hstart⟩ := h.start.1
  have hr : p.line = r.line ∧ p.startCol = r.startCol := start_eq_iff.mp hstart
  rw [← hr.1, hline p hp]

/-- The span of two positions covers what the two cover. -/
theorem Covers.span {a b : Position} {left right : Set Position} (ha : a.Covers left)
    (hb : b.Covers right) :
    (span a b).Covers (left ∪ right) where
  start := by
    rw [start_span, Set.image_union]
    exact ha.start.union hb.start
  file := fun file h => ha.file file fun p hp => h p (.inl hp)
  endCol := fun line h => by
    have hleft : ∀ p ∈ left, p.line = line := fun p hp => h p (.inl hp)
    have hright : ∀ p ∈ right, p.line = line := fun p hp => h p (.inr hp)
    have hline : a.line = b.line := (ha.line hleft).trans (hb.line hright).symm
    rw [endCol_span_of_line_eq hline, Set.image_union]
    exact (ha.endCol line hleft).union (hb.endCol line hright)

theorem Sums.merge {left right : Set Position} {a b : Option Position} (ha : Sums left a)
    (hb : Sums right b) :
    Sums (left ∪ right) (merge a b) := by
  cases a with
  | none =>
    have hleft : left = ∅ := ha
    rwa [merge_none_left, hleft, Set.empty_union]
  | some a =>
    cases b with
    | none =>
      have hright : right = ∅ := hb
      rwa [merge_none_right, hright, Set.union_empty]
    | some b => exact Covers.span ha hb

theorem sums_one (p : Option Position) : Sums (present [p]) p := by
  cases p with
  | none =>
    refine Set.eq_empty_iff_forall_notMem.mpr fun q hq => ?_
    cases List.mem_singleton.mp hq
  | some p =>
    have hpresent : present [some p] = {p} := by
      ext q
      simp [present]
    rw [hpresent]
    exact covers_singleton p

/-- Merging a list from its end is one way to cover what it holds. -/
theorem sums_foldr (places : List (Option Position)) :
    Sums (present places) (places.foldr merge none) := by
  induction places with
  | nil => exact Set.eq_empty_iff_forall_notMem.mpr fun q hq => List.not_mem_nil hq
  | cons p rest ih =>
    rw [← List.singleton_append, present_append]
    exact (sums_one p).merge ih

/-- However positions are grouped, merging them gives one that covers them. -/
theorem Merging.sums (t : Merging) : Sums (present t.leaves) t.result := by
  induction t with
  | leaf p => exact sums_one p
  | pair first second ihFirst ihSecond =>
    rw [leaves, present_append]
    exact ihFirst.merge ihSecond

theorem Sums.exists_covers {places : Set Position} {o : Option Position} (h : Sums places o)
    (hplaces : places.Nonempty) : ∃ r, o = some r ∧ r.Covers places := by
  cases o with
  | none => exact absurd h hplaces.ne_empty
  | some r => exact ⟨r, rfl, h⟩

/-- Positions that are not all missing, merged in any order and grouping,
give one that covers them. -/
theorem Merging.exists_covers {t : Merging} {places : List (Option Position)}
    (ht : t.leaves.Perm places) (hplaces : (present places).Nonempty) :
    ∃ r, t.result = some r ∧ r.Covers (present places) := by
  have hpresent : present t.leaves = present places := Set.ext fun _ => ht.mem_iff
  have hsums := t.sums
  rw [hpresent] at hsums
  exact hsums.exists_covers hplaces

/-! ## Main statement -/

/-- Of two positions of one file, merging gives the same in either order: a position of that file
that starts at the earlier start and whose last column is that of the later end. A position merged
with itself or with a missing one stays as it is. Of several positions of one file, not all of them
missing, every order and every grouping of the merges gives a position of that file with the least
start; and if all are on one line, with the greatest last column. -/
theorem merging_spans_all (file : Text) :
    (∀ a b : Position, a.file = file → b.file = file →
      merge (some a) (some b) = merge (some b) (some a) ∧
      ∃ r, merge (some a) (some b) = some r ∧ r.file = file ∧ r.start = min a.start b.start ∧
        r.endCol.toInt = (ofLex (max a.stop b.stop)).2) ∧
    (∀ p : Option Position, merge p p = p ∧ merge none p = p ∧ merge p none = p) ∧
    ∀ places : List (Option Position),
      (∀ p ∈ present places, p.file = file) → (present places).Nonempty →
      (∃ line col : Int64, IsLeast (start '' present places) (toLex (line.toInt, col.toInt)) ∧
        ∀ t : Merging, t.leaves.Perm places →
          ∃ r, t.result = some r ∧ r.file = file ∧ r.line = line ∧ r.startCol = col) ∧
      ∀ line, (∀ p ∈ present places, p.line = line) →
        ∃ last : Int64, IsGreatest ((fun p => p.endCol.toInt) '' present places) last.toInt ∧
          ∀ t : Merging, t.leaves.Perm places → ∃ r, t.result = some r ∧ r.endCol = last := by
  refine ⟨fun a b ha hb => ⟨?_, span a b, rfl, ha, start_span a b, endCol_span a b⟩,
    fun p => ?_, ?_⟩
  · exact congrArg some (span_comm (ha.trans hb.symm))
  · refine ⟨?_, merge_none_left p, merge_none_right p⟩
    cases p with
    | none => rfl
    | some p => exact congrArg some (span_self p)
  · intro places hfile hplaces
    -- One way to merge the positions tells what all ways give.
    obtain ⟨r, -, hr⟩ := (sums_foldr places).exists_covers hplaces
    refine ⟨⟨r.line, r.startCol, hr.start, fun t ht => ?_⟩, fun line hline => ?_⟩
    · obtain ⟨r', hresult, hr'⟩ := t.exists_covers ht hplaces
      have hstart : r'.line = r.line ∧ r'.startCol = r.startCol :=
        start_eq_iff.mp (hr'.start.unique hr.start)
      exact ⟨r', hresult, hr'.file file hfile, hstart.1, hstart.2⟩
    · refine ⟨r.endCol, hr.endCol line hline, fun t ht => ?_⟩
      obtain ⟨r', hresult, hr'⟩ := t.exists_covers ht hplaces
      have hend := (hr'.endCol line hline).unique (hr.endCol line hline)
      exact ⟨r', hresult, Int64.toInt_inj.mp hend⟩

/-- Three ranges of one line, of which two end before they start, with two places missing. -/
def fragments : List (Option Position) :=
  [none, some ⟨"f", 1, 5, 3⟩, some ⟨"f", 1, 7, 9⟩, none, some ⟨"f", 1, 4, 2⟩]

/-- However the ranges are merged, the result goes from column 4 to column 9; and one of them can be
merged with a range of another line in either order. -/
theorem fragments_merge_alike :
    merge (some ⟨"f", 1, 5, 3⟩) (some ⟨"f", 2, 0, 1⟩) =
      merge (some ⟨"f", 2, 0, 1⟩) (some ⟨"f", 1, 5, 3⟩) ∧
    ∀ t : Merging, t.leaves.Perm fragments → t.result = some ⟨"f", 1, 4, 9⟩ := by
  have hone : ∀ p ∈ present fragments, p.file = "f" ∧ p.line = 1 := by
    intro p hp
    have hmem : some p ∈ fragments := hp
    simp only [fragments, List.mem_cons, Option.some.injEq, reduceCtorEq,
      List.not_mem_nil, or_false, false_or] at hmem
    rcases hmem with rfl | rfl | rfl <;> exact ⟨rfl, rfl⟩
  have hplaces : (present fragments).Nonempty := ⟨⟨"f", 1, 5, 3⟩, by simp [present, fragments]⟩
  obtain ⟨htwo, -, hall⟩ := merging_spans_all "f"
  obtain ⟨⟨line, col, -, hstart⟩, hlast⟩ := hall fragments (fun p hp => (hone p hp).1) hplaces
  obtain ⟨last, -, hend⟩ := hlast 1 fun p hp => (hone p hp).2
  -- Any one way to merge them gives the numbers.
  let way : Merging := .pair (.pair (.leaf none) (.leaf (some ⟨"f", 1, 5, 3⟩)))
    (.pair (.leaf (some ⟨"f", 1, 7, 9⟩)) (.pair (.leaf none) (.leaf (some ⟨"f", 1, 4, 2⟩))))
  have hway : way.leaves.Perm fragments := .refl _
  have hresult : way.result = some ⟨"f", 1, 4, 9⟩ := rfl
  obtain ⟨r, hr, -, rfl, rfl⟩ := hstart way hway
  obtain ⟨r', hr', rfl⟩ := hend way hway
  cases hresult.symm.trans hr
  cases hresult.symm.trans hr'
  refine ⟨(htwo _ _ rfl rfl).1, fun t ht => ?_⟩
  obtain ⟨q, hq, hfile, hline, hcol⟩ := hstart t ht
  obtain ⟨q', hq', hendCol⟩ := hend t ht
  cases hq.symm.trans hq'
  calc t.result = some ⟨q.file, q.line, q.startCol, q.endCol⟩ := hq
    _ = some ⟨"f", 1, 4, 9⟩ := by rw [hfile, hline, hcol, hendCol]

/-- On several lines the last column depends on the grouping: the line of an end is not kept. -/
example :
    let a : Position := ⟨[], 0, 0, 5⟩
    let b : Position := ⟨[], 1, 0, 3⟩
    let c : Position := ⟨[], 0, 0, 9⟩
    span (span a b) c = ⟨[], 0, 0, 9⟩ ∧ span a (span b c) = ⟨[], 0, 0, 5⟩ := by
  decide

end ThreeAddress.Position
