import Mathlib.Data.List.Basic
import ThreeAddress.Position
import ThreeAddress.Proofs.Names

/-!
# What the text of a position tells

The text of a position quotes nothing: the file may have colons, dashes and digits in its name,
and a dash stands before the last column as well as before a negative number. It is read from its
end. Numbers have no colon in them, so the last two colons stand around the line, whatever the
file is called; and a number ends where no digit follows, so the dash behind the first column is
no sign. Main statement: two positions have the same text exactly if they are the same, up to
last columns that are not shown.
-/

namespace ThreeAddress.Position

open Text (ofWord)

/-- The byte between the file, the line and the columns. -/
def separator : UInt8 := 58

/-- The byte between the first and the last column. -/
def dash : UInt8 := 45

/-! ## The last separator -/

theorem eq_nil_of_last_separator {t middle t' : Text} (ht : separator ∉ t)
    (h : separator :: t = middle ++ separator :: t') : middle = [] ∧ t = t' := by
  cases middle with
  | nil => exact ⟨rfl, (List.cons.inj h).2⟩
  | cons b rest =>
    -- A separator would stand behind the last one.
    have hmem : separator ∈ t := by
      rw [(List.cons.inj h).2]
      exact List.mem_append_right rest List.mem_cons_self
    exact absurd hmem ht

/-- A text tells what stands before its last separator and what stands behind it. -/
theorem append_separator_inj {s t s' t' : Text} (ht : separator ∉ t) (ht' : separator ∉ t') :
    s ++ separator :: t = s' ++ separator :: t' ↔ s = s' ∧ t = t' := by
  constructor
  · intro h
    rcases List.append_eq_append_iff.mp h with ⟨middle, hs, htail⟩ | ⟨middle, hs, htail⟩
    · obtain ⟨rfl, hsame⟩ := eq_nil_of_last_separator ht htail
      exact ⟨by rw [hs, List.append_nil], hsame⟩
    · obtain ⟨rfl, hsame⟩ := eq_nil_of_last_separator ht' htail
      exact ⟨by rw [hs, List.append_nil], hsame.symm⟩
  · rintro ⟨rfl, rfl⟩
    rfl

theorem separator_not_mem_ofWord (w : Int64) : separator ∉ ofWord w := by
  intro h
  rcases Text.mem_ofWord h with hminus | hdigit
  · exact absurd hminus (by decide)
  · exact absurd hdigit (by decide)

/-! ## The columns -/

/-- The last column, if it lies behind the first. -/
def lastShown? (p : Position) : Option Int64 :=
  if p.startCol < p.endCol then some p.endCol else none

/-- A column after a dash, or nothing. -/
def rangeText : Option Int64 → Text
  | none => []
  | some col => dash :: ofWord (col + 1)

/-- What stands behind the last colon. -/
def columnsText (p : Position) : Text := ofWord (p.startCol + 1) ++ rangeText p.lastShown?

theorem text_eq_columns (p : Position) :
    p.text = (p.file ++ separator :: ofWord (p.line + 1)) ++ separator :: p.columnsText := by
  simp only [text, columnsText, lastShown?, List.append_assoc, List.cons_append]
  split <;> rfl

theorem stops_rangeText (col? : Option Int64) : (rangeText col?).Stops := by
  cases col? <;> rfl

theorem separator_not_mem_columnsText (p : Position) : separator ∉ p.columnsText := by
  rw [columnsText, List.mem_append, not_or]
  refine ⟨separator_not_mem_ofWord _, ?_⟩
  cases p.lastShown? with
  | none => exact List.not_mem_nil
  | some col =>
    rw [rangeText, List.mem_cons, not_or]
    exact ⟨by decide, separator_not_mem_ofWord _⟩

/-- The text of a word one higher, which wraps at the largest, tells the word. -/
theorem ofWord_add_one_inj {v w : Int64} : ofWord (v + 1) = ofWord (w + 1) ↔ v = w := by
  rw [ofWord, ofWord, Function.Injective.eq_iff fun _ _ => Text.ofInt_injective, Int64.toInt_inj,
    Int64.add_left_inj]

theorem rangeText_inj {a b : Option Int64} : rangeText a = rangeText b ↔ a = b := by
  cases a <;> cases b <;> simp [rangeText, ofWord_add_one_inj]

theorem columnsText_eq_iff {p q : Position} :
    p.columnsText = q.columnsText ↔ p.startCol = q.startCol ∧ p.lastShown? = q.lastShown? := by
  constructor
  · intro h
    obtain ⟨hstart, hrange⟩ := Text.ofWord_append_inj (stops_rangeText _) (stops_rangeText _) h
    exact ⟨(Int64.add_left_inj 1).mp hstart, rangeText_inj.mp hrange⟩
  · rintro ⟨hstart, hlast⟩
    rw [columnsText, columnsText, hstart, hlast]

/-- Behind the same first column, either no last column is shown or the same one. -/
theorem lastShown?_eq_iff {p q : Position} (h : p.startCol = q.startCol) :
    p.lastShown? = q.lastShown? ↔
      p.endCol ≤ p.startCol ∧ q.endCol ≤ q.startCol ∨ p.endCol = q.endCol := by
  rw [lastShown?, lastShown?, ← Int64.not_lt, ← Int64.not_lt, h]
  by_cases hp : q.startCol < p.endCol
  · by_cases hq : q.startCol < q.endCol
    · simp [hp, hq]
    · have hne : p.endCol ≠ q.endCol := fun heq => hq (heq ▸ hp)
      simp [hp, hq, hne]
  · by_cases hq : q.startCol < q.endCol
    · have hne : p.endCol ≠ q.endCol := fun heq => hp (heq ▸ hq)
      simp [hp, hq, hne]
    · simp [hp, hq]

/-! ## Main statement -/

/-- Two positions have the same text exactly if they have the same file, line and first column, and
either the same last column or both a last column that does not lie behind the first. -/
theorem text_tells_position (p q : Position) :
    p.text = q.text ↔ p.file = q.file ∧ p.line = q.line ∧ p.startCol = q.startCol ∧
      (p.endCol ≤ p.startCol ∧ q.endCol ≤ q.startCol ∨ p.endCol = q.endCol) := by
  calc p.text = q.text
      ↔ p.file ++ separator :: ofWord (p.line + 1) = q.file ++ separator :: ofWord (q.line + 1) ∧
          p.columnsText = q.columnsText := by
        rw [text_eq_columns, text_eq_columns, append_separator_inj (separator_not_mem_columnsText p)
          (separator_not_mem_columnsText q)]
    _ ↔ (p.file = q.file ∧ p.line = q.line) ∧ p.startCol = q.startCol ∧
        p.lastShown? = q.lastShown? := by
        rw [append_separator_inj (separator_not_mem_ofWord _) (separator_not_mem_ofWord _),
          ofWord_add_one_inj, columnsText_eq_iff]
    _ ↔ p.file = q.file ∧ p.line = q.line ∧ p.startCol = q.startCol ∧
          (p.endCol ≤ p.startCol ∧ q.endCol ≤ q.startCol ∨ p.endCol = q.endCol) := by
        rw [and_assoc]
        exact and_congr_right fun _ => and_congr_right fun _ => and_congr_right lastShown?_eq_iff

/-- Names that look like further numbers, and a last column that becomes
negative, leave the text clear. -/
example :
    text ⟨"a:2", 0, 4, 4⟩ = "a:2:1:5" ∧ text ⟨"a", 1, 0, 4⟩ = "a:2:1-5" ∧
    text ⟨"a", 1, -2, Int64.maxValue⟩ = "a:2:-1--9223372036854775808" := by
  decide +kernel

end ThreeAddress.Position
