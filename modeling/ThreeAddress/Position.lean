import ThreeAddress.Text.Basic

/-!
# Positions

A position names a file, a line and a range of columns on it, all counted from zero. Its text counts
from one. Two positions merge into the span from the earlier start to the later end.
-/

namespace ThreeAddress

/-- A range of columns on one line of a file; line and columns count from zero. -/
structure Position where
  /-- Name of the file. -/
  file : Text
  /-- Line, the first being zero. -/
  line : Int64
  /-- First column of the range. -/
  startCol : Int64
  /-- Last column of the range; not above `startCol` when the range is a single place. -/
  endCol : Int64
  deriving DecidableEq, Inhabited

namespace Position

/-- File, line and first column joined by colons, and the last column after a dash when it lies
behind the first. Numbers are shown one higher than stored, and that addition wraps. -/
def text (p : Position) : Text :=
  let range : Text := if p.startCol < p.endCol then "-" ++ Text.ofWord (p.endCol + 1) else []
  p.file ++ ":" ++ Text.ofWord (p.line + 1) ++ ":" ++ Text.ofWord (p.startCol + 1) ++ range

/-- Reading order of two places of one file: by line, then by column. -/
abbrev Before (line col line' col' : Int64) : Prop :=
  line < line' ∨ line = line' ∧ col < col'

/-- The position from the earlier start to the later end, in the file of the first argument. -/
def span (a b : Position) : Position :=
  let first := if Before b.line b.startCol a.line a.startCol then b else a
  let last := if Before a.line a.endCol b.line b.endCol then b else a
  ⟨a.file, first.line, first.startCol, last.endCol⟩

/-- The span of two positions either of which may be missing. -/
def merge : Option Position → Option Position → Option Position := Option.merge span

@[simp] theorem merge_none_left (b : Option Position) : merge none b = b := by
  cases b <;> rfl

@[simp] theorem merge_none_right (a : Option Position) : merge a none = a := by
  cases a <;> rfl

@[simp] theorem span_self (a : Position) : span a a = a := by
  simp [span]

end Position

end ThreeAddress
