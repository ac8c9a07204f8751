import Mathlib.Data.List.Basic
import ThreeAddress.Proofs.Quotation
import ThreeAddress.Proofs.Tables

/-!
# What the dump of a table tells

The line of a symbol has two quoted texts, a number and a flag, each of which tells where it ends;
so a line ends where it should even if names have newlines in them, and the closing brace cannot be
taken for a line. Main statement: two tables that operations lead to have the same dump exactly if
they show the same symbols with the same marks.
-/

namespace ThreeAddress

namespace Text

/-- A text tells the flag whose word it starts with, and what follows. -/
theorem flag_append_inj {a b : Bool} {s t : Text}
    (h : ofString (if a then "true" else "false") ++ s =
      ofString (if b then "true" else "false") ++ t) :
    a = b ∧ s = t := by
  cases a <;> cases b
  · exact ⟨rfl, List.append_cancel_left h⟩
  · exact absurd (List.cons.inj h).1 (by decide)
  · exact absurd (List.cons.inj h).1 (by decide)
  · exact ⟨rfl, List.append_cancel_left h⟩

end Text

namespace SymbolTable

/-- What a dump shows of a symbol. -/
def shown (s : Symbol) : Text × Text × Scope := (s.name, s.type, s.scope)

/-- What the line of a dump shows besides the number: the symbol and its mark. -/
def row (e : Symbol × Bool) : (Text × Text × Scope) × Bool := (shown e.1, e.2)

/-- A line of a dump tells its row, and the text what follows. -/
theorem dumpLine_append_inj {id : Nat} {e e' : Symbol × Bool} {rest rest' : Text}
    (h : dumpLine id e.1 e.2 ++ rest = dumpLine id e'.1 e'.2 ++ rest') :
    row e = row e' ∧ rest = rest' := by
  have hstops : ∀ t : Text, (Text.ofString " used " ++ t).Stops := fun _ => rfl
  simp only [dumpLine, List.append_assoc] at h
  obtain ⟨hname, h⟩ := Text.quoted_append_inj
    (List.append_cancel_left (List.append_cancel_left (List.append_cancel_left h)))
  obtain ⟨htype, h⟩ := Text.quoted_append_inj (List.append_cancel_left h)
  obtain ⟨hscope, h⟩ := Text.ofWord_append_inj (hstops _) (hstops _) (List.append_cancel_left h)
  obtain ⟨hused, h⟩ := Text.flag_append_inj (List.append_cancel_left h)
  exact ⟨by rw [row, row, shown, shown, hname, htype, hscope, hused], List.append_cancel_left h⟩

/-- Lines numbered alike up to the closing brace tell their rows. -/
theorem dumpFrom_append_inj {id : Nat} {entries entries' : List (Symbol × Bool)}
    (h : dumpFrom id entries ++ "\x7d\n" = dumpFrom id entries' ++ "\x7d\n") :
    entries.map row = entries'.map row := by
  induction entries generalizing id entries' with
  | nil =>
    cases entries' with
    | nil => rfl
    | cons e rest => exact absurd (List.cons.inj h).1 (by decide)
  | cons e rest ih =>
    cases entries' with
    | nil => exact absurd (List.cons.inj h).1 (by decide)
    | cons e' rest' =>
      rw [dumpFrom, dumpFrom, List.append_assoc, List.append_assoc] at h
      obtain ⟨hrow, hrest⟩ := dumpLine_append_inj h
      rw [List.map_cons, List.map_cons, hrow, ih hrest]

theorem dumpLine_congr (id : Nat) {e e' : Symbol × Bool} (h : row e = row e') :
    dumpLine id e.1 e.2 = dumpLine id e'.1 e'.2 := by
  simp only [row, shown, Prod.mk.injEq] at h
  obtain ⟨⟨hname, htype, hscope⟩, hused⟩ := h
  rw [dumpLine, dumpLine, hname, htype, hscope, hused]

theorem dumpFrom_congr (id : Nat) {entries entries' : List (Symbol × Bool)}
    (h : entries.map row = entries'.map row) : dumpFrom id entries = dumpFrom id entries' := by
  induction entries generalizing id entries' with
  | nil =>
    cases entries' with
    | nil => rfl
    | cons e rest => cases h
  | cons e rest ih =>
    cases entries' with
    | nil => cases h
    | cons e' rest' =>
      rw [List.map_cons, List.map_cons, List.cons.injEq] at h
      rw [dumpFrom, dumpFrom, dumpLine_congr id h.1, ih (id + 1) h.2]

/-- Two tables have the same dump exactly if their rows are the same. -/
theorem dump_eq_iff {t t' : SymbolTable} :
    t.dump = t'.dump ↔ t.entries.map row = t'.entries.map row :=
  ⟨dumpFrom_append_inj, fun h => congrArg (· ++ Text.ofString "\x7d\n") (dumpFrom_congr 0 h)⟩

/-- The rows of coherent tables are the same exactly if their symbols, as a dump shows
them, and their marks are. -/
theorem Coherent.rows_eq_iff {t t' : SymbolTable} (h : Coherent t) (h' : Coherent t') :
    t.entries.map row = t'.entries.map row ↔
      t.symbols.map shown = t'.symbols.map shown ∧ t.used = t'.used := by
  have hunzip : ∀ {t : SymbolTable}, Coherent t →
      (t.entries.map row).unzip = (t.symbols.toList.map shown, t.used.toList) := by
    intro t h
    have hlength : (t.symbols.toList.map shown).length = t.used.toList.length := by
      rw [List.length_map]
      exact h.size_used.symm
    have hrow : row = Prod.map shown id := rfl
    rw [entries, hrow, ← List.zip_map_left, List.unzip_zip hlength]
  rw [← Array.toList_inj, ← Array.toList_inj, Array.toList_map, Array.toList_map, ← Prod.mk.injEq,
    ← hunzip h, ← hunzip h']
  constructor
  · exact congrArg List.unzip
  · intro heq
    rw [← List.zip_unzip (t.entries.map row), heq, List.zip_unzip]

/-- Two tables that operations lead to have the same dump exactly if they hold, in
the same order, symbols of the same names, types and scopes with the same marks.
Names and types may be any bytes. -/
theorem dump_tells_table (v v' : Verbosity) (limits limits' : List Int64) (ops ops' : List Op) :
    (after v limits ops).dump = (after v' limits' ops').dump ↔
      (after v limits ops).symbols.map (fun s => (s.name, s.type, s.scope)) =
        (after v' limits' ops').symbols.map (fun s => (s.name, s.type, s.scope)) ∧
      (after v limits ops).used = (after v' limits' ops').used := by
  have h : Coherent (after v limits ops) := (coherent_withLimits limits).run v ops
  have h' : Coherent (after v' limits' ops') := (coherent_withLimits limits').run v' ops'
  rw [dump_eq_iff]
  exact h.rows_eq_iff h'

end SymbolTable
end ThreeAddress
