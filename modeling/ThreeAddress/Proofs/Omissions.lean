import Mathlib.Logic.Basic
import ThreeAddress.Proofs.Tables

/-!
# Operations that can be left out

Some operations on a table change nothing that others would notice. One that fails leaves the whole
table as it is, and a look-up sets a mark and nothing else. Main statement: any of the operations
that failed in a run can be left out, and neither the other answers nor the table at the end are
different. Behind it stands what is left of a run without its look-ups, where only questions about
the marks can be answered differently.
-/

namespace ThreeAddress

/-- What a list holds at the positions that are kept. -/
def keptAt {α : Type} (keep : Nat → Bool) : List α → List α
  | [] => []
  | a :: rest =>
    let later := keptAt (fun i => keep (i + 1)) rest
    if keep 0 then a :: later else later

namespace SymbolTable

theorem run_cons (v : Verbosity) (op : Op) (rest : List Op) (t : SymbolTable) :
    run v (op :: rest) t =
      (⟨(op.apply t).1, op.log v (op.apply t).1⟩ :: (run v rest (op.apply t).2).1,
        (run v rest (op.apply t).2).2) := rfl

theorem run_append (v : Verbosity) (first later : List Op) (t : SymbolTable) :
    (run v (first ++ later) t).2 = (run v later (run v first t).2).2 := by
  induction first generalizing t with
  | nil => rfl
  | cons op rest ih => exact ih (op.apply t).2

/-! ## Failures -/

/-- An answer that tells of a failure: no number for a symbol, or no symbol for a number. -/
def Answer.isFailure : Answer → Bool
  | .id (.error _) => true
  | .symbol none => true
  | _ => false

/-- An operation that fails leaves the table as it is. -/
theorem apply_of_isFailure {op : Op} {t : SymbolTable} (h : (op.apply t).1.isFailure = true) :
    (op.apply t).2 = t := by
  obtain hsame | ⟨s, -, -, -, happly⟩ | ⟨name, scope, id, -, -, happly⟩ := apply_cases op t
  · exact hsame
  · rw [happly] at h
    cases h
  · rw [happly] at h
    cases h

/-- Of any operations on any table, leave out some of those that failed. The answers of the others
and the table at the end, with its symbols, marks, index and limit, are the same. -/
theorem failures_leave_no_trace (v : Verbosity) (ops : List Op) (t : SymbolTable)
    (keep : Nat → Bool)
    (hfailed : ∀ i step, (run v ops t).1[i]? = some step → keep i = false →
      step.answer.isFailure = true) :
    run v (keptAt keep ops) t = (keptAt keep (run v ops t).1, (run v ops t).2) := by
  induction ops generalizing t keep with
  | nil => rfl
  | cons op rest ih =>
    have hrest :=
      ih (op.apply t).2 (fun i => keep (i + 1)) fun i step hstep => hfailed (i + 1) step hstep
    rw [run_cons, keptAt, keptAt]
    cases hkeep : keep 0 with
    | true => rw [if_pos rfl, if_pos rfl, run_cons, hrest]
    | false =>
      have hsame : (op.apply t).2 = t := apply_of_isFailure (hfailed 0 _ rfl hkeep)
      rw [if_neg Bool.false_ne_true, if_neg Bool.false_ne_true]
      rw [hsame] at hrest ⊢
      exact hrest

/-- A symbol declared twice, a number and a name without a symbol, one symbol too many, a look-up
that finds the first symbol, and questions in between. -/
def faultyOps : List Op :=
  [.declare ⟨"x", "int", 0, none⟩, .declare ⟨"x", "bool", 0, none⟩, .symbol 5, .lookup "y" 3, .size,
    .declare ⟨"y", "int", 3, none⟩, .declare ⟨"z", "int", 0, none⟩, .lookup "x" 3, .unused]

/-- Four of the operations fail. Without three of these the table gives the same
answers and ends the same. -/
theorem faultyOps_leave_no_trace :
    (run 0 faultyOps (withLimits [2])).1.map (fun step => step.answer.isFailure) =
      [false, true, true, true, false, false, true, false, false] ∧
    run 0 [.declare ⟨"x", "int", 0, none⟩, .lookup "y" 3, .size, .declare ⟨"y", "int", 3, none⟩,
        .lookup "x" 3, .unused] (withLimits [2]) =
      (keptAt (fun i => i ∉ [1, 2, 6]) (run 0 faultyOps (withLimits [2])).1,
        (run 0 faultyOps (withLimits [2])).2) := by
  have hfailures : (run 0 faultyOps (withLimits [2])).1.map (fun step => step.answer.isFailure) =
      [false, true, true, true, false, false, true, false, false] := by decide +kernel
  refine ⟨hfailures,
    failures_leave_no_trace 0 faultyOps (withLimits [2]) (fun i => i ∉ [1, 2, 6]) ?_⟩
  intro i step hstep hkeep
  have hi : i ∈ [1, 2, 6] := not_not.mp (of_decide_eq_false hkeep)
  have hget := congrArg (·[i]?) hfailures
  simp only [List.getElem?_map, hstep, Option.map_some] at hget
  simp only [List.mem_cons, List.not_mem_nil, or_false] at hi
  rcases hi with rfl | rfl | rfl <;> exact Option.some.inj hget

/-! ## Look-ups -/

/-- An operation that looks a name up. -/
def Op.isLookup : Op → Bool
  | lookup .. => true
  | _ => false

/-- An operation that asks for the marks. -/
def Op.asksMarks : Op → Bool
  | unused | dump => true
  | _ => false

/-- Tables that differ in their marks only. -/
structure SameSymbols (t t' : SymbolTable) : Prop where
  symbols : t.symbols = t'.symbols
  index : t.index = t'.index
  limit : t.limit = t'.limit

/-- A look-up changes no more than the marks. -/
theorem SameSymbols.of_lookup {t t' : SymbolTable} (h : SameSymbols t t') (name : Text)
    (scope : Scope) :
    SameSymbols (t.lookup name scope).2 t' := by
  rw [lookup]
  cases t.find? name scope with
  | none => exact h
  | some id => exact ⟨h.symbols, h.index, h.limit⟩

/-- Marks do not matter to other operations, unless these ask for them. -/
theorem SameSymbols.apply {t t' : SymbolTable} (h : SameSymbols t t') {op : Op}
    (hop : op.isLookup = false) :
    SameSymbols (op.apply t).2 (op.apply t').2 ∧
      (op.asksMarks = false → (op.apply t).1 = (op.apply t').1) := by
  obtain ⟨symbols, used, index, limit⟩ := t
  obtain ⟨symbols', used', index', limit'⟩ := t'
  obtain ⟨rfl, rfl, rfl⟩ := h
  cases op with
  | declare s =>
    have hfull : isFull ⟨symbols, used', index, limit⟩ = isFull ⟨symbols, used, index, limit⟩ := rfl
    simp only [Op.apply, declare, hfull]
    split
    · exact ⟨⟨rfl, rfl, rfl⟩, fun _ => rfl⟩
    · split <;> exact ⟨⟨rfl, rfl, rfl⟩, fun _ => rfl⟩
  | lookup name scope => cases hop
  | symbol | size | symbols => exact ⟨⟨rfl, rfl, rfl⟩, fun _ => rfl⟩
  | unused | dump => exact ⟨⟨rfl, rfl, rfl⟩, fun hasks => by cases hasks⟩

/-- The operations of a run other than look-ups and questions about marks,
each with what it showed. -/
def plainSteps (v : Verbosity) (ops : List Op) (t : SymbolTable) : List (Op × Step) :=
  (ops.zip (run v ops t).1).filter fun x => !x.1.isLookup && !x.1.asksMarks

/-- Without its look-ups a run shows the same, apart from marks, and ends with the same symbols. -/
theorem SameSymbols.run_without_lookups {t t' : SymbolTable} (h : SameSymbols t t') (v : Verbosity)
    (ops : List Op) :
    plainSteps v (ops.filter fun op => !op.isLookup) t' = plainSteps v ops t ∧
      SameSymbols (run v ops t).2 (run v (ops.filter fun op => !op.isLookup) t').2 := by
  induction ops generalizing t t' with
  | nil => exact ⟨rfl, h⟩
  | cons op rest ih =>
    cases hop : op.isLookup with
    | true =>
      have hlookup : SameSymbols (op.apply t).2 t' := by
        cases op with
        | lookup name scope => exact h.of_lookup name scope
        | _ => cases hop
      obtain ⟨hsteps, hsymbols⟩ := ih hlookup
      simp only [plainSteps] at hsteps
      refine ⟨?_, ?_⟩
      · simp [plainSteps, run_cons, hop, hsteps]
      · simpa [run_cons, hop] using hsymbols
    | false =>
      obtain ⟨happly, hanswer⟩ := h.apply hop
      obtain ⟨hsteps, hsymbols⟩ := ih happly
      simp only [plainSteps] at hsteps
      refine ⟨?_, ?_⟩
      · cases hasks : op.asksMarks with
        | true => simp [plainSteps, run_cons, hop, hasks, hsteps]
        | false => simp [plainSteps, run_cons, hop, hasks, hsteps, hanswer hasks]
      · simpa [run_cons, hop] using hsymbols

end SymbolTable

end ThreeAddress
