import Mathlib.Data.List.Basic
import ThreeAddress.Proofs.Tables

/-!
# What declarations leave in a table

A table takes declarations one by one and looks each key up in its index. What it then holds can
be said without the index: the first declarations of their keys, cut to the limit. Main
statements: after any operations the symbols are these and every declaration was answered
accordingly; and without a limit, what a name stands for in a scope depends on the declarations
into that scope and the global one only.
-/

namespace ThreeAddress

namespace Symbol

theorem key_eq_iff {s : Symbol} {name : Text} {scope : Scope} :
    s.key = ⟨name, scope⟩ ↔ s.name = name ∧ s.scope = scope :=
  Key.mk.injEq .. ▸ Iff.rfl

/-- Of each key the first symbol that has it, in order. -/
def firsts : List Symbol → List Symbol
  | [] => []
  | s :: rest => s :: (firsts rest).filter fun d => d.key ≠ s.key

/-- The first symbol with a key stays the first. -/
theorem find?_firsts (all : List Symbol) (k : Key) :
    (firsts all).find? (·.key = k) = all.find? (·.key = k) := by
  induction all with
  | nil => rfl
  | cons s rest ih =>
    by_cases hs : s.key = k
    · simp [firsts, hs]
    · rw [firsts, List.find?_cons_of_neg (by simp [hs]), List.find?_cons_of_neg (by simp [hs]),
        List.find?_filter, ← ih]
      congr 1
      funext d
      by_cases hd : d.key = k
      · simp [hd, Ne.symm hs]
      · simp [hd]

/-- No key gets lost, and none is added. -/
theorem exists_mem_firsts {all : List Symbol} {k : Key} :
    (∃ s ∈ firsts all, s.key = k) ↔ ∃ s ∈ all, s.key = k := by
  have hfind : ∀ l : List Symbol, (∃ s ∈ l, s.key = k) ↔ (l.find? (·.key = k)).isSome := fun l => by
    simp only [List.find?_isSome, decide_eq_true_eq]
  rw [hfind, hfind, find?_firsts]

/-- One more symbol counts only if its key is new. -/
theorem firsts_concat (all : List Symbol) (d : Symbol) :
    firsts (all ++ [d]) = if ∃ s ∈ all, s.key = d.key then firsts all else firsts all ++ [d] := by
  induction all with
  | nil => simp [firsts]
  | cons s rest ih =>
    rw [List.cons_append, firsts, firsts, ih]
    by_cases hrest : ∃ s ∈ rest, s.key = d.key
    · simp [hrest]
    · by_cases hs : s.key = d.key
      · simp [hrest, hs]
      · simp [hrest, hs, Ne.symm hs]

end Symbol

namespace SymbolTable

/-- The symbol that an operation declares, if it declares one. -/
def Op.declared? : Op → Option Symbol
  | declare s => some s
  | _ => none

/-- The symbols that operations declare, in order. -/
def declarations (ops : List Op) : List Symbol := ops.filterMap Op.declared?

/-- As many symbols as a limit allows; all of them unless it is positive. -/
def upTo (limit : Int64) (all : List Symbol) : List Symbol :=
  if 0 < limit then all.take limit.toInt.toNat else all

/-- How a declaration is answered in a table with a limit and these symbols,
and the symbols after it. -/
inductive Verdict (limit : Int64) (all : List Symbol) (d : Symbol) :
    Except SymbolError Nat → List Symbol → Prop where
  /-- There are as many symbols as there may be, whatever the key. -/
  | full (hpos : 0 < limit) (hfull : (all.length : Int) = limit.toInt) :
      Verdict limit all d (.error (.capacity limit)) all
  /-- There is room, but a symbol has the key. -/
  | again (hroom : ¬(0 < limit ∧ (all.length : Int) = limit.toInt)) (prev : Symbol)
    (hprev : prev ∈ all)
      (hkey : prev.key = d.key) :
      Verdict limit all d (.error (.redeclaration d.name d.scope d.pos prev)) all
  /-- There is room, and the key is new. -/
  | inserted (hroom : ¬(0 < limit ∧ (all.length : Int) = limit.toInt))
    (hnew : ∀ s ∈ all, s.key ≠ d.key) :
      Verdict limit all d (.ok all.length) (all ++ [d])

variable {t : SymbolTable}

/-- A symbol of a coherent table is found under its key. -/
theorem Coherent.index_key_iff (h : Coherent t) {k : Symbol.Key} {id : Nat} :
    t.index[k]? = some id ↔ ∃ s, t.symbols.toList[id]? = some s ∧ s.key = k := by
  obtain ⟨name, scope⟩ := k
  rw [h.index_iff name scope id, Holds]
  simp only [Array.getElem?_toList, Symbol.key_eq_iff]

theorem Coherent.index_eq_none_iff (h : Coherent t) {k : Symbol.Key} :
    t.index[k]? = none ↔ ∀ s ∈ t.symbols.toList, s.key ≠ k := by
  rw [Option.eq_none_iff_forall_ne_some]
  constructor
  · intro hnone s hs hkey
    obtain ⟨id, hid⟩ := List.getElem?_of_mem hs
    exact hnone id (h.index_key_iff.mpr ⟨s, hid, hkey⟩)
  · intro hnew id hid
    obtain ⟨s, hs, hkey⟩ := h.index_key_iff.mp hid
    exact hnew s (List.mem_of_getElem? hs) hkey

/-- A coherent table answers a declaration by what its symbols are. -/
theorem Coherent.verdict (h : Coherent t) (d : Symbol) :
    Verdict t.limit t.symbols.toList d (t.declare d).1 (t.declare d).2.symbols.toList := by
  have hsize : (t.symbols.toList.length : Int) = t.size := by rw [Array.length_toList, size]
  cases hfull : t.isFull with
  | true =>
    obtain ⟨hpos, heq⟩ := h.isFull_iff.mp hfull
    rw [declare_of_isFull hfull]
    exact .full hpos (hsize.trans heq)
  | false =>
    have hroom : ¬(0 < t.limit ∧ (t.symbols.toList.length : Int) = t.limit.toInt) := by
      rw [hsize, ← h.isFull_iff, hfull]
      exact Bool.false_ne_true
    cases hindex : t.index[d.key]? with
    | some id =>
      obtain ⟨prev, hprev, hkey⟩ := h.index_key_iff.mp hindex
      have hget : t.symbols[id]? = some prev := by rw [← Array.getElem?_toList, hprev]
      have hdeclare : t.declare d = (.error (.redeclaration d.name d.scope d.pos prev), t) := by
        simp [declare, hfull, hindex, hget]
      rw [hdeclare]
      exact .again hroom prev (List.mem_of_getElem? hprev) hkey
    | none =>
      have hnew := h.index_eq_none_iff.mp hindex
      have hdeclare : t.declare d = (.ok t.symbols.toList.length, t.push d) := by
        simp [declare, hfull, hindex, size]
      have hpush : (t.push d).symbols.toList = t.symbols.toList ++ [d] := Array.toList_push
      rw [hdeclare, hpush]
      exact .inserted hroom hnew

/-- What is cut off by a limit does not come back. -/
theorem mem_of_mem_upTo {limit : Int64} {all : List Symbol} {s : Symbol} (h : s ∈ upTo limit all) :
    s ∈ all := by
  rw [upTo] at h
  split at h
  · exact List.mem_of_mem_take h
  · exact h

/-- As long as there is room, nothing is cut off, nor will be by one more symbol. -/
theorem upTo_of_room {limit : Int64} {all : List Symbol}
    (h : ¬(0 < limit ∧ ((upTo limit all).length : Int) = limit.toInt)) (d : Symbol) :
    upTo limit all = all ∧ upTo limit (all ++ [d]) = all ++ [d] := by
  by_cases hpos : 0 < limit
  · have hnonneg : 0 < limit.toInt := Int64.lt_iff_toInt_lt.mp hpos
    simp only [upTo, hpos, if_true, true_and, List.length_take] at h ⊢
    constructor
    · exact List.take_of_length_le (by omega)
    · exact List.take_of_length_le (by rw [List.length_append, List.length_singleton]; omega)
  · simp only [upTo, hpos, if_false, and_self]

/-- When there is no room left, one more symbol is cut off. -/
theorem upTo_of_full {limit : Int64} {all : List Symbol} (hpos : 0 < limit)
    (hfull : ((upTo limit all).length : Int) = limit.toInt) (d : Symbol) :
    upTo limit (all ++ [d]) = upTo limit all := by
  simp only [upTo, hpos, if_true, List.length_take] at hfull ⊢
  exact List.take_append_of_le_length (by omega)

/-- If a table holds the first declarations up to its limit, so it does
after one more declaration. -/
theorem Verdict.upTo_firsts {limit : Int64} {earlier : List Symbol} {d : Symbol}
    {answer : Except SymbolError Nat} {all : List Symbol}
    (h : Verdict limit (upTo limit (Symbol.firsts earlier)) d answer all) :
    all = upTo limit (Symbol.firsts (earlier ++ [d])) := by
  rw [Symbol.firsts_concat]
  cases h with
  | full hpos hfull =>
    split
    · rfl
    · rw [upTo_of_full hpos hfull]
  | again hroom prev hprev hkey =>
    rw [if_pos (Symbol.exists_mem_firsts.mp ⟨prev, mem_of_mem_upTo hprev, hkey⟩)]
  | inserted hroom hnew =>
    obtain ⟨hall, hmore⟩ := upTo_of_room hroom d
    rw [hall] at hnew
    have hfirst : ¬∃ s ∈ earlier, s.key = d.key := by
      rw [← Symbol.exists_mem_firsts]
      rintro ⟨s, hs, hkey⟩
      exact hnew s hs hkey
    rw [if_neg hfirst, hall, hmore]

/-- Only declarations change the symbols. -/
theorem symbols_apply_of_declared?_eq_none {op : Op} (h : op.declared? = none) (t : SymbolTable) :
    (op.apply t).2.symbols = t.symbols := by
  obtain hsame | ⟨s, rfl, -⟩ | ⟨name, scope, id, -, -, happly⟩ := apply_cases op t
  · rw [hsame]
  · cases h
  · rw [happly]
    rfl

/-- If a table holds the first of earlier declarations up to its limit, so
it does after an operation. -/
theorem Coherent.symbols_apply (h : Coherent t) {earlier : List Symbol}
    (ht : t.symbols.toList = upTo t.limit (Symbol.firsts earlier)) (op : Op) :
    (op.apply t).2.symbols.toList =
      upTo t.limit (Symbol.firsts (earlier ++ op.declared?.toList)) := by
  cases hop : op.declared? with
  | none =>
    rw [symbols_apply_of_declared?_eq_none hop, ht, Option.toList_none, List.append_nil]
  | some d =>
    obtain rfl : op = .declare d := by
      cases op with
      | declare s => rw [Option.some.inj hop]
      | _ => cases hop
    have hverdict := h.verdict d
    rw [ht] at hverdict
    exact hverdict.upTo_firsts

/-- If a table holds the first of earlier declarations up to its limit, so it does after a run. -/
theorem Coherent.symbols_run (h : Coherent t) {earlier : List Symbol}
    (ht : t.symbols.toList = upTo t.limit (Symbol.firsts earlier)) (v : Verbosity) (ops : List Op) :
    (SymbolTable.run v ops t).2.symbols.toList =
      upTo t.limit (Symbol.firsts (earlier ++ declarations ops)) := by
  induction ops generalizing t earlier with
  | nil =>
    rw [declarations, List.filterMap_nil, List.append_nil]
    exact ht
  | cons op rest ih =>
    have hlimit : (op.apply t).2.limit = t.limit := limit_run v [op] t
    have hstep := h.symbols_apply ht op
    rw [← hlimit] at hstep
    have hrest := ih (h.apply op) hstep
    have hall : earlier ++ op.declared?.toList ++ declarations rest =
        earlier ++ declarations (op :: rest) := by
      rw [declarations, declarations, List.filterMap_cons, List.append_assoc]
      cases op.declared? <;> rfl
    rw [hlimit, hall] at hrest
    exact hrest

/-- Every step of a run is what its operation gives in the table that the
operations before it led to. -/
theorem getElem?_steps (v : Verbosity) (ops : List Op) (t : SymbolTable) (i : Nat) :
    (run v ops t).1[i]? = ops[i]?.map fun op =>
      let answer := (op.apply (run v (ops.take i) t).2).1
      ⟨answer, op.log v answer⟩ := by
  induction ops generalizing t i with
  | nil => rfl
  | cons op rest ih =>
    cases i with
    | zero => rfl
    | succ i => exact ih (op.apply t).2 i

/-- The symbols that a table with the given limits is to hold after operations. -/
def expected (limits : List Int64) (ops : List Op) : List Symbol :=
  upTo (limits.getLastD 0) (Symbol.firsts (declarations ops))

theorem symbols_after (v : Verbosity) (limits : List Int64) (ops : List Op) :
    (after v limits ops).symbols.toList = expected limits ops := by
  have hempty : (withLimits limits).symbols.toList =
      upTo (withLimits limits).limit (Symbol.firsts []) := by
    rw [upTo, Symbol.firsts, List.take_nil, ite_self]
    rfl
  exact (coherent_withLimits limits).symbols_run hempty v ops

/-- After any operations a table holds the first declarations of their keys, in order, cut to the
last limit given if that is positive. Every declaration among the operations was answered by the
symbols that were there before it: with the limit if there were as many, even if it was a
duplicate; otherwise with the symbol of its key if there was one; otherwise with the number of
symbols, and it was inserted. -/
theorem declarations_in_closed_form (v : Verbosity) (limits : List Int64) (ops : List Op) :
    (after v limits ops).symbols.toList = expected limits ops ∧
    ∀ i d, ops[i]? = some (.declare d) →
      ∃ answer, ((run v ops (withLimits limits)).1[i]?).map Step.answer = some (.id answer) ∧
        Verdict (limits.getLastD 0) (expected limits (ops.take i)) d answer
          (expected limits (ops.take (i + 1))) := by
  refine ⟨symbols_after v limits ops, fun i d hd => ?_⟩
  have hcoherent : Coherent (after v limits (ops.take i)) := (coherent_withLimits limits).run v _
  have hlimit : (after v limits (ops.take i)).limit = limits.getLastD 0 := limit_run v _ _
  have hverdict := hcoherent.verdict d
  rw [hlimit, symbols_after] at hverdict
  have hall : expected limits (ops.take (i + 1)) =
      ((after v limits (ops.take i)).declare d).2.symbols.toList := by
    have hdeclared : declarations (ops.take (i + 1)) = declarations (ops.take i) ++ [d] := by
      rw [List.take_add_one, hd, declarations, List.filterMap_append]
      rfl
    rw [expected, hdeclared]
    exact hverdict.upTo_firsts.symm
  rw [hall]
  refine ⟨_, ?_, hverdict⟩
  rw [getElem?_steps, hd]
  rfl

/-- A duplicate leaves the first symbol as it is, and what comes after the limit is cut off. -/
example :
    expected [9, 2] [.declare ⟨"a", "int", 0, none⟩, .declare ⟨"a", "bool", 0, none⟩, .lookup "a" 3,
      .declare ⟨"a", "int", 1, none⟩, .declare ⟨"b", "int", 0, none⟩] =
    [⟨"a", "int", 0, none⟩, ⟨"a", "int", 1, none⟩] := by
  decide

/-! ## What can be seen from a scope -/

/-- The declarations that matter to a scope: those into it and those into the global scope. -/
def visibleFrom (scope : Scope) (ops : List Op) : List Symbol :=
  (declarations ops).filter fun d => d.scope = scope ∨ d.scope = globalScope

/-- The symbol that a table holds under a key. -/
theorem Coherent.bind_index (h : Coherent t) (k : Symbol.Key) :
    (t.index[k]?.bind fun id => t.symbols[id]?) = t.symbols.toList.find? (·.key = k) := by
  cases hindex : t.index[k]? with
  | none =>
    have hnone : t.symbols.toList.find? (·.key = k) = none :=
      List.find?_eq_none.mpr fun s hs => by simpa using h.index_eq_none_iff.mp hindex s hs
    rw [hnone, Option.bind_none]
  | some id =>
    obtain ⟨s, hs, hkey⟩ := h.index_key_iff.mp hindex
    rw [Option.bind_some, ← Array.getElem?_toList, hs]
    cases hfind : t.symbols.toList.find? (·.key = k) with
    | none => simpa [hkey] using List.find?_eq_none.mp hfind s (List.mem_of_getElem? hs)
    | some s' =>
      -- The symbol found by a scan stands under its key in the index, so it has the same number.
      obtain ⟨id', hid'⟩ := List.getElem?_of_mem (List.mem_of_find?_eq_some hfind)
      have hkey' : s'.key = k := by simpa using List.find?_some hfind
      have hsame : some id = some id' := hindex.symm.trans (h.index_key_iff.mpr ⟨s', hid', hkey'⟩)
      cases hsame
      rw [← hs, hid']

/-- What a name stands for is the symbol under its key in the scope asked for,
or else in the global one. -/
theorem Coherent.bind_find? (h : Coherent t) (name : Text) (scope : Scope) :
    ((t.find? name scope).bind fun id => t.symbols[id]?) =
      (t.symbols.toList.find? (·.key = ⟨name, scope⟩) <|>
        t.symbols.toList.find? (·.key = ⟨name, globalScope⟩)) := by
  rw [find?, ← h.bind_index, ← h.bind_index]
  cases hindex : t.index[(⟨name, scope⟩ : Symbol.Key)]? with
  | none => rfl
  | some id =>
    obtain ⟨s, hs, -⟩ := h.index_key_iff.mp hindex
    rw [Array.getElem?_toList] at hs
    simp [hs]

/-- Without a limit, what a name stands for in a scope is a matter of the
declarations that matter to it. -/
theorem bind_find?_after (v : Verbosity) {limits : List Int64} (hlimits : ¬0 < limits.getLastD 0)
    (ops : List Op) (name : Text) (scope : Scope) :
    (((after v limits ops).find? name scope).bind fun id => (after v limits ops).symbols[id]?) =
      ((visibleFrom scope ops).find? (·.key = ⟨name, scope⟩) <|>
        (visibleFrom scope ops).find? (·.key = ⟨name, globalScope⟩)) := by
  have hvisible : ∀ other, other = scope ∨ other = globalScope →
      (visibleFrom scope ops).find? (·.key = ⟨name, other⟩) =
        (declarations ops).find? (·.key = ⟨name, other⟩) := by
    intro other hother
    rw [visibleFrom, List.find?_filter]
    congr 1
    funext d
    by_cases hd : d.key = ⟨name, other⟩
    · simp [hd, (Symbol.key_eq_iff.mp hd).2, hother]
    · simp [hd]
  have hcoherent : Coherent (after v limits ops) := (coherent_withLimits limits).run v ops
  rw [hcoherent.bind_find?, symbols_after, expected, upTo, if_neg hlimits, Symbol.find?_firsts,
    Symbol.find?_firsts, hvisible scope (.inl rfl), hvisible globalScope (.inr rfl)]

/-- A look-up that succeeds gives the number of the symbol that the name stands for. -/
theorem Coherent.lookup_eq_ok (h : Coherent t) {name : Text} {scope : Scope} {id : Nat}
    (hid : (t.lookup name scope).1 = .ok id) :
    ∃ s, t.symbol? id = some s ∧ ((t.find? name scope).bind fun id => t.symbols[id]?) = some s := by
  have hfind : t.find? name scope = some id := by
    rw [lookup] at hid
    cases hfind : t.find? name scope with
    | none =>
      rw [hfind] at hid
      cases hid
    | some found =>
      rw [hfind] at hid
      rw [Except.ok.inj hid]
  have hlt : id < t.symbols.size := by
    rcases (h.find?_eq_some_iff name scope id).mp hfind with hown | ⟨-, hglobal⟩
    · exact hown.lt_size
    · exact hglobal.lt_size
  have hget : t.symbols[id]? = some t.symbols[id] := Array.getElem?_eq_getElem hlt
  refine ⟨t.symbols[id], ?_, ?_⟩
  · rw [symbol?, if_pos (Int.natCast_nonneg _), Int.toNat_natCast, hget]
  · rw [hfind, Option.bind_some, hget]

/-- A look-up succeeds if the name stands for a symbol. -/
theorem exists_lookup_eq_ok {name : Text} {scope : Scope} {s : Symbol}
    (hs : ((t.find? name scope).bind fun id => t.symbols[id]?) = some s) :
    ∃ id, (t.lookup name scope).1 = .ok id := by
  obtain ⟨id, hfind, -⟩ := Option.bind_eq_some_iff.mp hs
  exact ⟨id, by rw [lookup, hfind]⟩

/-- Let two tables have no limit, and let the declarations into a scope and into the global scope
be the same among the operations on both, whatever else there is among them. Then a look-up from
the scope succeeds in the one table exactly if it does in the other, and the symbols found are the
same, if not their numbers. -/
theorem scopes_are_isolated (v v' : Verbosity) (limits limits' : List Int64) (ops ops' : List Op)
    (scope : Scope) (hlimits : ¬0 < limits.getLastD 0) (hlimits' : ¬0 < limits'.getLastD 0)
    (hvisible : visibleFrom scope ops = visibleFrom scope ops') (name : Text) :
    ((∃ id, ((after v limits ops).lookup name scope).1 = .ok id) ↔
      ∃ id, ((after v' limits' ops').lookup name scope).1 = .ok id) ∧
    ∀ id id', ((after v limits ops).lookup name scope).1 = .ok id →
      ((after v' limits' ops').lookup name scope).1 = .ok id' →
      ∃ s, (after v limits ops).symbol? id = some s ∧
        (after v' limits' ops').symbol? id' = some s := by
  have hfound := bind_find?_after v hlimits ops name scope
  rw [hvisible, ← bind_find?_after v' hlimits' ops' name scope] at hfound
  have hcoherent : Coherent (after v limits ops) := (coherent_withLimits limits).run v ops
  have hcoherent' : Coherent (after v' limits' ops') := (coherent_withLimits limits').run v' ops'
  refine ⟨⟨?_, ?_⟩, ?_⟩
  · rintro ⟨id, hid⟩
    obtain ⟨s, -, hs⟩ := hcoherent.lookup_eq_ok hid
    exact exists_lookup_eq_ok (hfound.symm.trans hs)
  · rintro ⟨id, hid⟩
    obtain ⟨s, -, hs⟩ := hcoherent'.lookup_eq_ok hid
    exact exists_lookup_eq_ok (hfound.trans hs)
  · intro id id' hid hid'
    obtain ⟨s, hsymbol, hs⟩ := hcoherent.lookup_eq_ok hid
    obtain ⟨s', hsymbol', hs'⟩ := hcoherent'.lookup_eq_ok hid'
    have hsame : some s = some s' := hs.symm.trans (hfound.trans hs')
    cases hsame
    exact ⟨s, hsymbol, hsymbol'⟩

/-- Declarations of one name in several scopes, twice in one of them, with a look-up between
them. -/
def crowdedOps : List Op :=
  [.declare ⟨"x", "int", 5, none⟩, .declare ⟨"x", "byte", 0, none⟩, .lookup "x" 7,
    .declare ⟨"x", "bool", 3, none⟩, .declare ⟨"x", "int", 3, none⟩, .declare ⟨"y", "int", 9, none⟩]

/-- The declarations among them that can be seen from scope 3. -/
def lonelyOps : List Op :=
  [.declare ⟨"x", "byte", 0, none⟩, .declare ⟨"x", "bool", 3, none⟩, .declare ⟨"x", "int", 3, none⟩]

/-- The name stands for the same symbol in both tables, under different numbers. -/
theorem crowded_scope_is_isolated :
    ((after 0 [] crowdedOps).lookup "x" 3).1 = .ok 2 ∧
    ((after 2 [7, -1] lonelyOps).lookup "x" 3).1 = .ok 1 ∧
    ∃ s, (after 0 [] crowdedOps).symbol? 2 = some s ∧
      (after 2 [7, -1] lonelyOps).symbol? 1 = some s := by
  have hcrowded : ((after 0 [] crowdedOps).lookup "x" 3).1 = .ok 2 := by decide +kernel
  have hlonely : ((after 2 [7, -1] lonelyOps).lookup "x" 3).1 = .ok 1 := by decide +kernel
  obtain ⟨-, hsymbols⟩ :=
    scopes_are_isolated 0 2 [] [7, -1] crowdedOps lonelyOps 3 (by decide) (by decide)
      (by decide) "x"
  exact ⟨hcrowded, hlonely, hsymbols 2 1 hcrowded hlonely⟩

end SymbolTable

end ThreeAddress
