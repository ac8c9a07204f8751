import ThreeAddress.Symbol.Table

/-!
# Tables are coherent

A table keeps its symbols, their marks and its index apart and reads one by numbers that it found in
another. In every table that operations lead to, the index and the symbols are inverse to each other
and there is a mark for every symbol, so no operation reads out of range. Main statements: a look-up
gives what a scan of the symbols would give, a symbol keeps its number, and a limit is never passed.
-/

namespace ThreeAddress.SymbolTable

/-- The table that operations lead to from an empty one with the given limits. -/
def after (v : Verbosity) (limits : List Int64) (ops : List Op) : SymbolTable :=
  (run v ops (withLimits limits)).2

/-- The symbol with a number has this name and this scope. -/
def Holds (t : SymbolTable) (id : Nat) (name : Text) (scope : Scope) : Prop :=
  ∃ s, t.symbols[id]? = some s ∧ s.name = name ∧ s.scope = scope

theorem Holds.lt_size {t : SymbolTable} {id : Nat} {name : Text} {scope : Scope}
    (h : t.Holds id name scope) : id < t.size := by
  obtain ⟨s, hs, -⟩ := h
  exact (Array.getElem?_eq_some_iff.mp hs).1

/-- The parts of a table agree with each other. -/
structure Coherent (t : SymbolTable) : Prop where
  /-- The index leads to the symbol with the key that was asked for, and to every symbol. -/
  index_iff : ∀ name scope id, t.index[(⟨name, scope⟩ : Symbol.Key)]? = some id ↔
    t.Holds id name scope
  /-- There is a mark for every symbol. -/
  size_used : t.used.size = t.symbols.size
  /-- The limit is kept. -/
  within : 0 < t.limit → (t.size : Int) ≤ t.limit.toInt

/-- What an operation can do to a table: nothing, add a symbol with a new key while there is room,
or mark the symbol that a name stands for. -/
theorem apply_cases (op : Op) (t : SymbolTable) :
    (op.apply t).2 = t ∨
    (∃ s, op = .declare s ∧ t.isFull = false ∧ t.index[s.key]? = none ∧
      op.apply t = (.id (.ok t.size), t.push s)) ∨
    ∃ name scope id, op = .lookup name scope ∧ t.find? name scope = some id ∧
      op.apply t = (.id (.ok id), t.mark id) := by
  cases op with
  | declare s =>
    cases hfull : t.isFull with
    | true => exact .inl (by simp [Op.apply, declare, hfull])
    | false =>
      cases hindex : t.index[s.key]? with
      | some id => exact .inl (by simp [Op.apply, declare, hfull, hindex])
      | none => exact .inr (.inl ⟨s, rfl, rfl, hindex, by simp [Op.apply, declare, hfull, hindex]⟩)
  | lookup name scope =>
    cases hfind : t.find? name scope with
    | none => exact .inl (by simp [Op.apply, lookup, hfind])
    | some id => exact .inr (.inr ⟨name, scope, id, rfl, hfind, by simp [Op.apply, lookup, hfind]⟩)
  | symbol id => exact .inl rfl
  | size => exact .inl rfl
  | symbols => exact .inl rfl
  | unused => exact .inl rfl
  | dump => exact .inl rfl

theorem coherent_withLimits (limits : List Int64) : Coherent (withLimits limits) := by
  refine ⟨?_, rfl, ?_⟩
  · intro name scope id
    simp [withLimits, Holds]
  · intro hpos
    have hlimit : (0 : Int) < (withLimits limits).limit.toInt := Int64.lt_iff_toInt_lt.mp hpos
    exact Int.le_of_lt hlimit

/-- A new symbol stands behind all others. -/
theorem holds_push (t : SymbolTable) (s : Symbol) (id : Nat) (name : Text) (scope : Scope) :
    (t.push s).Holds id name scope ↔
      (id = t.size ∧ s.name = name ∧ s.scope = scope) ∨ t.Holds id name scope := by
  have hget : (t.push s).symbols[id]? = if id = t.size then some s else t.symbols[id]? :=
    Array.getElem?_push
  by_cases hid : id = t.size
  · have hnone : ¬t.Holds id name scope := fun h => absurd h.lt_size (by omega)
    rw [if_pos hid] at hget
    have hlast : (t.push s).Holds id name scope ↔ s.name = name ∧ s.scope = scope := by
      simp only [Holds, hget, Option.some.injEq, exists_eq_left']
    rw [hlast, or_iff_left hnone, and_iff_right hid]
  · rw [if_neg hid] at hget
    simp only [Holds, hget, hid, false_and, false_or]

/-- A look-up in the index after a symbol was added. -/
theorem index_push (t : SymbolTable) (s : Symbol) (name : Text) (scope : Scope) :
    (t.push s).index[(⟨name, scope⟩ : Symbol.Key)]? =
      if s.name = name ∧ s.scope = scope then some t.size
      else t.index[(⟨name, scope⟩ : Symbol.Key)]? := by
  have hkey : s.key = ⟨name, scope⟩ ↔ s.name = name ∧ s.scope = scope :=
    Symbol.Key.mk.injEq .. ▸ Iff.rfl
  simp only [push, Std.TreeMap.getElem?_insert, Std.LawfulEqCmp.compare_eq_iff_eq, hkey]

namespace Coherent

variable {t : SymbolTable}

/-- A symbol with a new key can be added while there is room. -/
theorem push (h : Coherent t) {s : Symbol} (hroom : t.isFull = false)
    (hnew : t.index[s.key]? = none) :
    Coherent (t.push s) := by
  refine ⟨?_, ?_, ?_⟩
  · intro name scope id
    rw [index_push, holds_push]
    split
    · rename_i hkey
      have hfree : ¬t.Holds id name scope := by
        intro hid
        have hold := (h.index_iff name scope id).mpr hid
        rw [← hkey.1, ← hkey.2] at hold
        exact absurd (hold.symm.trans hnew) (by simp)
      simp only [Option.some.injEq, hkey, and_self, and_true, hfree, or_false, eq_comm]
    · rename_i hkey
      rw [h.index_iff]
      simp only [hkey, and_false, false_or]
  · simp only [SymbolTable.push, Array.size_push, h.size_used]
  · intro hpos
    have hsize : ((t.push s).size : Int) = t.size + 1 := by
      simp [SymbolTable.push, size]
    have hbelow : ¬t.limit.toInt ≤ t.size := by
      intro hle
      have hfull : t.isFull = true := by
        simpa only [isFull, decide_eq_true_eq] using ⟨hpos, hle⟩
      rw [hfull] at hroom
      cases hroom
    rw [hsize]
    change _ ≤ t.limit.toInt
    omega

/-- Marks can be set. -/
theorem mark (h : Coherent t) (id : Nat) : Coherent (t.mark id) :=
  ⟨h.index_iff,
    by simpa only [SymbolTable.mark, Array.size_setIfInBounds] using h.size_used, h.within⟩

/-- Every operation keeps a table coherent. -/
theorem apply (h : Coherent t) (op : Op) : Coherent (op.apply t).2 := by
  obtain hsame | ⟨s, -, hroom, hnew, happly⟩ | ⟨name, scope, id, -, -, happly⟩ := apply_cases op t
  · rw [hsame]
    exact h
  · rw [happly]
    exact h.push hroom hnew
  · rw [happly]
    exact h.mark id

/-- Every run keeps a table coherent. -/
theorem run (h : Coherent t) (v : Verbosity) (ops : List Op) :
    Coherent (SymbolTable.run v ops t).2 := by
  induction ops generalizing t with
  | nil => exact h
  | cons op rest ih => exact ih (h.apply op)

/-- What a name stands for: the symbol in the scope asked for, or else the one in the global
scope. -/
theorem find?_eq_some_iff (h : Coherent t) (name : Text) (scope : Scope) (id : Nat) :
    t.find? name scope = some id ↔
      t.Holds id name scope ∨
        (∀ other, ¬t.Holds other name scope) ∧ t.Holds id name globalScope := by
  rw [find?]
  cases hown : t.index[(⟨name, scope⟩ : Symbol.Key)]? with
  | some own =>
    have hholds := (h.index_iff name scope own).mp hown
    have hiff := h.index_iff name scope id
    rw [hown] at hiff
    constructor
    · intro heq
      exact .inl (hiff.mp heq)
    · rintro (hid | ⟨hnone, -⟩)
      · exact hiff.mpr hid
      · exact absurd hholds (hnone own)
  | none =>
    have hnone : ∀ other, ¬t.Holds other name scope := by
      intro other hother
      rw [(h.index_iff name scope other).mpr hother] at hown
      cases hown
    have hiff := h.index_iff name globalScope id
    constructor
    · intro heq
      exact .inr ⟨hnone, hiff.mp heq⟩
    · rintro (hid | ⟨-, hid⟩)
      · exact absurd hid (hnone id)
      · exact hiff.mpr hid

/-- A name stands for nothing when it is neither in the scope asked for nor in the global scope. -/
theorem find?_eq_none_iff (h : Coherent t) (name : Text) (scope : Scope) :
    t.find? name scope = none ↔ ∀ id, ¬t.Holds id name scope ∧ ¬t.Holds id name globalScope := by
  constructor
  · intro hfind id
    have hmiss : ∀ other, ¬t.Holds other name scope := by
      intro other hother
      rw [(h.find?_eq_some_iff name scope other).mpr (.inl hother)] at hfind
      cases hfind
    refine ⟨hmiss id, fun hglobal => ?_⟩
    rw [(h.find?_eq_some_iff name scope id).mpr (.inr ⟨hmiss, hglobal⟩)] at hfind
    cases hfind
  · intro hmiss
    rw [Option.eq_none_iff_forall_ne_some]
    intro id hid
    rcases (h.find?_eq_some_iff name scope id).mp hid with hown | ⟨-, hglobal⟩
    · exact (hmiss id).1 hown
    · exact (hmiss id).2 hglobal

end Coherent

/-- A symbol keeps its number through every operation. -/
theorem getElem?_symbols_apply {t : SymbolTable} {id : Nat} {s : Symbol}
    (h : t.symbols[id]? = some s) (op : Op) : (op.apply t).2.symbols[id]? = some s := by
  obtain hsame | ⟨new, -, -, -, happly⟩ | ⟨name, scope, other, -, -, happly⟩ := apply_cases op t
  · rw [hsame]
    exact h
  · have hlt : id < t.symbols.size := (Array.getElem?_eq_some_iff.mp h).1
    have hpush : (t.push new).symbols[id]? =
        if id = t.symbols.size then some new else t.symbols[id]? := Array.getElem?_push
    rw [happly, hpush, if_neg (by omega)]
    exact h
  · rw [happly]
    exact h

/-- A symbol keeps its number through every run. -/
theorem getElem?_symbols_run {t : SymbolTable} {id : Nat} {s : Symbol} (h : t.symbols[id]? = some s)
    (v : Verbosity) (ops : List Op) : (run v ops t).2.symbols[id]? = some s := by
  induction ops generalizing t with
  | nil => exact h
  | cons op rest ih => exact ih (getElem?_symbols_apply h op)

/-- A declaration that succeeds gives the next number and adds the symbol. -/
theorem declare_eq_ok {t : SymbolTable} {s : Symbol} {id : Nat} (h : (t.declare s).1 = .ok id) :
    id = t.size ∧ (t.declare s).2 = t.push s := by
  cases hfull : t.isFull with
  | true => simp [declare, hfull] at h
  | false =>
    cases hindex : t.index[s.key]? with
    | some prev => simp [declare, hfull, hindex] at h
    | none =>
      have hid : t.size = id := by simpa [declare, hfull, hindex] using h
      exact ⟨hid.symm, by simp [declare, hfull, hindex]⟩

/-- A declaration that fails leaves the table as it is. -/
theorem declare_eq_error {t : SymbolTable} {s : Symbol} {e : SymbolError}
    (h : (t.declare s).1 = .error e) : (t.declare s).2 = t := by
  cases hfull : t.isFull with
  | true => simp [declare, hfull]
  | false =>
    cases hindex : t.index[s.key]? with
    | some prev => simp [declare, hfull, hindex]
    | none => simp [declare, hfull, hindex] at h

theorem limit_run (v : Verbosity) (ops : List Op) (t : SymbolTable) :
    (run v ops t).2.limit = t.limit := by
  induction ops generalizing t with
  | nil => rfl
  | cons op rest ih =>
    have hlimit : (op.apply t).2.limit = t.limit := by
      obtain hsame | ⟨s, -, -, -, happly⟩ | ⟨name, scope, id, -, -, happly⟩ := apply_cases op t
      · rw [hsame]
      · rw [happly]
        rfl
      · rw [happly]
        rfl
    exact (ih _).trans hlimit

/-! ## Ways to fail -/

section Failing

variable {t : SymbolTable} {s : Symbol}

theorem declare_of_isFull (h : t.isFull = true) (s : Symbol) :
    t.declare s = (.error (.capacity t.limit), t) := by
  rw [declare, if_pos h]

/-- A declaration fails because the table is full, or else because of the symbol with its key. -/
theorem declare_error_cases {e : SymbolError} (h : (t.declare s).1 = .error e) :
    (e = .capacity t.limit ∧ t.isFull = true) ∨
      ∃ id, t.index[s.key]? = some id ∧
        e = .redeclaration s.name s.scope s.pos (t.symbols.getD id {}) := by
  cases hfull : t.isFull with
  | true =>
    rw [declare_of_isFull hfull] at h
    exact .inl ⟨(Except.error.inj h).symm, rfl⟩
  | false =>
    cases hindex : t.index[s.key]? with
    | some id =>
      have he : SymbolError.redeclaration s.name s.scope s.pos (t.symbols.getD id {}) = e := by
        simpa [declare, hfull, hindex] using h
      exact .inr ⟨id, rfl, he.symm⟩
    | none => simp [declare, hfull, hindex] at h

/-- A redeclaration tells the symbol that has the name in the scope. -/
theorem Coherent.redeclaration_tells (h : Coherent t) {name : Text} {scope : Scope}
    {pos : Option Position} {prev : Symbol}
    (herror : (t.declare s).1 = .error (.redeclaration name scope pos prev)) :
    pos = s.pos ∧ prev.name = name ∧ prev.scope = scope ∧
    ∃ id : Nat, t.symbols[id]? = some prev := by
  rcases declare_error_cases herror with ⟨he, -⟩ | ⟨id, hindex, he⟩
  · cases he
  · cases he
    obtain ⟨found, hfound, hname, hscope⟩ := (h.index_iff s.name s.scope id).mp hindex
    have hprev : t.symbols.getD id {} = found := by
      rw [Array.getD_eq_getD_getElem?, hfound, Option.getD_some]
    rw [hprev]
    exact ⟨rfl, hname, hscope, id, hfound⟩

/-- A full table holds exactly as many symbols as it may. -/
theorem Coherent.isFull_iff (h : Coherent t) :
    t.isFull = true ↔ 0 < t.limit ∧ (t.size : Int) = t.limit.toInt := by
  have hdef : t.isFull = true ↔ 0 < t.limit ∧ t.limit.toInt ≤ t.size := by
    simp only [isFull, decide_eq_true_eq]
  rw [hdef]
  constructor
  · rintro ⟨hpos, hle⟩
    have hwithin := h.within hpos
    exact ⟨hpos, by omega⟩
  · rintro ⟨hpos, heq⟩
    exact ⟨hpos, by omega⟩

end Failing

/-! ## Accesses by number

The same operations once more, with every access by number able to fail. -/

/-- The symbols without a mark, from the marks of those numbered from `id` on. -/
def unusedFrom? (t : SymbolTable) : (id : Nat) → List Bool → Option (List Symbol)
  | _, [] => some []
  | id, true :: rest => unusedFrom? t (id + 1) rest
  | id, false :: rest => do
    let s ← t.symbols[id]?
    let later ← unusedFrom? t (id + 1) rest
    return s :: later

/-- The lines of a dump for the symbols numbered from `id` on. -/
def dumpFrom? (t : SymbolTable) : (id : Nat) → List Symbol → Option Text
  | _, [] => some []
  | id, s :: rest => do
    let used ← t.used[id]?
    let later ← dumpFrom? t (id + 1) rest
    return dumpLine id s used ++ later

/-- The answer to an operation and the table after it, unless an access by number is out of
range. -/
def Op.applyChecked : Op → SymbolTable → Option (Answer × SymbolTable)
  | declare s, t =>
    if t.isFull then some (.id (.error (.capacity t.limit)), t)
    else match t.index[s.key]? with
      | some id => do
        let prev ← t.symbols[id]?
        return (.id (.error (.redeclaration s.name s.scope s.pos prev)), t)
      | none => some (.id (.ok t.size), t.push s)
  | lookup name scope, t =>
    match t.find? name scope with
    | some id => if id < t.used.size then some (.id (.ok id), t.mark id) else none
    | none => some (.id (.error (.notFound name scope)), t)
  | symbol id, t => some (.symbol (t.symbol? id), t)
  | size, t => some (.size t.size, t)
  | symbols, t => some (.symbols t.symbols.toList, t)
  | unused, t => (t.unusedFrom? 0 t.used.toList).map fun all => (.symbols all, t)
  | dump, t => (t.dumpFrom? 0 t.symbols.toList).map fun lines => (.text (lines ++ "\x7d\n"), t)

theorem unusedFrom?_eq (t : SymbolTable) (id : Nat) (marks : List Bool) (all : List Symbol)
    (hall : t.symbols.toList.drop id = all) (hlength : marks.length = all.length) :
    t.unusedFrom? id marks = some (((all.zip marks).filter fun e => !e.2).map Prod.fst) := by
  induction marks generalizing id all with
  | nil => simp [unusedFrom?]
  | cons used rest ih =>
    obtain ⟨s, later, rfl⟩ : ∃ s later, all = s :: later :=
      List.exists_cons_of_length_eq_add_one hlength.symm
    have hget : t.symbols[id]? = some s := by
      rw [← Array.getElem?_toList, ← List.head?_drop, hall]
      rfl
    have hdrop : t.symbols.toList.drop (id + 1) = later := by
      rw [← List.tail_drop, hall]
      rfl
    have hrest := ih (id + 1) later hdrop (by simpa using hlength)
    cases used with
    | true => simpa [unusedFrom?] using hrest
    | false => simp [unusedFrom?, hget, hrest]

theorem dumpFrom?_eq (t : SymbolTable) (id : Nat) (all : List Symbol) (marks : List Bool)
    (hmarks : t.used.toList.drop id = marks) (hlength : marks.length = all.length) :
    t.dumpFrom? id all = some (dumpFrom id (all.zip marks)) := by
  induction all generalizing id marks with
  | nil => simp [dumpFrom?, dumpFrom]
  | cons s rest ih =>
    obtain ⟨used, later, rfl⟩ : ∃ used later, marks = used :: later :=
      List.exists_cons_of_length_eq_add_one hlength
    have hget : t.used[id]? = some used := by
      rw [← Array.getElem?_toList, ← List.head?_drop, hmarks]
      rfl
    have hdrop : t.used.toList.drop (id + 1) = later := by
      rw [← List.tail_drop, hmarks]
      rfl
    have hrest := ih (id + 1) later hdrop (by simpa using hlength)
    simp [dumpFrom?, dumpFrom, hget, hrest]

/-- No operation on a coherent table reads or writes out of range. -/
theorem Coherent.applyChecked_eq {t : SymbolTable} (h : Coherent t) (op : Op) :
    op.applyChecked t = some (op.apply t) := by
  cases op with
  | declare s =>
    cases hfull : t.isFull with
    | true => simp [Op.applyChecked, Op.apply, declare, hfull]
    | false =>
      cases hindex : t.index[s.key]? with
      | none => simp [Op.applyChecked, Op.apply, declare, hfull, hindex]
      | some id =>
        obtain ⟨prev, hprev, -⟩ := (h.index_iff s.name s.scope id).mp hindex
        simp [Op.applyChecked, Op.apply, declare, hfull, hindex, hprev]
  | lookup name scope =>
    cases hfind : t.find? name scope with
    | none => simp [Op.applyChecked, Op.apply, lookup, hfind]
    | some id =>
      have hlt : id < t.used.size := by
        rw [h.size_used]
        rcases (h.find?_eq_some_iff name scope id).mp hfind with hown | ⟨-, hglobal⟩
        · exact hown.lt_size
        · exact hglobal.lt_size
      simp [Op.applyChecked, Op.apply, lookup, hfind, hlt]
  | symbol id => rfl
  | size => rfl
  | symbols => rfl
  | unused =>
    have hall := unusedFrom?_eq t 0 t.used.toList t.symbols.toList rfl (by simpa using h.size_used)
    simp [Op.applyChecked, Op.apply, hall, SymbolTable.unused, entries]
  | dump =>
    have hlines := dumpFrom?_eq t 0 t.symbols.toList t.used.toList rfl (by simpa using h.size_used)
    simp [Op.applyChecked, Op.apply, hlines, SymbolTable.dump, entries]

/-! ## Main statements -/

/-- In every table that operations lead to: a look-up gives a number exactly if the symbol with that
number has the name in the scope asked for, or no symbol has and this one has the name in the global
scope; it fails exactly if there is no such symbol, and the failure tells the scope asked for. A
symbol that was declared is found under its number at once and after every later run. -/
theorem lookup_agrees_with_scan (v : Verbosity) (limits : List Int64) (ops : List Op) :
    (∀ name scope id, ((after v limits ops).lookup name scope).1 = .ok id ↔
      (after v limits ops).Holds id name scope ∨
        (∀ other, ¬(after v limits ops).Holds other name scope) ∧
          (after v limits ops).Holds id name globalScope) ∧
    (∀ name scope e, ((after v limits ops).lookup name scope).1 = .error e ↔
      e = .notFound name scope ∧ ∀ id, ¬(after v limits ops).Holds id name scope ∧
        ¬(after v limits ops).Holds id name globalScope) ∧
    ∀ s id, ((after v limits ops).declare s).1 = .ok id →
      ∀ later, (run v later ((after v limits ops).declare s).2).2.symbol? id = some s := by
  have h : Coherent (after v limits ops) := (coherent_withLimits limits).run v ops
  generalize after v limits ops = t at h ⊢
  refine ⟨?_, ?_, ?_⟩
  · intro name scope id
    rw [← h.find?_eq_some_iff, lookup]
    cases t.find? name scope <;> simp
  · intro name scope e
    rw [← h.find?_eq_none_iff, lookup]
    cases t.find? name scope <;> simp [eq_comm]
  · intro s id hdeclare later
    obtain ⟨rfl, htable⟩ := declare_eq_ok hdeclare
    have hlast : (t.push s).symbols[t.size]? = some s := Array.getElem?_push_size
    have hkept := getElem?_symbols_run hlast v later
    rw [htable, symbol?, if_pos (Int.natCast_nonneg _), Int.toNat_natCast]
    exact hkept

/-- In every table that operations lead to: the index and the symbols are inverse to each
other, so no two symbols share name and scope; there is a mark for every symbol, and no
operation reads or writes out of range; and if the last limit given is positive, there are
no more symbols than that. -/
theorem tables_stay_coherent (v : Verbosity) (limits : List Int64) (ops : List Op) :
    (∀ name scope id, (after v limits ops).index[(⟨name, scope⟩ : Symbol.Key)]? = some id ↔
      ∃ s, (after v limits ops).symbols[id]? = some s ∧ s.name = name ∧ s.scope = scope) ∧
    (∀ (i j : Nat) (s s' : Symbol), (after v limits ops).symbols[i]? = some s →
      (after v limits ops).symbols[j]? = some s' → s.name = s'.name → s.scope = s'.scope → i = j) ∧
    (after v limits ops).used.size = (after v limits ops).symbols.size ∧
    (∀ op, Op.applyChecked op (after v limits ops) = some (op.apply (after v limits ops))) ∧
    ∀ n, limits.getLast? = some n → 0 < n → ((after v limits ops).size : Int) ≤ n.toInt := by
  have h : Coherent (after v limits ops) := (coherent_withLimits limits).run v ops
  refine ⟨h.index_iff, ?_, h.size_used, h.applyChecked_eq, ?_⟩
  · intro i j s s' hi hj hname hscope
    have hfirst := (h.index_iff s.name s.scope i).mpr ⟨s, hi, rfl, rfl⟩
    have hsecond := (h.index_iff s.name s.scope j).mpr ⟨s', hj, hname.symm, hscope.symm⟩
    exact Option.some.inj (hfirst.symm.trans hsecond)
  · intro n hlast hpos
    have hlimit : (after v limits ops).limit = n := by
      rw [after, limit_run, withLimits, List.getLastD_eq_getLast?, hlast, Option.getD_some]
    rw [← hlimit]
    exact h.within (by rwa [hlimit])

end ThreeAddress.SymbolTable
