import ThreeAddress.Proofs.Names

/-!
# Runs of a name supply

A run takes names of both categories in any order, and now and then starts both counters again; a
request that fails does not end it. From one reset to the next a counter moves up by one with each
name and stays at the largest word once it is there. So the names of a category in such a stretch
are numbered one after another, and how many there are depends on the number of requests alone. Main
statement: no name occurs twice between two resets, the two categories do not disturb each other,
and a category that is used up stays so until the next reset.
-/

namespace ThreeAddress

namespace NameSupply

/-- Whether an operation sets the counters to numbers of its own. -/
def Op.setsCounters : Op → Bool
  | set .. => true
  | _ => false

/-- Whether an operation lets the counters go on from where they are. -/
def Op.goesOn : Op → Bool
  | fresh _ | get => true
  | reset | set .. => false

/-- Whether an operation can matter to a category: a request for a name of it, and
all that sets its counter. -/
def Op.concerns (c : Category) : Op → Bool
  | fresh d => d = c
  | get => false
  | reset | set .. => true

theorem Op.goesOn_of_ne_reset {op : Op} (h : op.setsCounters = false) (hne : op ≠ .reset) :
    op.goesOn = true := by
  cases op with
  | fresh c => rfl
  | reset => exact absurd rfl hne
  | set temps labels => cases h
  | get => rfl

/-- The name that a step gave. -/
def Step.name? (step : Step) : Option Text :=
  match step.result with
  | .ok name => name
  | .error _ => none

/-! ## Histories -/

/-- The operations of a run, each with what it showed. -/
def history (ops : List Op) (s : NameSupply) : List (Op × Step) := ops.zip (run ops s)

/-- The supply at the end of a history that began with `s`. -/
def reached (s : NameSupply) (past : List (Op × Step)) : NameSupply :=
  (past.getLast?.map fun x => x.2.after).getD s

/-- The name of a category that an operation gave. -/
def nameIn? (c : Category) (x : Op × Step) : Option Text :=
  if x.1 = .fresh c then x.2.name? else none

/-- The operations of a run that can matter to a category, each with its result. -/
def answers (c : Category) (ops : List Op) (s : NameSupply) :
    List (Op × Except Overflow (Option Text)) :=
  ((history ops s).filter fun x => x.1.concerns c).map fun x => (x.1, x.2.result)

theorem length_run (ops : List Op) (s : NameSupply) : (run ops s).length = ops.length := by
  induction ops generalizing s with
  | nil => rfl
  | cons op ops ih => exact congrArg Nat.succ (ih _)

theorem map_fst_history (ops : List Op) (s : NameSupply) : (history ops s).map Prod.fst = ops := by
  rw [history, List.map_fst_zip (Nat.le_of_eq (length_run ops s).symm)]

theorem history_cons (op : Op) (ops : List Op) (s : NameSupply) :
    history (op :: ops) s =
      (op, ⟨(op.apply s).1, (op.apply s).2⟩) :: history ops (op.apply s).2 := rfl

theorem reached_cons (s : NameSupply) (x : Op × Step) (past : List (Op × Step)) :
    reached s (x :: past) = reached x.2.after past := by
  cases past with
  | nil => rfl
  | cons y past =>
    rw [reached, reached, List.getLast?_cons_cons, List.getLast?_cons, Option.map_some,
      Option.getD_some, Option.getD_some]

/-- A history that is cut in two is two histories, of which the second
begins where the first ended. -/
theorem history_eq_append {ops : List Op} {s : NameSupply} {past future : List (Op × Step)}
    (h : history ops s = past ++ future) :
    ∃ done todo, ops = done ++ todo ∧ past = history done s ∧
      future = history todo (reached s past) := by
  induction past generalizing ops s with
  | nil => exact ⟨[], ops, rfl, rfl, h.symm⟩
  | cons x past ih =>
    cases ops with
    | nil => cases h
    | cons op ops =>
      rw [history_cons, List.cons_append, List.cons.injEq] at h
      obtain ⟨rfl, hrest⟩ := h
      obtain ⟨done, todo, rfl, hpast, hfuture⟩ := ih hrest
      refine ⟨op :: done, todo, rfl, ?_, ?_⟩
      · rw [history_cons, ← hpast]
      · rw [reached_cons]
        exact hfuture

/-- An operation in a history shows what it does to the supply reached before it. -/
theorem history_eq_append_cons {ops : List Op} {s : NameSupply}
    {past future : List (Op × Step)} {op : Op} {step : Step}
    (h : history ops s = past ++ (op, step) :: future) :
    ∃ done todo, ops = done ++ op :: todo ∧
      step = ⟨(op.apply (reached s past)).1, (op.apply (reached s past)).2⟩ ∧
      future = history todo step.after := by
  obtain ⟨done, todo, hops, -, hfuture⟩ := history_eq_append h
  cases todo with
  | nil => cases hfuture
  | cons op' todo =>
    rw [history_cons, List.cons.injEq, Prod.mk.injEq] at hfuture
    obtain ⟨⟨rfl, rfl⟩, hrest⟩ := hfuture
    exact ⟨done, todo, hops, rfl, hrest⟩

/-! ## One operation -/

theorem apply_fresh_of_eq_top {c : Category} {s : NameSupply} (h : s.number c = top) :
    (Op.fresh c).apply s = (.error ⟨c⟩, s) := by
  rw [Op.apply, fresh_of_eq_top h]
  rfl

theorem apply_fresh_of_ne_top {c : Category} {s : NameSupply} (h : s.number c ≠ top) :
    (Op.fresh c).apply s = (.ok (some (c.named (s.number c))), s.advance c) := by
  rw [Op.apply, fresh_of_ne_top h]
  rfl

/-- What does not concern a category leaves its counter alone. -/
theorem counter_apply_of_not_concerns {op : Op} {c : Category} (h : op.concerns c = false)
    (s : NameSupply) : (op.apply s).2.counter c = s.counter c := by
  cases op with
  | reset => cases h
  | set temps labels => cases h
  | get => rfl
  | fresh d =>
    have hdc : d ≠ c := of_decide_eq_false h
    by_cases htop : s.number d = top
    · rw [apply_fresh_of_eq_top htop]
    · rw [apply_fresh_of_ne_top htop]
      refine Int64.toInt_inj.mp ?_
      have hadvance := number_advance htop c
      rw [if_neg (Ne.symm hdc)] at hadvance
      exact hadvance

/-- A request moves the counter of its category up by one, unless it is at the largest word. -/
theorem number_apply_fresh (c : Category) (s : NameSupply) :
    ((Op.fresh c).apply s).2.number c = min top (s.number c + 1) := by
  have hle : s.number c ≤ top := toInt_le_top _
  by_cases htop : s.number c = top
  · rw [apply_fresh_of_eq_top htop, htop]
    omega
  · rw [apply_fresh_of_ne_top htop, number_advance_self htop]
    omega

/-- Without a reset other operations leave a counter alone. -/
theorem number_apply_of_ne {op : Op} {c : Category} (h : op.goesOn = true) (hne : op ≠ .fresh c)
    (s : NameSupply) : (op.apply s).2.number c = s.number c := by
  have hconcerns : op.concerns c = false := by
    cases op with
    | fresh d => exact decide_eq_false fun hd => hne (congrArg Op.fresh hd)
    | get => rfl
    | reset => cases h
    | set temps labels => cases h
  exact congrArg Int64.toInt (counter_apply_of_not_concerns hconcerns s)

/-- Without a reset counters do not go down. -/
theorem number_le_apply {op : Op} (h : op.goesOn = true) (c : Category) (s : NameSupply) :
    s.number c ≤ (op.apply s).2.number c := by
  by_cases hop : op = .fresh c
  · have hle : s.number c ≤ top := toInt_le_top _
    rw [hop, number_apply_fresh]
    omega
  · exact Int.le_of_eq (number_apply_of_ne h hop s).symm

/-- The name of a category that an operation gives, if any, has the number
by which the counter moves. -/
theorem nameIn?_apply {op : Op} (h : op.goesOn = true) (c : Category) (s : NameSupply) :
    (nameIn? c (op, ⟨(op.apply s).1, (op.apply s).2⟩)).toList =
      c.names (s.number c) ((op.apply s).2.number c) := by
  by_cases hop : op = .fresh c
  · subst hop
    rw [nameIn?, if_pos rfl]
    by_cases htop : s.number c = top
    · rw [apply_fresh_of_eq_top htop, Category.names_self]
      rfl
    · rw [apply_fresh_of_ne_top htop, number_advance_self htop, Category.names_succ]
      rfl
  · rw [nameIn?, if_neg hop, number_apply_of_ne h hop, Category.names_self]
    rfl

/-- A name that an operation gives is that of one of the categories. -/
theorem name?_apply {op : Op} {s : NameSupply} {name : Text}
    (h : Step.name? ⟨(op.apply s).1, (op.apply s).2⟩ = some name) : ∃ c, op = .fresh c := by
  cases op with
  | fresh c => exact ⟨c, rfl⟩
  | reset => cases h
  | set temps labels => cases h
  | get => cases h

/-- Counters do not become negative, unless they are set so. -/
theorem number_apply_nonneg {op : Op} (h : op.setsCounters = false) {s : NameSupply}
    (hs : ∀ c, 0 ≤ s.number c) (c : Category) : 0 ≤ (op.apply s).2.number c := by
  by_cases hreset : op = .reset
  · subst hreset
    have hzero : (Op.reset.apply s).2.number c = 0 := by cases c <;> rfl
    exact Int.le_of_eq hzero.symm
  · exact Int.le_trans (hs c) (number_le_apply (Op.goesOn_of_ne_reset h hreset) c s)

/-- What concerns a category gives the same whatever the other counter is. -/
theorem apply_of_concerns {op : Op} {c : Category} (h : op.concerns c = true) {s s' : NameSupply}
    (hs : s.counter c = s'.counter c) :
    (op.apply s).1 = (op.apply s').1 ∧ (op.apply s).2.counter c = (op.apply s').2.counter c := by
  cases op with
  | reset => exact ⟨rfl, rfl⟩
  | set temps labels => exact ⟨rfl, rfl⟩
  | get => cases h
  | fresh d =>
    obtain rfl : d = c := of_decide_eq_true h
    have hnumber : s.number d = s'.number d := congrArg Int64.toInt hs
    by_cases htop : s.number d = top
    · rw [apply_fresh_of_eq_top htop, apply_fresh_of_eq_top (hnumber ▸ htop)]
      exact ⟨rfl, hs⟩
    · rw [apply_fresh_of_ne_top htop, apply_fresh_of_ne_top (hnumber ▸ htop), hnumber]
      refine ⟨rfl, Int64.toInt_inj.mp ?_⟩
      have hadvance := number_advance_self htop
      rw [hnumber, ← number_advance_self (hnumber ▸ htop)] at hadvance
      exact hadvance

/-! ## Stretches without a reset -/

/-- The counter at the end of a stretch: it moved up with each request, but
not beyond the largest word. -/
theorem number_reached {ops : List Op} (h : ∀ op ∈ ops, op.goesOn = true) (c : Category)
    (s : NameSupply) :
    (reached s (history ops s)).number c = min top (s.number c + ops.count (.fresh c)) := by
  induction ops generalizing s with
  | nil =>
    have hle : s.number c ≤ top := toInt_le_top _
    change s.number c = min top (s.number c + 0)
    omega
  | cons op ops ih =>
    obtain ⟨hop, hrest⟩ := List.forall_mem_cons.mp h
    rw [history_cons, reached_cons, ih hrest]
    by_cases hfresh : op = .fresh c
    · rw [hfresh, number_apply_fresh, List.count_cons_self]
      omega
    · rw [number_apply_of_ne hop hfresh, List.count_cons_of_ne hfresh]

/-- The names of a category in a stretch are those from the counter before to the counter after. -/
theorem filterMap_nameIn? {ops : List Op} (h : ∀ op ∈ ops, op.goesOn = true) (c : Category)
    (s : NameSupply) :
    (history ops s).filterMap (nameIn? c) =
      c.names (s.number c) ((reached s (history ops s)).number c) := by
  induction ops generalizing s with
  | nil => exact (c.names_self _).symm
  | cons op ops ih =>
    obtain ⟨hop, hrest⟩ := List.forall_mem_cons.mp h
    have hlater : (op.apply s).2.number c ≤
        (reached (op.apply s).2 (history ops (op.apply s).2)).number c := by
      have hle : (op.apply s).2.number c ≤ top := toInt_le_top _
      rw [number_reached hrest]
      omega
    have hnames := ih hrest (op.apply s).2
    rw [List.filterMap_eq_flatMap_toList] at hnames ⊢
    rw [history_cons, List.flatMap_cons, reached_cons, nameIn?_apply hop, hnames,
      c.names_append (number_le_apply hop c s) hlater]

/-- A name in a stretch has a number that its category had not given before. -/
theorem exists_named_of_mem {ops : List Op} (h : ∀ op ∈ ops, op.goesOn = true) {s : NameSupply}
    {name : Text} (hname : name ∈ (history ops s).filterMap fun x => x.2.name?) :
    ∃ c k, s.number c ≤ k ∧ name = Category.named c k := by
  obtain ⟨⟨op, step⟩, hmem, hgiven⟩ := List.mem_filterMap.mp hname
  obtain ⟨past, future, hcut⟩ := List.append_of_mem hmem
  obtain ⟨-, -, -, hstep, -⟩ := history_eq_append_cons hcut
  obtain ⟨c, rfl⟩ := name?_apply (by rw [← hstep]; exact hgiven)
  have hin : name ∈ (history ops s).filterMap (nameIn? c) :=
    List.mem_filterMap.mpr ⟨_, hmem, by rw [nameIn?, if_pos rfl]; exact hgiven⟩
  rw [filterMap_nameIn? h] at hin
  obtain ⟨k, hk, -, rfl⟩ := Category.mem_names.mp hin
  exact ⟨c, k, hk, rfl⟩

/-- No name occurs twice in a stretch, also not in different categories. -/
theorem nodup_filterMap_name? {ops : List Op} (h : ∀ op ∈ ops, op.goesOn = true) (s : NameSupply) :
    ((history ops s).filterMap fun x => x.2.name?).Nodup := by
  induction ops generalizing s with
  | nil => exact List.nodup_nil
  | cons op ops ih =>
    obtain ⟨hop, hrest⟩ := List.forall_mem_cons.mp h
    rw [history_cons, List.filterMap_cons]
    split
    · exact ih hrest _
    · next name hgiven =>
      refine List.nodup_cons.mpr ⟨fun hmem => ?_, ih hrest _⟩
      obtain ⟨c, rfl⟩ := name?_apply hgiven
      obtain ⟨d, k, hk, hname⟩ := exists_named_of_mem hrest hmem
      -- The counter has moved beyond the number of the first name.
      by_cases htop : s.number c = top
      · rw [apply_fresh_of_eq_top htop] at hgiven
        cases hgiven
      · rw [apply_fresh_of_ne_top htop] at hgiven hk
        have hfirst : c.named (s.number c) = name := Option.some.inj hgiven
        obtain ⟨rfl, hnumber⟩ := Category.named_inj (hfirst.trans hname)
        rw [number_advance_self htop] at hk
        omega

/-- A part of a run without a reset that begins with the supply `start`: at the beginning of the
run or right after a reset. -/
structure Stretch (ops : List Op) (s start : NameSupply) (part : List (Op × Step)) : Prop where
  plain : ∀ x ∈ part, x.1 ≠ .reset
  begins : start = s ∧ part <+: history ops s ∨
    start = {} ∧ ∃ step, (.reset, step) :: part <:+: history ops s

/-- Where no counter is set and none is started again, counters go on. -/
theorem goesOn_of_plain {ops : List Op} (hops : ∀ op ∈ ops, op.setsCounters = false)
    {s : NameSupply} (h : ∀ x ∈ history ops s, x.1 ≠ .reset) : ∀ op ∈ ops, op.goesOn = true := by
  intro op hop
  refine Op.goesOn_of_ne_reset (hops op hop) ?_
  rw [← map_fst_history ops s] at hop
  obtain ⟨x, hx, rfl⟩ := List.mem_map.mp hop
  exact h x hx

/-- A stretch is a history of its own. -/
theorem Stretch.eq_history {ops : List Op} {s start : NameSupply} {part : List (Op × Step)}
    (h : Stretch ops s start part) (hops : ∀ op ∈ ops, op.setsCounters = false) :
    ∃ taken, part = history taken start ∧ ∀ op ∈ taken, op.goesOn = true := by
  have hcut : ∃ rest future, history rest start = part ++ future ∧
      ∀ op ∈ rest, op.setsCounters = false := by
    obtain ⟨rfl, future, hpart⟩ | ⟨rfl, step, past, future, hpart⟩ := h.begins
    · exact ⟨ops, future, hpart.symm, hops⟩
    · rw [List.append_assoc, List.cons_append] at hpart
      obtain ⟨done, todo, rfl, rfl, hrest⟩ := history_eq_append_cons hpart.symm
      exact ⟨todo, future, hrest.symm, fun op hop => hops op (by simp [hop])⟩
  obtain ⟨rest, future, hhistory, hrest⟩ := hcut
  obtain ⟨taken, todo, rfl, rfl, -⟩ := history_eq_append hhistory
  exact ⟨taken, rfl, goesOn_of_plain (fun op hop => hrest op (by simp [hop])) h.plain⟩

/-- The names of a category in a stretch: from the counter at its beginning on, as many as were
asked for and as there are up to the largest word. -/
theorem Stretch.names_eq {ops : List Op} {s start : NameSupply} {part : List (Op × Step)}
    (h : Stretch ops s start part) (hops : ∀ op ∈ ops, op.setsCounters = false) (c : Category) :
    part.filterMap (nameIn? c) =
      (List.range (min ((part.map Prod.fst).count (.fresh c)) (top - start.number c).toNat)).map
        fun j : Nat => c.letter ++ Text.ofInt (start.number c + j) := by
  obtain ⟨taken, rfl, htaken⟩ := h.eq_history hops
  have hle : start.number c ≤ top := toInt_le_top _
  have hcount : (min top (start.number c + taken.count (.fresh c)) - start.number c).toNat =
      min (taken.count (.fresh c)) (top - start.number c).toNat := by omega
  rw [filterMap_nameIn? htaken, number_reached htaken, Category.names, hcount, map_fst_history]
  rfl

/-! ## Whole runs -/

/-- The counters of a run stay between zero and the largest word. -/
theorem number_mem_history {ops : List Op} (hops : ∀ op ∈ ops, op.setsCounters = false)
    {s : NameSupply} (hs : ∀ c, 0 ≤ s.number c) {x : Op × Step} (hx : x ∈ history ops s)
    (c : Category) :
    0 ≤ x.2.after.number c ∧ x.2.after.number c ≤ top := by
  induction ops generalizing s with
  | nil => cases hx
  | cons op ops ih =>
    obtain ⟨hop, hrest⟩ := List.forall_mem_cons.mp hops
    have hnext := number_apply_nonneg hop hs
    rw [history_cons, List.mem_cons] at hx
    obtain rfl | hx := hx
    · exact ⟨hnext c, toInt_le_top _⟩
    · exact ih hrest hnext hx

/-- What a run answers in a category is what it would answer without the operations that do not
concern it, whatever the other counter is. -/
theorem answers_filter {c : Category} (ops : List Op) {s s' : NameSupply}
    (hs : s.counter c = s'.counter c) :
    answers c ops s = answers c (ops.filter fun op => op.concerns c) s' := by
  induction ops generalizing s s' with
  | nil => rfl
  | cons op ops ih =>
    cases hop : op.concerns c with
    | true =>
      obtain ⟨hresult, hcounter⟩ := apply_of_concerns hop hs
      have hrest := ih hcounter
      simp only [answers] at hrest
      simp only [answers, history_cons, List.filter_cons, hop, if_true, List.map_cons,
        hresult, hrest]
    | false =>
      have hrest := ih ((counter_apply_of_not_concerns hop s).trans hs)
      simp only [answers] at hrest
      simp only [answers, history_cons, List.filter_cons, hop, Bool.false_eq_true, if_false, hrest]

/-- A request in a history: it failed and changed nothing, or it gave the
name with the number reached. -/
theorem fresh_cases {ops : List Op} {s : NameSupply} {past future : List (Op × Step)} {c : Category}
    {step : Step} (hcut : history ops s = past ++ (.fresh c, step) :: future) :
    ((reached s past).number c = top ∧ step = ⟨.error ⟨c⟩, reached s past⟩) ∨
      ((reached s past).number c ≠ top ∧
        step = ⟨.ok (some (c.named ((reached s past).number c))), (reached s past).advance c⟩) := by
  obtain ⟨-, -, -, hstep, -⟩ := history_eq_append_cons hcut
  by_cases htop : (reached s past).number c = top
  · rw [apply_fresh_of_eq_top htop] at hstep
    exact .inl ⟨htop, hstep⟩
  · rw [apply_fresh_of_ne_top htop] at hstep
    exact .inr ⟨htop, hstep⟩

/-- Once a category is used up its requests fail, as long as there is no reset. -/
theorem fails_until_reset {ops : List Op} (hops : ∀ op ∈ ops, op.setsCounters = false)
    {s : NameSupply} {c : Category} (htop : s.number c = top) {between future : List (Op × Step)}
    {step : Step}
    (hcut : history ops s = between ++ (.fresh c, step) :: future)
    (hbetween : ∀ x ∈ between, x.1 ≠ .reset) : step.result = .error ⟨c⟩ := by
  have hcases := fresh_cases hcut
  obtain ⟨done, todo, rfl, rfl, -⟩ := history_eq_append hcut
  have hdone : ∀ op ∈ done, op.goesOn = true :=
    goesOn_of_plain (fun op hop => hops op (by simp [hop])) hbetween
  have hnumber : (reached s (history done s)).number c = top := by
    rw [number_reached hdone, htop]
    omega
  obtain ⟨-, rfl⟩ | ⟨hne, -⟩ := hcases
  · rfl
  · exact absurd hnumber hne

/-- A run of a supply whose counters are not negative, with requests and resets in any order. From
the beginning or a reset to the next reset no name is given twice, whatever its category, and the
names of a category are numbered one after another from its counter at that moment, as many as were
asked for and as there are. Results in a category depend on its own counter, its own requests and
the resets only. A request fails just if its counter is at the largest word; it then leaves the
supply as it is, and requests in that category go on failing until a reset. No counter becomes
negative or goes beyond the largest word. -/
theorem names_counted_between_resets (ops : List Op) (s : NameSupply)
    (hops : ∀ op ∈ ops, op.setsCounters = false) (hs : ∀ c, 0 ≤ s.number c) :
    (run ops s).length = ops.length ∧
    (∀ start part, Stretch ops s start part →
      (part.filterMap fun x => x.2.name?).Nodup ∧
      ∀ c : Category, part.filterMap (nameIn? c) =
        (List.range (min ((part.map Prod.fst).count (.fresh c)) (top - start.number c).toNat)).map
          fun j : Nat => c.letter ++ Text.ofInt (start.number c + j)) ∧
    (∀ c ops' s', s'.counter c = s.counter c →
      (ops'.filter fun op => op.concerns c) = (ops.filter fun op => op.concerns c) →
      answers c ops' s' = answers c ops s) ∧
    (∀ past c step, past ++ [(.fresh c, step)] <+: history ops s →
      (step.result = .error ⟨c⟩ ↔ (reached s past).counter c = Int64.maxValue) ∧
      ((∃ name, step.result = .ok (some name)) ↔ (reached s past).counter c ≠ Int64.maxValue) ∧
      (step.result = .error ⟨c⟩ → step.after = reached s past ∧
        ∀ between step', past ++ (.fresh c, step) :: between ++ [(.fresh c, step')] <+:
          history ops s →
          (∀ x ∈ between, x.1 ≠ .reset) → step'.result = .error ⟨c⟩)) ∧
    ∀ x ∈ history ops s, ∀ c, 0 ≤ x.2.after.number c ∧ x.2.after.number c ≤ top := by
  refine ⟨length_run ops s, fun start part hpart => ⟨?_, hpart.names_eq hops⟩, ?_, ?_,
    fun x hx c => number_mem_history hops hs hx c⟩
  · obtain ⟨taken, rfl, htaken⟩ := hpart.eq_history hops
    exact nodup_filterMap_name? htaken start
  · intro c ops' s' hcounter hsame
    rw [answers_filter ops' hcounter, hsame, ← answers_filter ops rfl]
  · rintro past c step ⟨future, hcut⟩
    rw [List.append_assoc, List.singleton_append] at hcut
    obtain ⟨htop, rfl⟩ | ⟨htop, rfl⟩ := fresh_cases hcut.symm
    · have hmax := (toInt_eq_top_iff _).mp htop
      refine ⟨iff_of_true rfl hmax, iff_of_false (fun ⟨_, h⟩ => by cases h) (not_not_intro hmax),
        fun _ => ⟨rfl, ?_⟩⟩
      rintro between step' ⟨later, hlater⟩ hbetween
      rw [List.append_assoc, List.append_assoc, List.cons_append, List.singleton_append] at hlater
      obtain ⟨done, todo, rfl, -, hrest⟩ := history_eq_append_cons hlater.symm
      exact fails_until_reset (fun op hop => hops op (by simp [hop])) htop hrest.symm hbetween
    · have hmax := mt (toInt_eq_top_iff _).mpr htop
      exact ⟨iff_of_false (fun h => by cases h) hmax, iff_of_true ⟨_, rfl⟩ hmax,
        fun h => by cases h⟩

/-- Three requests for a temporary, with one for a label among them, and after a
reset a request of each kind. -/
def acrossReset : List Op :=
  [.fresh .temp, .fresh .label, .fresh .temp, .get, .fresh .temp, .reset, .fresh .temp,
    .fresh .label]

/-- Where one temporary is left the second and the third request for one fail, and after the reset
temporaries start at zero. In another order, with other labels, the temporaries are the same. -/
theorem acrossReset_counted_between_resets :
    let s : NameSupply := ⟨Int64.maxValue - 1, 0⟩
    let first := (history acrossReset s).take 5
    let second := (history acrossReset s).drop 6
    (∀ op ∈ acrossReset, op.setsCounters = false) ∧ (∀ c, 0 ≤ s.number c) ∧
      Stretch acrossReset s s first ∧ Stretch acrossReset s {} second ∧
      (first.filterMap fun x => x.2.name?).Nodup ∧
      first.filterMap (nameIn? .temp) = ["t9223372036854775806"] ∧
      second.filterMap (nameIn? .temp) = ["t0"] ∧
      answers .temp [.fresh .temp, .fresh .temp, .fresh .temp, .fresh .label, .reset, .fresh .temp]
          ⟨Int64.maxValue - 1, 7⟩ = answers .temp acrossReset s ∧
      (history acrossReset s)[4]?.map (fun x => x.2.result) = some (.error ⟨.temp⟩) := by
  intro s first second
  have hops : ∀ op ∈ acrossReset, op.setsCounters = false := by decide
  have hs : ∀ c, 0 ≤ s.number c := by
    intro c
    cases c <;> decide
  have hfirst : Stretch acrossReset s s first := ⟨by decide, .inl ⟨rfl, List.take_prefix _ _⟩⟩
  have hsecond : Stretch acrossReset s {} second :=
    ⟨by decide, .inr ⟨rfl, _, (List.drop_suffix 5 (history acrossReset s)).isInfix⟩⟩
  obtain ⟨-, hstretch, hsame, hcall, -⟩ := names_counted_between_resets acrossReset s hops hs
  obtain ⟨hnodup, hnames⟩ := hstretch s first hfirst
  refine ⟨hops, hs, hfirst, hsecond, hnodup, ?_, ?_, hsame .temp _ _ rfl rfl, ?_⟩
  · rw [hnames .temp]
    decide +kernel
  · rw [(hstretch {} second hsecond).2 .temp]
    decide +kernel
  · obtain ⟨hfails, -, hstays⟩ := hcall ((history acrossReset s).take 2) .temp _
      (List.take_prefix 3 (history acrossReset s))
    obtain ⟨-, hlater⟩ := hstays (hfails.mpr (by decide +kernel))
    have hresult := hlater [_] _ (List.take_prefix 5 (history acrossReset s)) (by decide)
    exact congrArg some hresult

end NameSupply

end ThreeAddress
