import ThreeAddress.Proofs.FaultTrees
import ThreeAddress.Proofs.Reports
import ThreeAddress.Script.Lists

/-!
# Named lists hold what was delivered to them

Every operation on named lists is a sequence of deliveries: it adds diagnostics at the end of
certain lists, and what it adds is known from what the lists hold at that moment. Main statement: at
any moment of a run each list holds its deliveries so far, one after another, no other list changes
with a step, and what was delivered stays where it is. A list appended to another adds its faults,
its lines and its matches after those of the other one.
-/

namespace ThreeAddress

/-! ## Texts and matches of lists put together -/

theorem Text.join_append (separator : Text) {first second : List Text} (hfirst : first ≠ [])
    (hsecond : second ≠ []) :
    join separator (first ++ second) =
      join separator first ++ separator ++ join separator second := by
  induction first with
  | nil => exact absurd rfl hfirst
  | cons t rest ih =>
    rw [join, join, join, List.cons_append]
    cases rest with
    | nil =>
      rw [List.nil_append, List.intercalate_cons_of_ne_nil hsecond, List.intercalate_singleton]
    | cons t' rest =>
      have hrest := ih (List.cons_ne_nil t' rest)
      rw [join, join, join] at hrest
      rw [List.cons_append, List.intercalate_cons_cons, ← List.cons_append, hrest,
        List.intercalate_cons_cons]
      simp only [List.append_assoc]

namespace ErrorList

theorem lines_eq_map (l : ErrorList) : lines l = l.map Diagnostic.text := by
  induction l with
  | nil => rfl
  | cons d rest ih => rw [lines, ih, List.map_cons]

theorem text_of_ne_nil {l : ErrorList} (h : l ≠ []) :
    text l = Text.join "\n" (l.map Diagnostic.text) := by
  have hlines : l.map Diagnostic.text ≠ [] := mt List.map_eq_nil_iff.mp h
  rw [text, lines_eq_map, textOfLines_of_ne_nil hlines]

/-- The text of two lists put together: their texts on lines of their own. -/
theorem text_append {a b : ErrorList} (ha : a ≠ []) (hb : b ≠ []) :
    text (a ++ b) = text a ++ "\n" ++ text b := by
  have hne : a ++ b ≠ [] := fun h => ha (List.append_eq_nil_iff.mp h).1
  rw [text_of_ne_nil ha, text_of_ne_nil hb, text_of_ne_nil hne, List.map_append]
  exact Text.join_append _ (mt List.map_eq_nil_iff.mp ha) (mt List.map_eq_nil_iff.mp hb)

theorem faults_append (a b : ErrorList) : faults (a ++ b) = faults a ++ faults b :=
  List.map_append

end ErrorList

/-- A search for something other than a list goes through the entries. -/
theorem Fault.find?_list {kind : FaultKind} (h : kind ≠ .list) (l : ErrorList) :
    find? kind (.list l) = (ErrorList.faults l).findSome? (find? kind) := by
  rw [find?, if_neg h, find?_entries]

/-- A match in two lists put together is one in the first or, failing that, one in the second. -/
theorem Fault.find?_list_append {kind : FaultKind} (h : kind ≠ .list) (a b : ErrorList) :
    find? kind (.list (a ++ b)) = (find? kind (.list a)).or (find? kind (.list b)) := by
  rw [find?_list h, find?_list h, find?_list h, ErrorList.faults_append, List.findSome?_append]

/-! ## Deliveries -/

/-- The name of the list that a target is. -/
def Target.list? : Target → Option Text
  | .log => none
  | .list name => some name

namespace Script.Lists

/-- Diagnostics added at the end of a list. -/
structure Delivery where
  /-- The list. -/
  target : Text
  /-- What is added. -/
  added : ErrorList

/-- What a list gets by deliveries, one after another. -/
def received (name : Text) (deliveries : List Delivery) : ErrorList :=
  (deliveries.filter fun d => d.target = name).flatMap Delivery.added

/-- What an operation on a list adds to which lists, when the named lists are these.
A fault is taken as its cause stands for it now, so that a list reported as a fault
is what the list holds now. -/
def Op.deliveries (list : Text) (s : Sinks) : Op → List Delivery
  | add pos message => [⟨list, [⟨pos, .message message⟩]⟩]
  | report pos cause => (cause.build? [] s).toList.map fun f => ⟨list, [⟨pos, f⟩]⟩
  | append source => [⟨list, s.get source⟩]
  | relay targets pos cause => (cause.build? [] s).toList.flatMap fun f =>
    (targets.filterMap Target.list?).map fun name => ⟨name, [⟨pos, f⟩]⟩
  | _ => []

theorem received_append (name : Text) (first second : List Delivery) :
    received name (first ++ second) = received name first ++ received name second := by
  rw [received, List.filter_append, List.flatMap_append]
  rfl

theorem received_singleton (name : Text) (d : Delivery) :
    received name [d] = if name = d.target then d.added else [] := by
  by_cases h : name = d.target
  · simp [received, h]
  · simp [received, h, Ne.symm h]

theorem received_eq_nil {name : Text} {deliveries : List Delivery}
    (h : name ∉ deliveries.map Delivery.target) : received name deliveries = [] := by
  have hnone : (deliveries.filter fun d => d.target = name) = [] := by
    refine List.filter_eq_nil_iff.mpr fun d hd => ?_
    have hne : d.target ≠ name := fun heq => h (List.mem_map.mpr ⟨d, hd, heq⟩)
    simpa using hne
  rw [received, hnone, List.flatMap_nil]

/-- A list gets a diagnostic that is passed on as often as it stands among the targets. -/
theorem received_passedOn (name : Text) (targets : Reporter) (d : Diagnostic) :
    received name ((targets.filterMap Target.list?).map fun n => ⟨n, [d]⟩) =
      List.replicate (targets.count (.list name)) d := by
  induction targets with
  | nil => rfl
  | cons target rest ih =>
    cases target with
    | log =>
      have hskip : (Target.log :: rest).filterMap Target.list? = rest.filterMap Target.list? := rfl
      rw [hskip, ih, List.count_cons_of_ne (by simp)]
    | list other =>
      have hnext : (Target.list other :: rest).filterMap Target.list? =
          other :: rest.filterMap Target.list? := rfl
      rw [hnext, List.map_cons, ← List.singleton_append, received_append, received_singleton, ih,
        List.count_cons]
      by_cases h : name = other
      · simp [h, List.replicate_succ]
      · simp [h, Ne.symm h]

/-- An operation adds its deliveries to the lists. -/
theorem get_apply (list : Text) (op : Op) (s : Sinks) (name : Text) :
    (op.apply list s).1.get name = s.get name ++ received name (op.deliveries list s) := by
  -- A report is passed on to the list itself, so it is a case of passing on to several targets.
  have hrelay : ∀ targets pos cause, (relayCause targets pos cause s).1.get name =
      s.get name ++ received name ((cause.build? [] s).toList.flatMap fun f =>
        (targets.filterMap Target.list?).map fun n => ⟨n, [⟨pos, f⟩]⟩) := by
    intro targets pos cause
    rw [relayCause]
    cases cause.build? [] s with
    | none => exact (List.append_nil _).symm
    | some f =>
      rw [Option.toList_some, List.flatMap_singleton, received_passedOn]
      exact Reporter.get_relay ⟨pos, f⟩ targets s name
  cases op with
  | add pos message =>
    rw [Op.apply, Op.deliveries, received_singleton, Sinks.report, Sinks.get_modify]
    split <;> simp
  | report pos cause =>
    rw [Op.apply, hrelay, Op.deliveries]
    cases cause.build? [] s <;> rfl
  | append source =>
    rw [Op.apply, Op.deliveries, received_singleton, Sinks.append, Sinks.get_modify]
    split <;> simp
  | relay targets pos cause => rw [Op.apply, hrelay, Op.deliveries]
  | _ => exact (List.append_nil _).symm

/-! ## Runs -/

/-- The named lists after the first operations of a run. -/
def after (ops : List (Text × Op)) (s : Sinks) (k : Nat) : Sinks := (run (ops.take k) s).2

/-- The deliveries of one step of a run. -/
def deliveriesAt (ops : List (Text × Op)) (s : Sinks) (k : Nat) : List Delivery :=
  ops[k]?.toList.flatMap fun x => x.2.deliveries x.1 (after ops s k)

/-- The deliveries of the first operations of a run, in order. -/
def deliveriesBefore (ops : List (Text × Op)) (s : Sinks) (k : Nat) : List Delivery :=
  (List.range k).flatMap (deliveriesAt ops s)

theorem run_append (first second : List (Text × Op)) (s : Sinks) :
    (run (first ++ second) s).2 = (run second (run first s).2).2 := by
  induction first generalizing s with
  | nil => rfl
  | cons x rest ih => exact ih _

theorem deliveries_congr {s s' : Sinks} (h : ∀ name, s.get name = s'.get name)
    (list : Text) (op : Op) :
    op.deliveries list s = op.deliveries list s' := by
  cases op with
  | report pos cause => rw [Op.deliveries, Op.deliveries, Cause.build?_congr h]
  | append source => rw [Op.deliveries, Op.deliveries, h]
  | relay targets pos cause => rw [Op.deliveries, Op.deliveries, Cause.build?_congr h]
  | _ => rfl

/-- A step of a run adds its deliveries. -/
theorem get_after_succ (ops : List (Text × Op)) (s : Sinks) (k : Nat) (name : Text) :
    (after ops s (k + 1)).get name =
      (after ops s k).get name ++ received name (deliveriesAt ops s k) := by
  rw [after, List.take_add_one, run_append, deliveriesAt]
  cases ops[k]? with
  | none => exact (List.append_nil _).symm
  | some x =>
    obtain ⟨list, op⟩ := x
    -- A step first makes sure that its lists have names, which changes none of them.
    have hmention := (after ops s k).get_mention (list :: op.lists)
    rw [Option.toList_some, List.flatMap_singleton, ← deliveries_congr hmention, ← hmention name]
    exact get_apply list op _ name

/-- A list holds what it held at first and all its deliveries since. -/
theorem get_after (ops : List (Text × Op)) (s : Sinks) (k : Nat) (name : Text) :
    (after ops s k).get name = s.get name ++ received name (deliveriesBefore ops s k) := by
  induction k with
  | zero => exact (List.append_nil _).symm
  | succ k ih =>
    rw [get_after_succ, ih, deliveriesBefore, deliveriesBefore, List.range_succ,
      List.flatMap_append, List.flatMap_singleton, received_append, List.append_assoc]

/-- Lists only grow at their end. -/
theorem get_after_prefix (ops : List (Text × Op)) (s : Sinks) (name : Text) {j k : Nat}
    (h : j ≤ k) :
    (after ops s j).get name <+: (after ops s k).get name := by
  induction h with
  | refl => exact List.prefix_rfl
  | step _ ih =>
    rw [get_after_succ]
    exact ih.trans (List.prefix_append _ _)

/-- An entry stays at its place. -/
theorem getElem?_after {ops : List (Text × Op)} {s : Sinks} {name : Text} {i j k : Nat}
    {d : Diagnostic} (hk : j ≤ k) (h : ((after ops s j).get name)[i]? = some d) :
    ((after ops s k).get name)[i]? = some d := by
  obtain ⟨later, hlater⟩ := get_after_prefix ops s name hk
  rw [← hlater, List.getElem?_append_left (List.getElem?_eq_some_iff.mp h).1, h]

/-- What is asked about an entry is answered from the entry. -/
theorem answer_entry {l : ErrorList} {i : Nat} {d : Diagnostic} (h : l[i]? = some d)
    (kind : FaultKind) :
    (Op.entry i kind).answer l = .entry d.text (d.find? kind) := by
  rw [Op.answer, h]

theorem deliveriesAt_of_getElem? {ops : List (Text × Op)} {j : Nat} {list : Text} {op : Op}
    (h : ops[j]? = some (list, op)) (s : Sinks) :
    deliveriesAt ops s j = op.deliveries list (after ops s j) := by
  rw [deliveriesAt, h, Option.toList_some, List.flatMap_singleton]

/-! ## Main statement -/

/-- After any number of operations each named list holds what it held at first and then what the
operations delivered to it, in order of time: the single diagnostics reported to it, and what
appended lists held at that moment. A step changes no list but those it delivers to. An entry
stays at its place, with its text and its matches, and a list that is reported as a fault becomes
an entry with what it held at that moment. A diagnostic passed on to several targets, of which
some may be missing, reaches a list as often as the list is among them. After one list is
appended to another, the faults are those of both; the text is that of both, on lines of their
own, or of the one that is not empty; and a match of a kind other than a list is that of the
first or else that of the second. -/
theorem lists_hold_deliveries (ops : List (Text × Op)) (s : Sinks) :
    (∀ k name, (after ops s k).get name = s.get name ++ received name (deliveriesBefore ops s k)) ∧
    (∀ k name, name ∉ (deliveriesAt ops s k).map Delivery.target →
      (after ops s (k + 1)).get name = (after ops s k).get name) ∧
    (∀ j k name i d, j ≤ k → ((after ops s j).get name)[i]? = some d →
      ((after ops s k).get name)[i]? = some d ∧
      ∀ kind, (Op.entry i kind).answer ((after ops s k).get name) = .entry d.text (d.find? kind)) ∧
    (∀ j list pos source, ops[j]? = some (list, .report pos (.snapshot source)) →
      ((after ops s (j + 1)).get list)[((after ops s j).get list).length]? =
        some ⟨pos, .list ((after ops s j).get (source.read []))⟩) ∧
    (∀ j list (entries : List (Option Target)) pos cause f,
      ops[j]? = some (list, .relay (Reporter.tee entries) pos cause) →
      cause.build? [] (after ops s j) = some f → ∀ name, (after ops s (j + 1)).get name =
        (after ops s j).get name ++ List.replicate (entries.count (some (.list name))) ⟨pos, f⟩) ∧
    ∀ j name source, ops[j]? = some (name, .append source) →
      let a := (after ops s j).get name
      let b := (after ops s j).get source
      let c := (after ops s (j + 1)).get name
      ErrorList.faults c = ErrorList.faults a ++ ErrorList.faults b ∧
      (a ≠ [] → b ≠ [] → ErrorList.text c = ErrorList.text a ++ "\n" ++ ErrorList.text b) ∧
      (a = [] → ErrorList.text c = ErrorList.text b) ∧
      (b = [] → ErrorList.text c = ErrorList.text a) ∧
      ∀ kind, kind ≠ .list →
        Fault.find? kind (.list c) =
          (Fault.find? kind (.list a)).or (Fault.find? kind (.list b)) := by
  refine ⟨get_after ops s, fun k name hname => ?_, fun j k name i d hk hd => ?_, ?_, ?_, ?_⟩
  · rw [get_after_succ, received_eq_nil hname, List.append_nil]
  · have hstays := getElem?_after hk hd
    exact ⟨hstays, answer_entry hstays⟩
  · intro j list pos source h
    have hreceived : received list (deliveriesAt ops s j) =
        [⟨pos, .list ((after ops s j).get (source.read []))⟩] := by
      rw [deliveriesAt_of_getElem? h, Op.deliveries, Cause.build?, Option.toList_some,
        List.map_singleton, received_singleton, if_pos rfl]
    rw [get_after_succ, hreceived, List.getElem?_concat_length]
  · intro j list entries pos cause f h hf name
    rw [get_after_succ, deliveriesAt_of_getElem? h, Op.deliveries, hf, Option.toList_some,
      List.flatMap_singleton, received_passedOn, Reporter.count_tee]
  · intro j name source h a b c
    have hc : c = a ++ b := by
      calc c = a ++ received name (deliveriesAt ops s j) := get_after_succ ops s j name
        _ = a ++ b := by
          rw [deliveriesAt_of_getElem? h, Op.deliveries, received_singleton, if_pos rfl]
    rw [hc]
    refine ⟨ErrorList.faults_append a b, ErrorList.text_append, ?_, ?_, fun kind hkind => ?_⟩
    · intro ha
      rw [ha, List.nil_append]
    · intro hb
      rw [hb, List.append_nil]
    · exact Fault.find?_list_append hkind a b

/-- A list gets a message, is reported to itself and appended to itself; a full table is passed on
to another list, which stands among the targets twice. -/
def echoOps : List (Text × Op) :=
  [("a", .add none "first"),
    ("a", .report none (.snapshot (.literal "a"))),
    ("a", .append "a"),
    ("a", .relay (Reporter.tee [some (.list "b"), none, some .log, some (.list "b")]) none
      (.capacity 2))]

/-- The entry for the report stays what the list held then, the text of the list is doubled, and the
other list stays as it is until it gets the same diagnostic twice. -/
theorem echoOps_hold_deliveries :
    (∀ k, 2 ≤ k →
      ((after echoOps {} k).get "a")[1]? = some ⟨none, .list ((after echoOps {} 1).get "a")⟩) ∧
    ErrorList.text ((after echoOps {} 3).get "a") =
      ErrorList.text ((after echoOps {} 2).get "a") ++ "\n" ++
        ErrorList.text ((after echoOps {} 2).get "a") ∧
    (after echoOps {} 3).get "b" = (after echoOps {} 2).get "b" ∧
    (after echoOps {} 4).get "b" =
      (after echoOps {} 3).get "b" ++ List.replicate 2 ⟨none, .symbol (.capacity 2)⟩ := by
  obtain ⟨-, hother, hstays, hsnapshot, htee, happend⟩ := lists_hold_deliveries echoOps {}
  have hlength : ((after echoOps {} 1).get "a").length = 1 := by decide +kernel
  have hentry := hsnapshot 1 "a" none (.literal "a") rfl
  rw [hlength] at hentry
  obtain ⟨-, htext, -⟩ := happend 2 "a" "a" rfl
  have hne : (after echoOps {} 2).get "a" ≠ [] := List.ne_nil_of_length_pos (by decide +kernel)
  have hb : ("b" : Text) ∉ (deliveriesAt echoOps {} 2).map Delivery.target := by decide +kernel
  refine ⟨fun k hk => (hstays 2 k "a" 1 _ hk hentry).1, htext hne hne, hother 2 "b" hb, ?_⟩
  have hcount : [some (Target.list "b"), none, some .log, some (.list "b")].count
      (some (.list "b")) = 2 := by
    decide +kernel
  rw [htee 3 "a" _ none (.capacity 2) _ rfl rfl "b", hcount]

end Script.Lists

end ThreeAddress
