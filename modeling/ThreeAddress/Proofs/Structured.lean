import ThreeAddress.Proofs.Machine

/-!
# Structured code and its jumps

Conditionals and loops as they are meant, with an execution that knows no jumps, and the
instructions with labels and jumps that stand for them. Main statement: executing the instructions
from the first one on reaches their end with an environment exactly when the structured execution
ends with it. Both directions follow the code; what a loop does is reached by induction on its
execution, and back by induction on the number of machine steps.
-/

namespace ThreeAddress

/-- Code with conditionals and loops. Every operation names the place of its result. -/
inductive Code where
  /-- Does nothing. -/
  | skip
  /-- One piece of code after another. -/
  | seq (first second : Code)
  /-- Stores the result of `left op right` in `dst`. -/
  | assign (dst left op right : Text)
  /-- Stores the element of `array` at `index` in `dst`. -/
  | load (dst array index : Text)
  /-- Runs a block if a test holds. -/
  | ifThen (test : Relation Text) (yes : Code)
  /-- Runs one of two blocks. -/
  | ifElse (test : Relation Text) (yes no : Code)
  /-- Runs a block as long as a test holds, which `pre` prepares each time. -/
  | loop (pre : Code) (test : Relation Text) (body : Code)
  deriving DecidableEq

namespace Code

variable {V : Type*}

/-- Execution of structured code from one environment ends with another. -/
inductive Exec (I : Interpretation V) : Code → (Text → V) → (Text → V) → Prop where
  | skip {E : Text → V} : Exec I skip E E
  | seq {first second : Code} {E E₁ E₂ : Text → V} (h₁ : Exec I first E E₁)
    (h₂ : Exec I second E₁ E₂) :
      Exec I (.seq first second) E E₂
  | assign {dst left op right : Text} {E : Text → V} :
      Exec I (.assign dst left op right) E (Function.update E dst (I.binary E left op right))
  | load {dst array index : Text} {E : Text → V} :
      Exec I (.load dst array index) E (Function.update E dst (I.load E array index))
  /-- The test holds, and the block runs. -/
  | ifThen_yes {test : Relation Text} {yes : Code} {E E₁ : Text → V} (ht : I.holds E test = true)
      (h : Exec I yes E E₁) : Exec I (.ifThen test yes) E E₁
  /-- The test does not hold, and nothing runs. -/
  | ifThen_no {test : Relation Text} {yes : Code} {E : Text → V} (ht : I.holds E test = false) :
      Exec I (.ifThen test yes) E E
  /-- The test holds, and the first block runs. -/
  | ifElse_yes {test : Relation Text} {yes no : Code} {E E₁ : Text → V} (ht : I.holds E test = true)
      (h : Exec I yes E E₁) : Exec I (.ifElse test yes no) E E₁
  /-- The test does not hold, and the second block runs. -/
  | ifElse_no {test : Relation Text} {yes no : Code} {E E₁ : Text → V} (ht : I.holds E test = false)
      (h : Exec I no E E₁) : Exec I (.ifElse test yes no) E E₁
  /-- The test holds after its preparation, the block runs, and the loop starts again. -/
  | loop_again {test : Relation Text} {pre body : Code} {E E₁ E₂ E₃ : Text → V}
    (hpre : Exec I pre E E₁)
      (ht : I.holds E₁ test = true) (hbody : Exec I body E₁ E₂)
      (hrest : Exec I (.loop pre test body) E₂ E₃) : Exec I (.loop pre test body) E E₃
  /-- The test does not hold after its preparation, and the loop ends. -/
  | loop_done {test : Relation Text} {pre body : Code} {E E₁ : Text → V} (hpre : Exec I pre E E₁)
      (ht : I.holds E₁ test = false) : Exec I (.loop pre test body) E E₁

/-- How many labels the jumps of code need. -/
@[simp]
def labels : Code → Nat
  | skip | assign .. | load .. => 0
  | seq first second => first.labels + second.labels
  | ifThen _ yes => 2 + yes.labels
  | ifElse _ yes no => 2 + no.labels + yes.labels
  | loop pre _ body => 3 + pre.labels + body.labels

/-- How many instructions stand for code. -/
@[simp]
def size : Code → Nat
  | skip => 0
  | assign .. | load .. => 1
  | seq first second => first.size + second.size
  | ifThen _ yes => 4 + yes.size
  | ifElse _ yes no => 4 + no.size + yes.size
  | loop pre _ body => 6 + pre.size + body.size

/-- The label with a number. -/
def labelName (n : Int) : Text := Category.label.named n

/-- The instructions that stand for code, with labels numbered from `n` on. A conditional or a loop
has its own labels before those of its blocks. -/
@[simp]
def lower : Code → Int → Program
  | skip, _ => []
  | seq first second, n => first.lower n ++ second.lower (n + first.labels)
  | assign dst left op right, _ => [.assign dst left op right]
  | load dst array index, _ => [.load dst array index]
  | ifThen test yes, n =>
    .condJump test.left test.relop test.right (labelName n) :: .jump (labelName (n + 1)) ::
      .label (labelName n) :: (yes.lower (n + 2) ++ [.label (labelName (n + 1))])
  | ifElse test yes no, n =>
    .condJump test.left test.relop test.right (labelName n) :: (no.lower (n + 2) ++
      .jump (labelName (n + 1)) :: .label (labelName n) ::
        (yes.lower (n + 2 + no.labels) ++ [.label (labelName (n + 1))]))
  | loop pre test body, n =>
    .label (labelName n) :: (pre.lower (n + 3) ++
      .condJump test.left test.relop test.right (labelName (n + 1)) :: .jump (labelName (n + 2)) ::
        .label (labelName (n + 1)) :: (body.lower (n + 3 + pre.labels) ++
          [.jump (labelName n), .label (labelName (n + 2))]))

theorem length_lower (code : Code) (n : Int) : (code.lower n).length = code.size := by
  induction code generalizing n with
  | skip => rfl
  | assign dst left op right => rfl
  | load dst array index => rfl
  | seq first second ih₁ ih₂ => rw [lower, List.length_append, ih₁, ih₂, size]
  | ifThen test yes ih =>
    simp only [lower, size, List.length_cons, List.length_append, List.length_nil, ih]
    omega
  | ifElse test yes no ihyes ihno =>
    simp only [lower, size, List.length_cons, List.length_append, List.length_nil, ihyes, ihno]
    omega
  | loop pre test body ihpre ihbody =>
    simp only [lower, size, List.length_cons, List.length_append, List.length_nil, ihpre, ihbody]
    omega

/-- Two names that stand behind two stretches can be brought to the front. -/
theorem perm_two_to_front (p q : List Text) (x y : Text) :
    (p ++ x :: (q ++ [y])).Perm (x :: y :: (p ++ q)) := by
  have hx : (p ++ x :: (q ++ [y])).Perm (x :: (p ++ (q ++ [y]))) := List.perm_middle
  have hy : (p ++ q ++ [y]).Perm (y :: (p ++ q)) := List.perm_append_singleton y (p ++ q)
  rw [← List.append_assoc] at hx
  exact hx.trans (hy.cons x)

/-- The markers of lowered code are its labels, each once. -/
theorem markers_lower (code : Code) (n : Int) :
    (code.lower n).markers.Perm (Category.label.names n (n + code.labels)) := by
  induction code generalizing n with
  | skip => simp [lower, labels, Category.names_self, Program.markers]
  | assign dst left op right =>
    simp [lower, labels, Category.names_self, Program.markers, Instr.marker?]
  | load dst array index =>
    simp [lower, labels, Category.names_self, Program.markers, Instr.marker?]
  | seq first second ih₁ ih₂ =>
    have hend : n + ((first.labels + second.labels : Nat) : Int) =
        n + first.labels + second.labels := by omega
    have hnames := Category.label.names_append (show n ≤ n + first.labels by omega)
      (show n + first.labels ≤ n + first.labels + second.labels by omega)
    rw [lower, labels, Program.markers_append, hend, ← hnames]
    exact (ih₁ n).append (ih₂ _)
  | ifThen test yes ih =>
    have hend : n + ((2 + yes.labels : Nat) : Int) = n + 2 + yes.labels := by omega
    have htwo : n + 1 + 1 = n + 2 := by omega
    rw [labels, hend, Category.names_cons _ (by omega), Category.names_cons _ (by omega), htwo]
    simp only [lower, Program.markers_cons, Program.markers_append, Instr.marker?,
      Option.toList_none, Option.toList_some, List.nil_append, List.singleton_append]
    exact ((List.perm_append_singleton _ _).trans ((ih (n + 2)).cons _)).cons _
  | ifElse test yes no ihyes ihno =>
    have hend : n + ((2 + no.labels + yes.labels : Nat) : Int) =
        n + 2 + no.labels + yes.labels := by
      omega
    have htwo : n + 1 + 1 = n + 2 := by omega
    have hnames := Category.label.names_append (show n + 2 ≤ n + 2 + no.labels by omega)
      (show n + 2 + no.labels ≤ n + 2 + no.labels + yes.labels by omega)
    rw [labels, hend, Category.names_cons _ (by omega), Category.names_cons _ (by omega),
      htwo, ← hnames]
    simp only [lower, Program.markers_cons, Program.markers_append, Instr.marker?,
      Option.toList_none, Option.toList_some, List.nil_append, List.singleton_append]
    have hblocks := (ihno (n + 2)).append (ihyes (n + 2 + no.labels))
    exact (perm_two_to_front _ _ _ _).trans ((hblocks.cons _).cons _)
  | loop pre test body ihpre ihbody =>
    have hend : n + ((3 + pre.labels + body.labels : Nat) : Int) =
        n + 3 + pre.labels + body.labels := by
      omega
    have htwo : n + 1 + 1 = n + 2 := by omega
    have hthree : n + 2 + 1 = n + 3 := by omega
    have hnames := Category.label.names_append (show n + 3 ≤ n + 3 + pre.labels by omega)
      (show n + 3 + pre.labels ≤ n + 3 + pre.labels + body.labels by omega)
    rw [labels, hend, Category.names_cons _ (by omega), Category.names_cons _ (by omega), htwo,
      Category.names_cons _ (by omega), hthree, ← hnames]
    simp only [lower, Program.markers_cons, Program.markers_append, Instr.marker?,
      Option.toList_none, Option.toList_some, List.nil_append, List.singleton_append]
    have hblocks := (ihpre (n + 3)).append (ihbody (n + 3 + pre.labels))
    exact ((perm_two_to_front _ _ _ _).trans ((hblocks.cons _).cons _)).cons _

/-- Behind a program that has no labels numbered from `n` on, lowered code has each of its labels
once. -/
theorem distinct_append_lower {p : Program} {n : Int} (code : Code)
    (hp : ∀ k, n ≤ k → Instr.label (Category.label.named k) ∉ p) :
    Machine.Distinct (p ++ code.lower n) n := by
  have hnodup : (code.lower n).markers.Nodup :=
    (markers_lower code n).nodup_iff.mpr (Category.nodup_names _ _ _)
  have hbehind : ∀ k, n ≤ k → ∀ i : Nat,
      (p ++ code.lower n)[i]? = some (.label (Category.label.named k)) →
      p.length ≤ i ∧ (code.lower n)[i - p.length]? = some (.label (Category.label.named k)) := by
    intro k hk i hi
    rcases Nat.lt_or_ge i p.length with hlt | hge
    · rw [List.getElem?_append_left hlt] at hi
      exact absurd (List.mem_of_getElem? hi) (hp k hk)
    · rw [List.getElem?_append_right hge] at hi
      exact ⟨hge, hi⟩
  intro k hk i j hi hj
  obtain ⟨hi', hi⟩ := hbehind k hk i hi
  obtain ⟨hj', hj⟩ := hbehind k hk j hj
  have hsame := Program.marker_position_unique hnodup hi hj
  omega

section Edges

open Machine

variable {I : Interpretation V} {P : Program} {a : Nat} {n : Int}

/-- The ways into and out of the block of a conditional. -/
theorem leads_ifThen {test : Relation Text} {yes : Code} (hat : At P a ((ifThen test yes).lower n))
    (hdistinct : Distinct P n) :
    (∀ E, I.holds E test = true → Leads I P 2 a E (a + 3) E) ∧
    (∀ E, I.holds E test = false → Leads I P 3 a E (a + (ifThen test yes).size) E) ∧
    ∀ E, Leads I P 1 (a + 3 + yes.size) E (a + (ifThen test yes).size) E := by
  simp only [lower, at_cons, at_append, at_nil, length_lower, and_true] at hat
  obtain ⟨hbranch, hjump, hyes, -, hdone⟩ := hat
  have hsize : a + (ifThen test yes).size = a + 3 + yes.size + 1 := by
    rw [size]
    omega
  have hfindYes := hdistinct.markerAt? (Int.le_refl n) hyes
  have hfindDone := hdistinct.markerAt? (by omega) hdone
  have hleave : ∀ E, Leads I P 1 (a + 3 + yes.size) E (a + 3 + yes.size + 1) E :=
    fun E => .of_step (step_label hdone)
  rw [hsize]
  refine ⟨?_, ?_, hleave⟩
  · intro E ht
    have hfirst : Leads I P 1 a E (a + 2) E := .of_step (step_condJump_of_holds hbranch hfindYes ht)
    have hsecond : Leads I P 1 (a + 2) E (a + 3) E := .of_step (step_label hyes)
    exact hfirst.trans hsecond
  · intro E ht
    have hfirst : Leads I P 1 a E (a + 1) E := .of_step (step_condJump_of_not_holds hbranch ht)
    have hsecond : Leads I P 1 (a + 1) E (a + 3 + yes.size) E :=
      .of_step (step_jump hjump hfindDone)
    exact (hfirst.trans hsecond).trans (hleave E)

/-- The ways into and out of the two blocks of a conditional. -/
theorem leads_ifElse {test : Relation Text} {yes no : Code}
    (hat : At P a ((ifElse test yes no).lower n)) (hdistinct : Distinct P n) :
    (∀ E, I.holds E test = true → Leads I P 2 a E (a + 3 + no.size) E) ∧
    (∀ E, I.holds E test = false → Leads I P 1 a E (a + 1) E) ∧
    (∀ E, Leads I P 1 (a + 3 + no.size + yes.size) E (a + (ifElse test yes no).size) E) ∧
    ∀ E, Leads I P 2 (a + 1 + no.size) E (a + (ifElse test yes no).size) E := by
  simp only [lower, at_cons, at_append, at_nil, length_lower, and_true] at hat
  obtain ⟨hbranch, -, hjump, hyes, -, hdone⟩ := hat
  have hstart : a + 1 + no.size + 1 + 1 = a + 3 + no.size := by omega
  rw [hstart] at hdone
  have hsize : a + (ifElse test yes no).size = a + 3 + no.size + yes.size + 1 := by
    rw [size]
    omega
  have hfindYes := hdistinct.markerAt? (Int.le_refl n) hyes
  have hfindDone := hdistinct.markerAt? (by omega) hdone
  have hleave : ∀ E,
      Leads I P 1 (a + 3 + no.size + yes.size) E (a + 3 + no.size + yes.size + 1) E :=
    fun E => .of_step (step_label hdone)
  rw [hsize]
  refine ⟨?_, ?_, hleave, ?_⟩
  · intro E ht
    have hfirst : Leads I P 1 a E (a + 1 + no.size + 1) E :=
      .of_step (step_condJump_of_holds hbranch hfindYes ht)
    have hsecond : Leads I P 1 (a + 1 + no.size + 1) E (a + 1 + no.size + 1 + 1) E :=
      .of_step (step_label hyes)
    rw [hstart] at hsecond
    exact hfirst.trans hsecond
  · intro E ht
    exact .of_step (step_condJump_of_not_holds hbranch ht)
  · intro E
    have hfirst : Leads I P 1 (a + 1 + no.size) E (a + 3 + no.size + yes.size) E :=
      .of_step (step_jump hjump hfindDone)
    exact hfirst.trans (hleave E)

/-- The ways through a loop: to the preparation, into the block, out of the
loop and back to its head. -/
theorem leads_loop {pre body : Code} {test : Relation Text}
    (hat : At P a ((loop pre test body).lower n)) (hdistinct : Distinct P n) :
    (∀ E, Leads I P 1 a E (a + 1) E) ∧
    (∀ E, I.holds E test = true → Leads I P 2 (a + 1 + pre.size) E (a + 4 + pre.size) E) ∧
    (∀ E, I.holds E test = false →
      Leads I P 3 (a + 1 + pre.size) E (a + (loop pre test body).size) E) ∧
    ∀ E, Leads I P 1 (a + 4 + pre.size + body.size) E a E := by
  simp only [lower, at_cons, at_append, at_nil, length_lower, and_true] at hat
  obtain ⟨htop, -, hbranch, hjump, hbody, -, hback, hdone⟩ := hat
  have hstart : a + 1 + pre.size + 1 + 1 + 1 = a + 4 + pre.size := by omega
  rw [hstart] at hback hdone
  have hsize : a + (loop pre test body).size = a + 4 + pre.size + body.size + 1 + 1 := by
    rw [size]
    omega
  have hfindTop := hdistinct.markerAt? (Int.le_refl n) htop
  have hfindBody := hdistinct.markerAt? (by omega) hbody
  have hfindDone := hdistinct.markerAt? (by omega) hdone
  rw [hsize]
  refine ⟨fun E => .of_step (step_label htop), ?_, ?_, fun E => .of_step (step_jump hback hfindTop)⟩
  · intro E ht
    have hfirst : Leads I P 1 (a + 1 + pre.size) E (a + 1 + pre.size + 1 + 1) E :=
      .of_step (step_condJump_of_holds hbranch hfindBody ht)
    have hsecond : Leads I P 1 (a + 1 + pre.size + 1 + 1) E (a + 1 + pre.size + 1 + 1 + 1) E :=
      .of_step (step_label hbody)
    rw [hstart] at hsecond
    exact hfirst.trans hsecond
  · intro E ht
    have hfirst : Leads I P 1 (a + 1 + pre.size) E (a + 1 + pre.size + 1) E :=
      .of_step (step_condJump_of_not_holds hbranch ht)
    have hsecond : Leads I P 1 (a + 1 + pre.size + 1) E (a + 4 + pre.size + body.size + 1) E :=
      .of_step (step_jump hjump hfindDone)
    exact (hfirst.trans hsecond).trans (.of_step (step_label hdone))

/-- The block of a conditional lies behind its first three instructions. -/
theorem at_ifThen_block {test : Relation Text} {yes : Code}
    (hat : At P a ((ifThen test yes).lower n)) : At P (a + 3) (yes.lower (n + 2)) := by
  simp only [lower, at_cons, at_append] at hat
  exact hat.2.2.2.1

/-- Where the two blocks of a conditional lie. -/
theorem at_ifElse_blocks {test : Relation Text} {yes no : Code}
    (hat : At P a ((ifElse test yes no).lower n)) :
    At P (a + 1) (no.lower (n + 2)) ∧ At P (a + 3 + no.size) (yes.lower (n + 2 + no.labels)) := by
  simp only [lower, at_cons, at_append, length_lower] at hat
  have hstart : a + 1 + no.size + 1 + 1 = a + 3 + no.size := by omega
  rw [hstart] at hat
  exact ⟨hat.2.1, hat.2.2.2.2.1⟩

/-- Where the preparation and the block of a loop lie. -/
theorem at_loop_blocks {pre body : Code} {test : Relation Text}
    (hat : At P a ((loop pre test body).lower n)) :
    At P (a + 1) (pre.lower (n + 3)) ∧
    At P (a + 4 + pre.size) (body.lower (n + 3 + pre.labels)) := by
  simp only [lower, at_cons, at_append, length_lower] at hat
  have hstart : a + 1 + pre.size + 1 + 1 + 1 = a + 4 + pre.size := by omega
  rw [hstart] at hat
  exact ⟨hat.2.1, hat.2.2.2.2.2.1⟩

end Edges

section Correctness

open Machine

variable {I : Interpretation V} {P : Program} {E' : Text → V}

/-- What structured execution does, the machine does: from the end of lowered code it can be
traced back to the start. -/
theorem reaches_of_exec {code : Code} {E E₁ : Text → V} (h : Exec I code E E₁) {a : Nat} {n : Int}
    (hat : At P a (code.lower n)) (hdistinct : Distinct P n)
    (hend : FirstReaches I P P.length (a + code.size) E₁ E') :
    FirstReaches I P P.length a E E' := by
  induction h generalizing a n with
  | skip => exact hend
  | seq h₁ h₂ ih₁ ih₂ =>
    rw [lower, at_append, length_lower] at hat
    rw [size, ← Nat.add_assoc] at hend
    exact ih₁ hat.1 hdistinct (ih₂ hat.2 (hdistinct.mono (by omega)) hend)
  | assign => exact (Leads.of_step (step_assign hat.1)).back hend
  | load => exact (Leads.of_step (step_load hat.1)).back hend
  | ifThen_yes ht h ih =>
    obtain ⟨henter, -, hleave⟩ := leads_ifThen (I := I) hat hdistinct
    have hblock := ih (at_ifThen_block hat) (hdistinct.mono (by omega)) ((hleave _).back hend)
    exact (henter _ ht).back hblock
  | ifThen_no ht =>
    obtain ⟨-, hskip, -⟩ := leads_ifThen (I := I) hat hdistinct
    exact (hskip _ ht).back hend
  | ifElse_yes ht h ih =>
    obtain ⟨henter, -, hleave, -⟩ := leads_ifElse (I := I) hat hdistinct
    obtain ⟨-, hyes⟩ := at_ifElse_blocks hat
    have hblock := ih hyes (hdistinct.mono (by omega)) ((hleave _).back hend)
    exact (henter _ ht).back hblock
  | ifElse_no ht h ih =>
    obtain ⟨-, henter, -, hleave⟩ := leads_ifElse (I := I) hat hdistinct
    obtain ⟨hno, -⟩ := at_ifElse_blocks hat
    have hblock := ih hno (hdistinct.mono (by omega)) ((hleave _).back hend)
    exact (henter _ ht).back hblock
  | loop_again hpre ht hbody hrest ihpre ihbody ihrest =>
    obtain ⟨htop, henter, -, hback⟩ := leads_loop (I := I) hat hdistinct
    obtain ⟨hatPre, hatBody⟩ := at_loop_blocks hat
    have hagain := (hback _).back (ihrest hat hdistinct hend)
    have hblock := (henter _ ht).back (ihbody hatBody (hdistinct.mono (by omega)) hagain)
    exact (htop _).back (ihpre hatPre (hdistinct.mono (by omega)) hblock)
  | loop_done hpre ht ihpre =>
    obtain ⟨htop, -, hleave, -⟩ := leads_loop (I := I) hat hdistinct
    obtain ⟨hatPre, -⟩ := at_loop_blocks hat
    exact (htop _).back (ihpre hatPre (hdistinct.mono (by omega)) ((hleave _ ht).back hend))

/-- What the machine does, structured execution does: a run to the end of the program from the start
of lowered code passes the end of that code, in fewer steps, where structured execution ends. -/
theorem exec_of_reaches (code : Code) {E : Text → V} {a m : Nat} {n : Int}
    (hat : At P a (code.lower n)) (hdistinct : Distinct P n)
    (hrun : ReachesIn I P P.length E' m a E) :
    ∃ E₁ l, l ≤ m ∧ Exec I code E E₁ ∧ ReachesIn I P P.length E' l (a + code.size) E₁ := by
  induction code generalizing E a m n with
  | skip => exact ⟨E, m, Nat.le_refl m, .skip, hrun⟩
  | seq first second ih₁ ih₂ =>
    rw [lower, at_append, length_lower] at hat
    obtain ⟨E₁, l₁, hl₁, hexec₁, hrun₁⟩ := ih₁ hat.1 hdistinct hrun
    obtain ⟨E₂, l₂, hl₂, hexec₂, hrun₂⟩ := ih₂ hat.2 (hdistinct.mono (by omega)) hrun₁
    rw [Nat.add_assoc] at hrun₂
    exact ⟨E₂, l₂, by omega, .seq hexec₁ hexec₂, hrun₂⟩
  | assign dst left op right =>
    obtain ⟨l, rfl, hl⟩ := (Leads.of_step (step_assign hat.1) _ _).mp hrun
    exact ⟨_, l, by omega, .assign, hl⟩
  | load dst array index =>
    obtain ⟨l, rfl, hl⟩ := (Leads.of_step (step_load hat.1) _ _).mp hrun
    exact ⟨_, l, by omega, .load, hl⟩
  | ifThen test yes ih =>
    obtain ⟨henter, hskip, hleave⟩ := leads_ifThen (I := I) hat hdistinct
    cases ht : I.holds E test with
    | true =>
      obtain ⟨l, rfl, hl⟩ := (henter E ht _ _).mp hrun
      obtain ⟨E₁, l₁, hle, hexec, hl₁⟩ := ih (at_ifThen_block hat) (hdistinct.mono (by omega)) hl
      obtain ⟨l₂, rfl, hl₂⟩ := (hleave E₁ _ _).mp hl₁
      exact ⟨E₁, l₂, by omega, .ifThen_yes ht hexec, hl₂⟩
    | false =>
      obtain ⟨l, rfl, hl⟩ := (hskip E ht _ _).mp hrun
      exact ⟨E, l, by omega, .ifThen_no ht, hl⟩
  | ifElse test yes no ihyes ihno =>
    obtain ⟨henterYes, henterNo, hleaveYes, hleaveNo⟩ := leads_ifElse (I := I) hat hdistinct
    obtain ⟨hatNo, hatYes⟩ := at_ifElse_blocks hat
    cases ht : I.holds E test with
    | true =>
      obtain ⟨l, rfl, hl⟩ := (henterYes E ht _ _).mp hrun
      obtain ⟨E₁, l₁, hle, hexec, hl₁⟩ := ihyes hatYes (hdistinct.mono (by omega)) hl
      obtain ⟨l₂, rfl, hl₂⟩ := (hleaveYes E₁ _ _).mp hl₁
      exact ⟨E₁, l₂, by omega, .ifElse_yes ht hexec, hl₂⟩
    | false =>
      obtain ⟨l, rfl, hl⟩ := (henterNo E ht _ _).mp hrun
      obtain ⟨E₁, l₁, hle, hexec, hl₁⟩ := ihno hatNo (hdistinct.mono (by omega)) hl
      obtain ⟨l₂, rfl, hl₂⟩ := (hleaveNo E₁ _ _).mp hl₁
      exact ⟨E₁, l₂, by omega, .ifElse_no ht hexec, hl₂⟩
  | loop pre test body ihpre ihbody =>
    obtain ⟨htop, henter, hleave, hback⟩ := leads_loop (I := I) hat hdistinct
    obtain ⟨hatPre, hatBody⟩ := at_loop_blocks hat
    -- Every round of the loop takes steps, so the run that is left gets shorter.
    induction m using Nat.strongRecOn generalizing E with
    | ind m ih =>
      obtain ⟨l₁, rfl, hl₁⟩ := (htop E _ _).mp hrun
      obtain ⟨E₁, l₂, hle₂, hpre, hl₂⟩ := ihpre hatPre (hdistinct.mono (by omega)) hl₁
      cases ht : I.holds E₁ test with
      | true =>
        obtain ⟨l₃, rfl, hl₃⟩ := (henter E₁ ht _ _).mp hl₂
        obtain ⟨E₂, l₄, hle₄, hbody, hl₄⟩ := ihbody hatBody (hdistinct.mono (by omega)) hl₃
        obtain ⟨l₅, rfl, hl₅⟩ := (hback E₂ _ _).mp hl₄
        obtain ⟨E₃, l₆, hle₆, hrest, hl₆⟩ := ih l₅ (by omega) hl₅
        exact ⟨E₃, l₆, by omega, .loop_again hpre ht hbody hrest, hl₆⟩
      | false =>
        obtain ⟨l₃, rfl, hl₃⟩ := (hleave E₁ ht _ _).mp hl₂
        exact ⟨E₁, l₃, by omega, .loop_done hpre ht, hl₃⟩

/-- Executing lowered code behind a program reaches the end exactly as structured execution ends. -/
theorem firstReaches_lower_iff {p : Program} {n : Int} (code : Code)
    (hp : ∀ k, n ≤ k → Instr.label (Category.label.named k) ∉ p) (E : Text → V) :
    FirstReaches I (p ++ code.lower n) (p ++ code.lower n).length p.length E E' ↔
      Exec I code E E' := by
  have hat := at_length p (code.lower n)
  have hdistinct := distinct_append_lower code hp
  have hlength : (p ++ code.lower n).length = p.length + code.size := by
    rw [List.length_append, length_lower]
  constructor
  · rintro ⟨m, hrun⟩
    obtain ⟨E₁, l, -, hexec, hend⟩ := exec_of_reaches code hat hdistinct hrun
    rw [← hlength] at hend
    cases hend with
    | here => exact hexec
    | step hpc => exact absurd rfl hpc
  · intro hexec
    refine reaches_of_exec hexec hat hdistinct ⟨0, ?_⟩
    rw [← hlength]
    exact .here

end Correctness

end Code

end ThreeAddress
