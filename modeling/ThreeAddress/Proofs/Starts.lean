import Mathlib.Data.Nat.Find
import ThreeAddress.Proofs.Steps

/-!
# How a compilation starts

Settings are applied in order, and each scripted registry among them is asked for its
three collectors. A registry that has a collector already does no harm; the first answer
of another kind ends the start. The settings before it were applied in full, the
registries after it are never asked.

The run over a list of settings is cut at the first registry that refuses: `applyAll_append` is
about what stands before the cut and `applyAll_refused` about the cut itself.
-/

namespace ThreeAddress

theorem Registration.refusal?_eq_some {answer : Registration} {reason : Text} :
    answer.refusal? = some reason ↔ answer = .refused reason := by
  cases answer <;> simp [refusal?]

/-- None of the first `n` answers is a refusal. -/
def Willing (n : Nat) (answers : List Registration) : Prop :=
  ∀ k < n, ∀ reason, answers[k]? ≠ some (.refused reason)

/-- The answer with number `k` is a refusal, the first one. -/
structure FirstRefusal (answers : List Registration) (k : Nat) (reason : Text) : Prop where
  /-- The registry refuses there. -/
  refused : answers[k]? = some (.refused reason)
  /-- It has not refused before. -/
  willing : Willing k answers

theorem Willing.tail {n : Nat} {answer : Registration} {rest : List Registration}
    (h : Willing (n + 1) (answer :: rest)) : Willing n rest :=
  fun k hk => h (k + 1) (by omega)

theorem Willing.refusal?_head {n : Nat} {answer : Registration} {rest : List Registration}
    (h : Willing (n + 1) (answer :: rest)) : answer.refusal? = none := by
  refine Option.eq_none_iff_forall_ne_some.2 fun reason hreason => ?_
  rw [Registration.refusal?_eq_some] at hreason
  exact h 0 (by omega) reason (by rw [hreason]; rfl)

/-- A registry that does not refuse is asked for every collector. -/
theorem Willing.register_eq {n : Nat} {answers : List Registration} (h : Willing n answers) :
    register n answers = (n, none) := by
  induction n generalizing answers with
  | zero => rw [register]
  | succ n ih =>
    cases answers with
    | nil => rw [register]
    | cons answer rest => rw [register, h.refusal?_head, ih h.tail]

/-- A registry that refuses is asked up to that refusal. -/
theorem FirstRefusal.register_eq {n k : Nat} {answers : List Registration} {reason : Text}
    (hk : k < n) (h : FirstRefusal answers k reason) :
    register n answers = (k + 1, some reason) := by
  obtain ⟨n, rfl⟩ : ∃ m, n = m + 1 := ⟨n - 1, by omega⟩
  induction k generalizing n answers with
  | zero =>
    obtain ⟨rest, rfl⟩ : ∃ rest, answers = .refused reason :: rest := by
      have hhead := h.refused
      cases answers with
      | nil => cases hhead
      | cons answer rest => exact ⟨rest, by rw [Option.some.inj hhead]⟩
    rw [register, Registration.refusal?_eq_some.2 rfl]
  | succ k ih =>
    cases answers with
    | nil => cases h.refused
    | cons answer rest =>
      obtain ⟨m, rfl⟩ : ∃ m, n = m + 1 := ⟨n - 1, by omega⟩
      have hrest : register (m + 1) rest = (k + 1, some reason) :=
        ih ⟨h.refused, h.willing.tail⟩ m (by omega)
      rw [register, h.willing.refusal?_head, hrest]

theorem exists_firstRefusal {n : Nat} {answers : List Registration} (h : ¬ Willing n answers) :
    ∃ k < n, ∃ reason, FirstRefusal answers k reason := by
  classical
  have hsome : ∃ k, k < n ∧ ∃ reason, answers[k]? = some (.refused reason) := by
    simpa [Willing] using h
  obtain ⟨hlt, reason, hreason⟩ := Nat.find_spec hsome
  refine ⟨Nat.find hsome, hlt, reason, hreason, fun j hj other hother => ?_⟩
  exact Nat.find_min hsome hj ⟨by omega, other, hother⟩

theorem register_snd_eq_none {n : Nat} {answers : List Registration} :
    (register n answers).2 = none ↔ Willing n answers := by
  refine ⟨fun hnone => ?_, fun h => by rw [h.register_eq]⟩
  by_contra h
  obtain ⟨k, hk, reason, hfirst⟩ := exists_firstRefusal h
  rw [hfirst.register_eq hk] at hnone
  cases hnone

instance (n : Nat) (answers : List Registration) : Decidable (Willing n answers) :=
  decidable_of_iff _ register_snd_eq_none

namespace Setting

/-- A setting does not end the start: its registry, if it brings one, accepts
every collector or has it. -/
def Harmless : Setting → Prop
  | .scripted answers => Willing collectors answers
  | _ => True

instance : DecidablePred Harmless
  | .scripted answers => inferInstanceAs (Decidable (Willing collectors answers))
  | .limit _ | .dump | .reporter _ | .registry => inferInstanceAs (Decidable True)

theorem applyAll_cons {setting : Setting} (h : setting.isScripted = false) (c : Compilation)
    (rest : List Setting) : applyAll c (setting :: rest) = applyAll (setting.apply c) rest := by
  cases setting with
  | scripted answers => cases h
  | _ => rfl

/-- Harmless settings are all applied, with three calls to each registry, before the others are. -/
theorem applyAll_append {before : List Setting} (h : ∀ setting ∈ before, setting.Harmless)
    (c : Compilation) (rest : List Setting) :
    applyAll c (before ++ rest) =
      ⟨List.replicate (before.countP isScripted) collectors ++
        (applyAll (before.foldl apply c) rest).calls,
        (applyAll (before.foldl apply c) rest).outcome⟩ := by
  induction before generalizing c with
  | nil => rfl
  | cons setting before ih =>
    obtain ⟨hsetting, hbefore⟩ := List.forall_mem_cons.1 h
    rw [List.foldl_cons, List.cons_append]
    cases hscripted : setting.isScripted with
    | false =>
      rw [applyAll_cons hscripted, ih hbefore, List.countP_cons_of_neg (by simp [hscripted])]
    | true =>
      cases setting with
      | scripted answers =>
        rw [applyAll, Willing.register_eq hsetting, ih hbefore, List.countP_cons_of_pos hscripted,
          List.replicate_succ]
        rfl
      | _ => cases hscripted

/-- A registry that refuses ends the start, and no later registry is asked. -/
theorem applyAll_refused {answers : List Registration} {k : Nat} {reason : Text}
    (hk : k < collectors) (h : FirstRefusal answers k reason) (c : Compilation)
    (later : List Setting) :
    applyAll c (.scripted answers :: later) =
      ⟨(k + 1) :: List.replicate (later.countP isScripted) 0, .error (refusalFault reason)⟩ := by
  have hcalls : (later.filter isScripted).map (fun _ => 0) =
      List.replicate (later.countP isScripted) 0 := by
    rw [List.map_const', List.countP_eq_length_filter]
  rw [applyAll, h.register_eq hk, ← hcalls]

/-- Settings that are not all harmless can be cut at the first refusal. -/
theorem exists_first_harmful {settings : List Setting}
    (h : ¬ ∀ setting ∈ settings, setting.Harmless) :
    ∃ before answers later k reason, settings = before ++ .scripted answers :: later ∧
      (∀ setting ∈ before, setting.Harmless) ∧ k < collectors ∧ FirstRefusal answers k reason := by
  induction settings with
  | nil => exact absurd (fun setting hmem => by cases hmem) h
  | cons setting rest ih =>
    by_cases hsetting : setting.Harmless
    · have hrest : ¬ ∀ setting ∈ rest, setting.Harmless := fun hall =>
        h (List.forall_mem_cons.2 ⟨hsetting, hall⟩)
      obtain ⟨before, answers, later, k, reason, rfl, hbefore, hfirst⟩ := ih hrest
      exact ⟨setting :: before, answers, later, k, reason, rfl,
        List.forall_mem_cons.2 ⟨hsetting, hbefore⟩, hfirst⟩
    · cases setting with
      | scripted answers =>
        obtain ⟨k, hk, reason, hfirst⟩ := exists_firstRefusal hsetting
        exact ⟨[], answers, rest, k, reason, rfl, fun _ hmem => (by cases hmem), hk, hfirst⟩
      | _ => exact absurd trivial hsetting

/-- The compilation that a list of settings asks for, with nothing done yet. -/
def fresh (name : Text) (settings : List Setting) : Compilation where
  name := name
  table :=
    { symbols := #[], used := #[], index := {}, limit := (settings.filterMap limit?).getLastD 0 }
  supply := ⟨0, 0⟩
  program := []
  errors := []
  reporter := lastReporter settings
  dumps := settings.contains .dump

/-- With harmless settings a compilation starts, and every registry is asked three times. -/
theorem start_of_harmless {settings : List Setting} (h : ∀ setting ∈ settings, setting.Harmless)
    (name : Text) :
    Compilation.start name settings =
      ⟨List.replicate (settings.countP isScripted) collectors, .ok (fresh name settings)⟩ := by
  have hall := applyAll_append h { name } []
  rw [List.append_nil, applyAll, List.append_nil] at hall
  rw [Compilation.start, hall]
  -- The record is known from what settings do whenever they end well.
  have houtcome : (applyAll { name } settings).outcome = .ok (settings.foldl apply { name }) := by
    rw [hall]
  rw [applyAll_eq_ok houtcome]
  rfl

/-- With a first refusal a compilation does not start. -/
theorem start_of_refused {before later : List Setting} {answers : List Registration} {k : Nat}
    {reason : Text} (hbefore : ∀ setting ∈ before, setting.Harmless) (hk : k < collectors)
    (h : FirstRefusal answers k reason) (name : Text) :
    Compilation.start name (before ++ .scripted answers :: later) =
      ⟨List.replicate (before.countP isScripted) collectors ++
        (k + 1) :: List.replicate (later.countP isScripted) 0, .error (refusalFault reason)⟩ := by
  rw [Compilation.start, applyAll_append hbefore, applyAll_refused hk h]

/-- A start fails just if some registry refuses one of the three collectors. The fault then
tells the first refusal; the registry that gave it was asked up to there, those before it for
all three collectors and those after it for none. Otherwise every registry was asked for all
three, and the compilation has the last limit and the last reporter, logs its program if that
was asked for, and has nothing in it. -/
theorem start_stops_at_first_refusal (name : Text) (settings : List Setting) :
    ((∃ f, (Compilation.start name settings).outcome = .error f) ↔
      ∃ answers k reason, .scripted answers ∈ settings ∧ k < 3 ∧
        answers[k]? = some (.refused reason)) ∧
    (∀ before answers later k reason, settings = before ++ .scripted answers :: later →
      (∀ setting ∈ before, setting.Harmless) → k < 3 → FirstRefusal answers k reason →
      (∃ f, (Compilation.start name settings).outcome = .error f ∧
        f.text = "registering compiler metrics: " ++ reason) ∧
      (Compilation.start name settings).calls =
        List.replicate (before.countP isScripted) 3 ++
          (k + 1) :: List.replicate (later.countP isScripted) 0) ∧
    ((∀ setting ∈ settings, setting.Harmless) →
      (Compilation.start name settings).calls = List.replicate (settings.countP isScripted) 3 ∧
      (Compilation.start name settings).outcome = .ok (fresh name settings)) := by
  refine ⟨⟨?_, ?_⟩, ?_, ?_⟩
  · rintro ⟨f, hf⟩
    have hharm : ¬ ∀ setting ∈ settings, setting.Harmless := by
      intro hall
      rw [start_of_harmless hall] at hf
      cases hf
    obtain ⟨before, answers, later, k, reason, rfl, -, hk, hfirst⟩ := exists_first_harmful hharm
    exact ⟨answers, k, reason, by simp, hk, hfirst.refused⟩
  · rintro ⟨answers, k, reason, hmem, hk, hrefused⟩
    have hharm : ¬ ∀ setting ∈ settings, setting.Harmless := fun hall =>
      hall _ hmem k hk reason hrefused
    obtain ⟨before, answers, later, k, reason, rfl, hbefore, hk, hfirst⟩ :=
      exists_first_harmful hharm
    exact ⟨refusalFault reason, by rw [start_of_refused hbefore hk hfirst]⟩
  · rintro before answers later k reason rfl hbefore hk hfirst
    rw [start_of_refused hbefore hk hfirst]
    exact ⟨⟨refusalFault reason, rfl, rfl⟩, rfl⟩
  · intro hall
    rw [start_of_harmless hall]
    exact ⟨rfl, rfl⟩

/-- The second of three registries refuses its second collector; without it the compilation starts,
although the first registry would refuse a fourth collector. -/
theorem start_stops_at_second_registry :
    let before : List Setting :=
      [.limit 4, .scripted [.duplicate, .wrappedDuplicate, .accepted, .refused "late"], .dump]
    let later : List Setting := [.limit 5, .scripted [.refused "never"], .reporter [.log]]
    let calm : List Setting := before ++ [.registry, .limit 7]
    let refusing : List Setting := before ++ .scripted [.accepted, .refused "full"] :: later
    ((∀ setting ∈ before, setting.Harmless) ∧
      FirstRefusal [.accepted, .refused "full"] 1 "full" ∧
      (∃ f, (Compilation.start "unit" refusing).outcome = .error f ∧
        f.text = "registering compiler metrics: " ++ "full") ∧
      (Compilation.start "unit" refusing).calls = [3, 2, 0]) ∧
    ((∀ setting ∈ calm, setting.Harmless) ∧ (Compilation.start "unit" calm).calls = [3] ∧
      (Compilation.start "unit" calm).outcome = .ok (fresh "unit" calm)) := by
  intro before later calm refusing
  have hbefore : ∀ setting ∈ before, setting.Harmless := by decide
  have hcalm : ∀ setting ∈ calm, setting.Harmless := by decide
  have hfirst : FirstRefusal [.accepted, .refused "full"] 1 "full" := ⟨rfl, by decide⟩
  obtain ⟨hfault, hcalls⟩ :=
    (start_stops_at_first_refusal "unit" refusing).2.1 before _ later 1 "full" rfl hbefore
      (by decide) hfirst
  exact ⟨⟨hbefore, hfirst, hfault, hcalls⟩, hcalm,
    (start_stops_at_first_refusal "unit" calm).2.2 hcalm⟩

end Setting

end ThreeAddress
