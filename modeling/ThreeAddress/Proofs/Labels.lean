import ThreeAddress.Proofs.Chronicle
import ThreeAddress.Proofs.Positions

/-!
# Labels stay intact

Every label is given out once, and is then either marked, or held by a conditional or loop that will
mark it, or with a caller who may mark it. This is kept by every step, for any names held by the
statements around it, so a block cannot mark what the statements around it hold. Main statement:
when callers mark only labels that they were given, each once, the markers of a program are distinct
at every moment, and each jump of a conditional or loop goes to the one marker for it, in the code
that the statement appended.
-/

open Relation (ReflTransGen)

namespace ThreeAddress

open Script (Action Bindings Statement UnitId)

namespace Frame

/-- A jump of a conditional or loop and the marker it aims at stand in the stretch
that the statement appended. The jump back of a loop aims at the start of the stretch,
and no other jump goes back. -/
def Aims (f : Frame) (P : Program) (p : Nat) : Prop :=
  f.start ≤ p ∧ p < f.stop ∧ ∃ target q, P[p]?.bind Instr.target? = some target ∧
    P[q]? = some (.label target) ∧ f.start ≤ q ∧ q < f.stop ∧ (q < p ↔ f.back = some p) ∧
    (f.back = some p → q = f.start)

/-- All jumps of a conditional or loop aim well. -/
def Laid (f : Frame) (P : Program) : Prop := ∀ p ∈ f.jumps, f.Aims P p

variable {f : Frame} {P : Program} {p q : Nat} {i : Instr} {target : Text}

theorem aims_forward (hp : P[p]? = some i) (htarget : i.target? = some target)
    (hq : P[q]? = some (.label target)) (hstart : f.start ≤ p) (hpq : p < q) (hstop : q < f.stop)
    (hback : f.back ≠ some p) : f.Aims P p := by
  have hbind : P[p]?.bind Instr.target? = some target := by
    rw [hp]
    exact htarget
  have horder : q < p ↔ f.back = some p := by
    constructor
    · intro h
      omega
    · intro h
      exact absurd h hback
  exact ⟨hstart, by omega, target, q, hbind, hq, by omega, hstop, horder, fun h => absurd h hback⟩

theorem aims_back (hp : P[p]? = some i) (htarget : i.target? = some target)
    (hq : P[f.start]? = some (.label target)) (hstart : f.start < p) (hstop : p < f.stop)
    (hback : f.back = some p) : f.Aims P p := by
  have hbind : P[p]?.bind Instr.target? = some target := by
    rw [hp]
    exact htarget
  exact ⟨by omega, hstop, target, f.start, hbind, hq, Nat.le_refl _, by omega,
    ⟨fun _ => hback, fun _ => hstart⟩, fun _ => rfl⟩

/-- What stands in a program stands in every extension. -/
theorem Laid.mono {Q : Program} (h : f.Laid P) (hPQ : P <+: Q) : f.Laid Q := by
  intro p hp
  obtain ⟨hstart, hstop, target, q, htarget, hmarker, hrest⟩ := h p hp
  obtain ⟨i, hi, ht⟩ := Option.bind_eq_some_iff.mp htarget
  have htarget' : Q[p]?.bind Instr.target? = some target := by
    rw [Program.getElem?_of_prefix hPQ hi]
    exact ht
  exact ⟨hstart, hstop, target, q, htarget', Program.getElem?_of_prefix hPQ hmarker, hrest⟩

end Frame

/-- Where the labels of a unit are: in markers of its program, held by the statements that run, or
with callers. All are numbered below the counter, and none is in two places. -/
structure Names (u : UnitId) (held : List Text) (events : List Event) (P : Program) (n : Int) :
    Prop where
  apart : (P.markers ++ held).Nodup
  numbered : ∀ t ∈ P.markers ++ held, ∃ k, k < n ∧ t = Category.label.named k
  issued : ∀ t, .issued u t ∈ events → ∃ k, k < n ∧ t = Category.label.named k
  pending : ∀ t, .issued u t ∈ events → .placed u t ∉ events → t ∉ P.markers ++ held

namespace Names

variable {u : UnitId} {held held' : List Text} {events : List Event} {P P' : Program} {n n' : Int}

/-- What is numbered below the counter stays below it when it advances. -/
theorem below_mono {t : Text} (h : ∃ k, k < n ∧ t = Category.label.named k) (hn : n ≤ n') :
    ∃ k, k < n' ∧ t = Category.label.named k := by
  obtain ⟨k, hk, heq⟩ := h
  exact ⟨k, by omega, heq⟩

/-- A label whose number the counter has reached is nowhere yet. -/
theorem next_not_mem (h : Names u held events P n) :
    Category.label.named n ∉ P.markers ++ held := by
  intro hmem
  obtain ⟨k, hk, heq⟩ := h.numbered _ hmem
  have := Category.named_injective heq
  omega

/-- The order of the names held does not matter, and names can be given up. -/
theorem weaken (h : Names u held events P n) {lost : List Text}
    (hperm : held.Perm (lost ++ held')) :
    Names u held' events P n := by
  have hsub : ∀ t ∈ P.markers ++ held', t ∈ P.markers ++ held := by
    intro t ht
    rw [List.mem_append] at ht ⊢
    rcases ht with ht | ht
    · exact .inl ht
    · exact .inr (hperm.mem_iff.mpr (List.mem_append_right _ ht))
  have hall : (P.markers ++ (lost ++ held')).Nodup :=
    (hperm.append_left P.markers).nodup_iff.mp h.apart
  have hsublist : (P.markers ++ held').Sublist (P.markers ++ (lost ++ held')) :=
    (List.sublist_append_right lost held').append_left _
  exact ⟨hsublist.nodup hall, fun t ht => h.numbered t (hsub t ht), h.issued,
    fun t hi hp ht => h.pending t hi hp (hsub t ht)⟩

/-- An event that gives out no label of the unit. -/
theorem note (h : Names u held events P n) {e : Event} (hissued : ∀ t, e ≠ .issued u t) :
    Names u held (events ++ [e]) P n := by
  have hmem : ∀ t, Event.issued u t ∈ events ++ [e] → Event.issued u t ∈ events := by
    intro t ht
    rcases List.mem_append.mp ht with ht | ht
    · exact ht
    · exact absurd (List.mem_singleton.mp ht).symm (hissued t)
  refine ⟨h.apart, h.numbered, fun t ht => h.issued t (hmem t ht), ?_⟩
  intro t ht hp
  exact h.pending t (hmem t ht) fun hp' => hp (List.mem_append_left _ hp')

/-- Code without markers, and a counter that may have advanced. -/
theorem advance (h : Names u held events P n) (hmarkers : P'.markers = P.markers) (hn : n ≤ n') :
    Names u held events P' n' := by
  refine ⟨by rw [hmarkers]; exact h.apart, ?_, fun t ht => below_mono (h.issued t ht) hn,
    by rw [hmarkers]; exact h.pending⟩
  intro t ht
  rw [hmarkers] at ht
  exact below_mono (h.numbered t ht) hn

/-- A statement takes the next label and holds it. -/
theorem take (h : Names u held events P n) :
    Names u (Category.label.named n :: held) events P (n + 1) := by
  have hfresh := h.next_not_mem
  have hmem : ∀ t, t ∈ P.markers ++ Category.label.named n :: held ↔
      t = Category.label.named n ∨ t ∈ P.markers ++ held := by
    intro t
    simp only [List.mem_append, List.mem_cons]
    tauto
  refine ⟨?_, ?_, ?_, ?_⟩
  · have hperm : (P.markers ++ Category.label.named n :: held).Perm
        (Category.label.named n :: (P.markers ++ held)) := List.perm_middle
    exact hperm.nodup_iff.mpr (List.nodup_cons.mpr ⟨hfresh, h.apart⟩)
  · intro t ht
    rcases (hmem t).mp ht with rfl | ht
    · exact ⟨n, by omega, rfl⟩
    · exact below_mono (h.numbered t ht) (by omega)
  · intro t ht
    exact below_mono (h.issued t ht) (by omega)
  · intro t hi hp ht
    rcases (hmem t).mp ht with heq | ht
    · obtain ⟨k, hk, hname⟩ := h.issued t hi
      have := Category.named_injective (heq.symm.trans hname)
      omega
    · exact h.pending t hi hp ht

/-- A caller is given the next label. -/
theorem issue (h : Names u held events P n) :
    Names u held (events ++ [.issued u (Category.label.named n)]) P (n + 1) := by
  have hcases : ∀ t, Event.issued u t ∈ events ++ [.issued u (Category.label.named n)] →
      Event.issued u t ∈ events ∨ t = Category.label.named n := by
    intro t ht
    rcases List.mem_append.mp ht with ht | ht
    · exact .inl ht
    · have heq := List.mem_singleton.mp ht
      exact .inr (Event.issued.inj heq).2
  refine ⟨h.apart, ?_, ?_, ?_⟩
  · intro t ht
    exact below_mono (h.numbered t ht) (by omega)
  · intro t ht
    rcases hcases t ht with ht | rfl
    · exact below_mono (h.issued t ht) (by omega)
    · exact ⟨n, by omega, rfl⟩
  · intro t ht hp
    rcases hcases t ht with ht | rfl
    · exact h.pending t ht fun hp' => hp (List.mem_append_left _ hp')
    · exact h.next_not_mem

/-- A caller marks a label that was given out and not marked yet. -/
theorem place (h : Names u held events P n) {t : Text}
    (hallowed : Event.Allowed u events (.placed u t)) :
    Names u held (events ++ [.placed u t]) (P ++ [.label t]) n := by
  obtain ⟨hissued, hplaced⟩ := hallowed rfl
  have hfree := h.pending t hissued hplaced
  have hmarkers : Program.markers (P ++ [.label t]) = P.markers ++ [t] := by
    rw [Program.markers_append]
    rfl
  have hmem : ∀ x, x ∈ P.markers ++ [t] ++ held ↔ x = t ∨ x ∈ P.markers ++ held := by
    intro x
    simp only [List.mem_append, List.mem_singleton]
    tauto
  have hold : ∀ x, Event.issued u x ∈ events ++ [.placed u t] → Event.issued u x ∈ events := by
    intro x hx
    rcases List.mem_append.mp hx with hx | hx
    · exact hx
    · cases List.mem_singleton.mp hx
  refine ⟨?_, ?_, fun x hx => h.issued x (hold x hx), ?_⟩
  · have hperm : (P.markers ++ [t] ++ held).Perm (t :: (P.markers ++ held)) := by
      rw [List.append_assoc]
      exact List.perm_middle
    rw [hmarkers]
    exact hperm.nodup_iff.mpr (List.nodup_cons.mpr ⟨hfree, h.apart⟩)
  · intro x hx
    rw [hmarkers] at hx
    rcases (hmem x).mp hx with rfl | hx
    · exact h.issued x hissued
    · exact h.numbered x hx
  · intro x hi hp hx
    rw [hmarkers] at hx
    rcases (hmem x).mp hx with rfl | hx
    · exact hp (List.mem_append_right _ (List.mem_singleton_self _))
    · exact h.pending x (hold x hi) (fun hp' => hp (List.mem_append_left _ hp')) hx

/-- A statement marks a label that it holds. -/
theorem mark {t : Text} (h : Names u (t :: held) events P n) :
    Names u held events (P ++ [.label t]) n := by
  have hsame : Program.markers (P ++ [.label t]) ++ held = P.markers ++ t :: held := by
    rw [Program.markers_append, List.append_assoc]
    rfl
  exact ⟨by rw [hsame]; exact h.apart, by rw [hsame]; exact h.numbered, h.issued,
    by rw [hsame]; exact h.pending⟩

end Names

/-- The program of a unit at a moment. -/
def Moment.program (u : UnitId) (m : Moment) : Program := (m.after.unit u).program

/-- A chronicle is in order for a unit while statements hold some of its labels: its program was
only extended, every conditional and loop that ended is laid out well, and, if callers kept to what
is allowed, the labels are where they should be. -/
structure Intact (u : UnitId) (held : List Text) (χ : Chronicle) (c : Compilation) : Prop where
  unit : χ.session.unit? u = some c
  grown : (χ.moments.map (Moment.program u)).Pairwise (· <+: ·)
  last : ∀ m ∈ χ.moments, m.program u <+: c.program
  frames : ∀ m ∈ χ.moments, ∀ f, m.event = .closed f → f.unit = u → f.Laid (m.program u)
  names : Event.Disciplined u [] χ.events →
    Names u held χ.events c.program (c.supply.number .label)

namespace Intact

variable {u : UnitId} {held held' : List Text} {χ : Chronicle} {c c' : Compilation}

theorem weaken (h : Intact u held χ c) {lost : List Text} (hperm : held.Perm (lost ++ held')) :
    Intact u held' χ c :=
  ⟨h.unit, h.grown, h.last, h.frames, fun hd => (h.names hd).weaken hperm⟩

/-- One more moment keeps a chronicle in order if it extends the program and keeps the labels. -/
theorem record (h : Intact u held χ c) {s' : Session} {e : Event} (hunit : s'.unit? u = some c')
    (hgrow : c.program <+: c'.program)
    (hframe : ∀ f, e = .closed f → f.unit = u → f.Laid c'.program)
    (hnames : Event.Allowed u χ.events e →
      Names u held χ.events c.program (c.supply.number .label) →
      Names u held' (χ.events ++ [e]) c'.program (c'.supply.number .label)) :
    Intact u held' ⟨s', χ.moments ++ [⟨e, s'⟩]⟩ c' := by
  have hprogram : Moment.program u ⟨e, s'⟩ = c'.program := by
    rw [Moment.program, Session.unit_of_unit? hunit]
  have hevents : Chronicle.events ⟨s', χ.moments ++ [⟨e, s'⟩]⟩ = χ.events ++ [e] := by
    rw [Chronicle.events, List.map_append]
    rfl
  refine ⟨hunit, ?_, ?_, ?_, ?_⟩
  · rw [List.map_append, List.pairwise_append]
    refine ⟨h.grown, List.pairwise_singleton _ _, ?_⟩
    intro p hp q hq
    obtain ⟨m, hm, rfl⟩ := List.mem_map.mp hp
    rw [List.map_singleton, List.mem_singleton, hprogram] at hq
    rw [hq]
    exact (h.last m hm).trans hgrow
  · intro m hm
    rcases List.mem_append.mp hm with hm | hm
    · exact (h.last m hm).trans hgrow
    · have hend : m.program u = c'.program := by rw [List.mem_singleton.mp hm, hprogram]
      exact ⟨[], by rw [hend, List.append_nil]⟩
  · intro m hm f hf hu
    rcases List.mem_append.mp hm with hm | hm
    · exact h.frames m hm f hf hu
    · rw [List.mem_singleton.mp hm] at hf ⊢
      rw [hprogram]
      exact hframe f hf hu
  · intro hd
    rw [hevents] at hd ⊢
    obtain ⟨hbefore, hallowed⟩ := (Event.disciplined_append_singleton u [] χ.events e).mp hd
    exact hnames hallowed (h.names hbefore)

/-- A step that is nothing to callers keeps a chronicle in order if it extends the
program and keeps the labels. -/
theorem work (h : Intact u held χ c) {s' : Session} (hunit : s'.unit? u = some c')
    (hgrow : c.program <+: c'.program)
    (hnames : Names u held χ.events c.program (c.supply.number .label) →
      Names u held' χ.events c'.program (c'.supply.number .label)) :
    Intact u held' ⟨s', χ.moments ++ [⟨.worked, s'⟩]⟩ c' := by
  refine h.record hunit hgrow ?_ ?_
  · intro f hf
    cases hf
  · intro _ hbefore
    exact (hnames hbefore).note fun t ht => by cases ht

end Intact

/-- The program of a unit whose chronicle is in order. -/
def Stands (u : UnitId) (held : List Text) (P : Program) (χ : Chronicle) : Prop :=
  ∃ c, Intact u held χ c ∧ c.program = P

/-- A chronicle is in order for a unit, whatever its program. -/
def Lives (u : UnitId) (held : List Text) (χ : Chronicle) : Prop := ∃ P, Stands u held P χ

theorem Stands.lives {u : UnitId} {held : List Text} {P : Program} {χ : Chronicle}
    (h : Stands u held P χ) : Lives u held χ := ⟨P, h⟩

/-- A statement that ends early gives up what it holds. -/
theorem Lives.giveUp {u : UnitId} {held : List Text} (lost : List Text) {χ : Chronicle}
    (h : Lives u (lost ++ held) χ) : Lives u held χ := by
  obtain ⟨P, c, hintact, hP⟩ := h
  exact ⟨P, c, hintact.weaken (List.Perm.refl _), hP⟩

/-- Where a condition holds, work leads to one condition when it ends normally and to another
when an overflow ends it. -/
def Ensures {α : Type} (before : Chronicle → Prop) (x : ChronicleM α) (after : α → Chronicle → Prop)
    (failed : Chronicle → Prop) : Prop :=
  ∀ χ, before χ → match x.run χ with
    | (.ok a, χ') => after a χ'
    | (.error _, χ') => failed χ'

namespace Ensures

variable {α β : Type} {A : Chronicle → Prop} {B : α → Chronicle → Prop} {C D : Chronicle → Prop}

theorem pure {a : α} (h : ∀ χ, A χ → B a χ) : Ensures A (Pure.pure a) B C := h

theorem bind {E : β → Chronicle → Prop} {x : ChronicleM α} {f : α → ChronicleM β}
    (hx : Ensures A x B D) (hD : ∀ χ, D χ → C χ) (hf : ∀ a, Ensures (B a) (f a) E C) :
    Ensures A (x >>= f) E C := by
  intro χ hA
  have hfirst := hx χ hA
  rw [run_bind]
  rcases hrun : x.run χ with ⟨r, χ'⟩
  rw [hrun] at hfirst
  cases r with
  | ok a => exact hf a χ' hfirst
  | error e => exact hD χ' hfirst

end Ensures

/-- Work extends the program of a unit and keeps its chronicle in order, whatever labels are held by
the statements around it. -/
def Keeps {α : Type} (u : UnitId) (x : ChronicleM α) : Prop :=
  ∀ held P, Ensures (Stands u held P) x (fun _ χ => ∃ code, Stands u held (P ++ code) χ)
    (Lives u held)

namespace Keeps

variable {α β : Type} {u : UnitId}

/-- Work that keeps a chronicle in order whether or not it fails. -/
theorem of_intact {x : ChronicleM α}
    (h : ∀ held χ c, Intact u held χ c →
      ∃ c' code, Intact u held (x.run χ).2 c' ∧ c'.program = c.program ++ code) : Keeps u x := by
  intro held P χ hχ
  obtain ⟨c, hintact, rfl⟩ := hχ
  obtain ⟨c', code, hintact', hprogram⟩ := h held χ c hintact
  rcases hrun : x.run χ with ⟨r, χ'⟩
  rw [hrun] at hintact'
  cases r with
  | ok a => exact ⟨code, c', hintact', hprogram⟩
  | error e => exact ⟨c'.program, c', hintact', rfl⟩

theorem pure (a : α) : Keeps u (Pure.pure a : ChronicleM α) :=
  of_intact fun _ _ c h => ⟨c, [], h, (List.append_nil _).symm⟩

theorem ask (question : Session → α) : Keeps u (Chronicle.ask question) :=
  of_intact fun _ _ c h => ⟨c, [], h, (List.append_nil _).symm⟩

theorem bind {x : ChronicleM α} {f : α → ChronicleM β} (hx : Keeps u x) (hf : ∀ a, Keeps u (f a)) :
    Keeps u (x >>= f) := by
  intro held P
  refine (hx held P).bind (fun _ h => h) fun a => ?_
  rintro χ ⟨code, hχ⟩
  have hrest := hf a held (P ++ code) χ hχ
  rcases hrun : (f a).run χ with ⟨r, χ'⟩
  rw [hrun] at hrest
  cases r with
  | ok b =>
    obtain ⟨later, hχ'⟩ := hrest
    rw [List.append_assoc] at hχ'
    exact ⟨code ++ later, hχ'⟩
  | error e => exact hrest

/-- A step that leaves the code and the labels of a unit alone and is noted as neither giving out
one of its labels nor ending one of its statements. -/
theorem of_same_code {event : Session → Except Overflow α → Event} {work : SessionM α}
    (hissued : ∀ s r t, event s r ≠ .issued u t)
    (hclosed : ∀ s r f, event s r = .closed f → f.unit ≠ u)
    (hwork : Session.Moves u Compilation.Note work) : Keeps u (Chronicle.note event work) := by
  refine of_intact fun held χ c h => ?_
  obtain ⟨c', hc', hnotes⟩ := hwork χ.session c h.unit
  obtain ⟨hprogram, hsupply⟩ := Compilation.notes_keep_code hnotes
  refine ⟨c', [], ?_, by rw [hprogram, List.append_nil]⟩
  have hgrow : c.program <+: c'.program := ⟨[], by rw [hprogram, List.append_nil]⟩
  refine h.record hc' hgrow ?_ ?_
  · intro f hf hu
    exact absurd hu (hclosed _ _ f hf)
  · intro _ hnames
    rw [hsupply, hprogram]
    exact hnames.note (hissued _ _)

/-- A step that leaves the code and the labels of a unit alone and is nothing to callers. -/
theorem of_worked {work : SessionM α} (hwork : Session.Moves u Compilation.Note work) :
    Keeps u (Chronicle.note (fun _ _ => .worked) work) := by
  refine of_same_code ?_ ?_ hwork
  · intro s r t h
    cases h
  · intro s r f h
    cases h

end Keeps

namespace Event

variable {w u : UnitId} {a : Action} {s : Session} {r : Except Overflow Session.Result}

/-- An action does not end a conditional or loop. -/
theorem ofAction_ne_closed (f : Frame) : ofAction w a s r ≠ .closed f := by
  intro h
  unfold ofAction at h
  split at h <;> cases h

/-- An action gives out labels of its own unit only. -/
theorem unit_of_ofAction_issued {t : Text} (h : ofAction w a s r = .issued u t) : w = u := by
  unfold ofAction at h
  split at h <;> cases h
  rfl

/-- An action that neither emits nor takes a label nor sets the counters is nothing to callers. -/
theorem ofAction_of_quiet (h : a.Quiet) : ofAction w a s r = .worked := by
  cases a with
  | emit r bind => exact h.elim
  | label bind => exact h.elim
  | setCounters temps labels => exact h.elim
  | _ => rfl

end Event

/-- A request other than for a marker adds no marker and takes no label. -/
theorem Compilation.request_keeps_labels {r : Request Text} (hr : ∀ t, r ≠ .mark t)
    (c : Compilation) :
    ∃ code : Program, (c.request r).program = c.program ++ code ∧ code.markers = [] ∧
      (c.request r).supply.number .label = c.supply.number .label := by
  have hmarker : ∀ dst, Program.markers [r.instr dst] = [] := by
    intro dst
    cases r with
    | mark t => exact absurd rfl (hr t)
    | _ => rfl
  cases hs : r.stores with
  | false =>
    rw [request_of_not_stores hs []]
    exact ⟨[r.instr []], rfl, hmarker [], rfl⟩
  | true =>
    by_cases ht : c.supply.number .temp = NameSupply.top
    · rw [request_of_eq_top hs ht]
      exact ⟨[], (List.append_nil _).symm, rfl, rfl⟩
    · rw [request_of_ne_top hs ht]
      refine ⟨[r.instr (Category.temp.named (c.supply.number .temp))], rfl, hmarker _, ?_⟩
      exact NameSupply.number_advance ht .label

section Actions

variable {u : UnitId} {held : List Text} {χ : Chronicle} {c : Compilation}

/-- A request for an instruction that is no marker. -/
theorem Intact.request (h : Intact u held χ c) {r : Request Text}
    (hr : ∀ t, r ≠ .mark t) {e : Event} (he : e = .worked) {s' : Session}
    (ht : Session.Touched u (·.request r) χ.session s') :
    ∃ code, Intact u held ⟨s', χ.moments ++ [⟨e, s'⟩]⟩ (c.request r) ∧
      (c.request r).program = c.program ++ code := by
  obtain ⟨code, hprogram, hmarkers, hnumber⟩ := Compilation.request_keeps_labels hr c
  refine ⟨code, ?_, hprogram⟩
  have hgrow : c.program <+: (c.request r).program := by
    rw [hprogram]
    exact List.prefix_append _ _
  subst he
  refine h.work (ht.self h.unit) hgrow fun hnames => ?_
  rw [hnumber]
  refine hnames.advance ?_ (Int.le_refl _)
  rw [hprogram, Program.markers_append, hmarkers, List.append_nil]

/-- A request of a caller for a marker. -/
theorem Intact.place (h : Intact u held χ c) {t : Text} {s' : Session}
    (ht : Session.Touched u (·.request (.mark t)) χ.session s') :
    Intact u held ⟨s', χ.moments ++ [⟨.placed u t, s'⟩]⟩ (c.emit (.label t)) := by
  have hunit := ht.self h.unit
  refine h.record hunit (List.prefix_append _ _) ?_ ?_
  · intro f hf
    cases hf
  · intro hallowed hnames
    exact hnames.place hallowed

/-- A label given to a caller, or none because there is none left. -/
theorem Intact.issue (h : Intact u held χ c) (bind : Option Script.Operand) {s' : Session}
    (ht : Session.Touched u (·.take .label) χ.session s') :
    Intact u held ⟨s', χ.moments ++ [⟨Event.ofAction u (.label bind) χ.session
      ((c.supply.fresh .label).1.map Session.Result.label), s'⟩]⟩ (c.take .label) := by
  have hunit := ht.self h.unit
  by_cases htop : c.supply.number .label = NameSupply.top
  · rw [NameSupply.fresh_of_eq_top htop]
    rw [Compilation.take_of_eq_top htop] at hunit ⊢
    refine h.record hunit List.prefix_rfl ?_ ?_
    · intro f hf
      cases hf
    · intro _ hnames
      exact hnames.note fun t ht => by cases ht
  · rw [NameSupply.fresh_of_ne_top htop]
    rw [Compilation.take_of_ne_top htop] at hunit ⊢
    refine h.record hunit List.prefix_rfl ?_ ?_
    · intro f hf
      cases hf
    · intro _ hnames
      change Names u held _ c.program ((c.supply.advance .label).number .label)
      rw [NameSupply.number_advance_self htop]
      exact hnames.issue

/-- Counters set to no less than they were. -/
theorem Intact.counters (h : Intact u held χ c) {supply : NameSupply} {s' : Session}
    (ht : Session.Touched u (fun c => { c with supply }) χ.session s') :
    Intact u held ⟨s', χ.moments ++ [⟨.counters u c.supply supply, s'⟩]⟩ { c with supply } := by
  have hunit := ht.self h.unit
  refine h.record hunit List.prefix_rfl ?_ ?_
  · intro f hf
    cases hf
  · intro hallowed hnames
    have hle : c.supply.labels ≤ supply.labels := (hallowed rfl).2
    exact (hnames.note fun t ht => by cases ht).advance rfl (Int64.le_iff_toInt_le.mp hle)

/-- An action keeps the chronicle of every unit in order. -/
theorem keeps_perform (v : Verbosity) (w : UnitId) (a : Action) :
    Keeps u ((Chronicle.host v).perform w a) := by
  by_cases hw : w = u
  · subst hw
    by_cases hq : a.Quiet
    · refine .of_same_code ?_ ?_ (Session.moves_runAction_of_quiet v w hq)
      · intro s r t ht
        rw [Event.ofAction_of_quiet hq] at ht
        cases ht
      · intro s r f hf
        exact absurd hf (Event.ofAction_ne_closed f)
    refine .of_intact fun held χ c h => ?_
    have hnote {r s'} (h : (Session.runAction v w a).run χ.session = (r, s')) :
        ((Chronicle.host v).perform w a).run χ =
          (r, ⟨s', χ.moments ++ [⟨Event.ofAction w a χ.session r, s'⟩]⟩) :=
      Chronicle.note_run (Event.ofAction w a) h
    obtain ⟨r, bind, rfl⟩ | ⟨bind, rfl⟩ | ⟨temps, labels, rfl⟩ := Action.cases_of_not_quiet hq
    · obtain ⟨s', hrun, -, ht⟩ := Session.runAction_emit_spec v w r bind χ.session
      rw [hnote hrun]
      cases r with
      | mark name => exact ⟨_, _, h.place ht, rfl⟩
      | binary left op right =>
        exact ⟨_, h.request (fun t ht => by cases ht) rfl ht⟩
      | index array i => exact ⟨_, h.request (fun t ht => by cases ht) rfl ht⟩
      | branch test target => exact ⟨_, h.request (fun t ht => by cases ht) rfl ht⟩
      | jump target => exact ⟨_, h.request (fun t ht => by cases ht) rfl ht⟩
    · obtain ⟨s', hrun, -, ht⟩ := Session.runAction_label_spec v w bind χ.session
      rw [hnote hrun, Session.unit_of_unit? h.unit]
      exact ⟨_, [], h.issue bind ht, (List.append_nil _).symm⟩
    · obtain ⟨s', hrun, ht⟩ := Session.runAction_setCounters_spec v w temps labels χ.session
      rw [hnote hrun]
      have hevent : Event.ofAction w (.setCounters temps labels) χ.session (.ok .done) =
          .counters w c.supply ⟨temps, labels⟩ := by
        rw [← Session.unit_of_unit? h.unit]
        rfl
      rw [hevent]
      exact ⟨_, [], h.counters ht, (List.append_nil _).symm⟩
  · refine .of_same_code ?_ ?_ (Session.moves_runAction_of_ne v hw a)
    · intro s r t ht
      exact hw (Event.unit_of_ofAction_issued ht)
    · intro s r f hf
      exact absurd hf (Event.ofAction_ne_closed f)

end Actions

/-- The statements of other units keep the chronicle of a unit in order if their blocks do. -/
theorem keeps_simulation_of_ne (v : Verbosity) (u : UnitId) :
    Host.Simulation (Chronicle.host v) (Chronicle.host v) (fun w => w ≠ u) (fun _ _ => True)
      (fun x y => Keeps u x ∧ Keeps u y) where
  pure a := ⟨.pure a, .pure a⟩
  bind hx hf := ⟨hx.1.bind fun a => (hf a).1, hx.2.bind fun a => (hf a).2⟩
  bindings := and_self_iff.mpr (.ask (·.bindings))
  present w _ := and_self_iff.mpr (.ask fun s => (s.unit? w).isSome)
  length w _ := and_self_iff.mpr (.ask fun s => (s.unit w).program.length)
  label w hw := by
    refine and_self_iff.mpr (.of_worked ?_)
    intro s c hc
    obtain ⟨s', hrun, -, ht⟩ := Session.fresh_spec w .label s
    exact ⟨c, by rw [hrun, ht.other hw, hc], .refl⟩
  emit w r hw := by
    refine and_self_iff.mpr (.of_worked (.bind ?_ fun _ => .pure ()))
    intro s c hc
    obtain ⟨s', hrun, -, ht⟩ := Session.emit_spec v w r s
    exact ⟨c, by rw [hrun, ht.other hw, hc], .refl⟩
  perform w a _ _ := and_self_iff.mpr (keeps_perform v w a)
  close f hf := by
    have h : Keeps u (Chronicle.note (fun _ _ => .closed f) (pure ())) := by
      refine .of_same_code ?_ ?_ (.pure ())
      · intro s r t h
        cases h
      · intro s r g hg
        cases hg
        exact hf
    exact ⟨h, h⟩

section Statements

variable {α β : Type} {v : Verbosity} {u : UnitId} {held held' : List Text} {P : Program}
  {B : β → Chronicle → Prop} {C : Chronicle → Prop}

/-- Asking for the length of the program. -/
theorem ensures_length {f : Nat → ChronicleM β}
    (h : Ensures (Stands u held P) (f P.length) B C) :
    Ensures (Stands u held P) ((Chronicle.host v).length u >>= f) B C := by
  rintro χ ⟨c, hintact, rfl⟩
  have hlength : (χ.session.unit u).program.length = c.program.length := by
    rw [Session.unit_of_unit? hintact.unit]
  have hrun : ((Chronicle.host v).length u >>= f).run χ =
      (f (χ.session.unit u).program.length).run χ := rfl
  rw [hrun, hlength]
  exact h χ ⟨c, hintact, rfl⟩

/-- Taking a label: the statement holds it, or there is none left. -/
theorem ensures_label {f : Text → ChronicleM β} (hfail : ∀ χ, Lives u held χ → C χ)
    (h : ∀ name, Ensures (Stands u (name :: held) P) (f name) B C) :
    Ensures (Stands u held P) ((Chronicle.host v).label u >>= f) B C := by
  refine Ensures.bind (D := Lives u held) ?_ hfail h
  rintro χ ⟨c, hintact, rfl⟩
  obtain ⟨s', hrun, -, ht⟩ := Session.fresh_spec u .label χ.session
  rw [Session.unit_of_unit? hintact.unit] at hrun
  have hunit := ht.self hintact.unit
  have hnote : ((Chronicle.host v).label u).run χ = _ :=
    Chronicle.note_run (fun _ _ => .worked) hrun
  rw [hnote]
  by_cases htop : c.supply.number .label = NameSupply.top
  · rw [NameSupply.fresh_of_eq_top htop]
    rw [Compilation.take_of_eq_top htop] at hunit
    exact ⟨c.program, c, hintact.work hunit List.prefix_rfl id, rfl⟩
  · rw [NameSupply.fresh_of_ne_top htop]
    rw [Compilation.take_of_ne_top htop] at hunit
    refine ⟨_, hintact.work hunit List.prefix_rfl fun hnames => ?_, rfl⟩
    change Names u _ _ c.program ((c.supply.advance .label).number .label)
    rw [NameSupply.number_advance_self htop]
    exact hnames.take

/-- Emitting an instruction without a result cannot fail, and adds it to the program. -/
theorem emit_run {r : Request Text} (hr : r.stores = false) {χ : Chronicle} {c : Compilation}
    (hc : χ.session.unit? u = some c) :
    ∃ s', ((Chronicle.host v).emit u r).run χ = (.ok (), ⟨s', χ.moments ++ [⟨.worked, s'⟩]⟩) ∧
      s'.unit? u = some (c.emit (r.instr [])) := by
  obtain ⟨s', hrun, -, ht⟩ := Session.emit_spec v u r χ.session
  rw [Request.build_of_not_stores hr []] at hrun
  have hunit := ht.self hc
  rw [Compilation.request_of_not_stores hr []] at hunit
  have hsession : ((Session.host v).emit u r).run χ.session = (.ok (), s') := by
    have hbind : ((Session.host v).emit u r).run χ.session =
        (Session.emit v u r >>= fun _ => pure ()).run χ.session := rfl
    rw [hbind, run_bind, hrun]
    rfl
  exact ⟨s', Chronicle.note_run (fun _ _ => .worked) hsession, hunit⟩

/-- Emitting a jump. -/
theorem ensures_emitAt {r : Request Text} (hr : r.stores = false)
    (hmarker : (r.instr []).marker? = none) {f : Nat → ChronicleM β}
    (h : Ensures (Stands u held (P ++ [r.instr []])) (f P.length) B C) :
    Ensures (Stands u held P) ((Chronicle.host v).emitAt u r >>= f) B C := by
  rw [Host.emitAt, bind_assoc]
  refine ensures_length ?_
  rw [bind_assoc]
  refine Ensures.bind (B := fun _ => Stands u held (P ++ [r.instr []])) (D := C) ?_
    (fun _ hC => hC) fun _ => ?_
  · rintro χ ⟨c, hintact, rfl⟩
    obtain ⟨s', hrun, hunit⟩ := emit_run (v := v) hr hintact.unit
    rw [hrun]
    have hsame : Program.markers (c.program ++ [r.instr []]) = c.program.markers := by
      rw [Program.markers_append, Program.markers_cons, hmarker]
      exact List.append_nil _
    exact ⟨c.emit (r.instr []), hintact.work hunit (List.prefix_append _ _) fun hnames =>
      hnames.advance hsame (Int.le_refl _), rfl⟩
  · rw [pure_bind]
    exact h

/-- Marking a label that the statement holds. -/
theorem ensures_mark {t : Text} (hperm : held'.Perm (t :: held)) {f : Unit → ChronicleM β}
    (h : Ensures (Stands u held (P ++ [.label t])) (f ()) B C) :
    Ensures (Stands u held' P) ((Chronicle.host v).emit u (.mark t) >>= f) B C := by
  refine Ensures.bind (B := fun _ => Stands u held (P ++ [.label t])) (D := C) ?_
    (fun _ hC => hC) fun _ => h
  rintro χ ⟨c, hintact, rfl⟩
  have hheld : Intact u (t :: held) χ c :=
    hintact.weaken (show held'.Perm ([] ++ t :: held) from hperm)
  obtain ⟨s', hrun, hunit⟩ := emit_run (v := v) (r := .mark t) rfl hintact.unit
  rw [hrun]
  exact ⟨_, hheld.work hunit (List.prefix_append _ _) fun hnames => hnames.mark, rfl⟩

/-- Running a block. -/
theorem ensures_block {x : ChronicleM α} {f : α → ChronicleM β} (hx : Keeps u x)
    (hfail : ∀ χ, Lives u held χ → C χ)
    (h : ∀ a code, Ensures (Stands u held (P ++ code)) (f a) B C) :
    Ensures (Stands u held P) (x >>= f) B C := by
  refine (hx held P).bind hfail fun a => ?_
  rintro χ ⟨code, hχ⟩
  exact h a code χ hχ

/-- Ending a statement that is laid out well. -/
theorem ensures_close {frame : Frame} (hlaid : frame.Laid P) {f : Unit → ChronicleM β}
    (h : Ensures (Stands u held P) (f ()) B C) :
    Ensures (Stands u held P) ((Chronicle.host v).close frame >>= f) B C := by
  refine Ensures.bind (B := fun _ => Stands u held P) (D := C) ?_ (fun _ hC => hC) fun _ => h
  rintro χ ⟨c, hintact, rfl⟩
  refine ⟨c, hintact.record hintact.unit List.prefix_rfl ?_ ?_, rfl⟩
  · intro g hg _
    cases hg
    exact hlaid
  · intro _ hnames
    exact hnames.note fun t ht => by cases ht

/-- The last instruction of a beginning of a program. -/
theorem getElem?_length_of_prefix {p Q : Program} {i : Instr} (h : p ++ [i] <+: Q) :
    Q[p.length]? = some i := by
  refine Program.getElem?_of_prefix h ?_
  rw [List.getElem?_append_right (Nat.le_refl _), Nat.sub_self, List.getElem?_cons_zero]

/-- The code of a conditional with two blocks is laid out well. -/
theorem laid_ifElse (P earlier later : Program) {branch jump : Instr} {yes done : Text}
    (hbranch : branch.target? = some yes) (hjump : jump.target? = some done) :
    Frame.Laid ⟨u, P.length,
      (P ++ [branch] ++ earlier ++ [jump] ++ [Instr.label yes] ++ later ++
        [Instr.label done]).length,
      [P.length, (P ++ [branch] ++ earlier).length], none⟩
      (P ++ [branch] ++ earlier ++ [jump] ++ [Instr.label yes] ++ later ++ [Instr.label done]) := by
  generalize hQ : P ++ [branch] ++ earlier ++ [jump] ++ [Instr.label yes] ++ later ++
    [Instr.label done] = Q
  have hfirst : Q[P.length]? = some branch := getElem?_length_of_prefix (by simp [← hQ])
  have hsecond : Q[(P ++ [branch] ++ earlier).length]? = some jump :=
    getElem?_length_of_prefix (by simp [← hQ])
  have hyes : Q[(P ++ [branch] ++ earlier ++ [jump]).length]? = some (.label yes) :=
    getElem?_length_of_prefix (by simp [← hQ])
  have hdone : Q[(P ++ [branch] ++ earlier ++ [jump] ++ [Instr.label yes] ++ later).length]? =
      some (.label done) := getElem?_length_of_prefix (by simp [← hQ])
  have hlength : Q.length = P.length + earlier.length + later.length + 4 := by
    simp only [← hQ, List.length_append, List.length_singleton]
    omega
  simp only [List.length_append, List.length_singleton] at hsecond hyes hdone ⊢
  intro p hp
  simp only [List.mem_cons, List.not_mem_nil, or_false] at hp
  rcases hp with rfl | rfl
  · exact Frame.aims_forward hfirst hbranch hyes (Nat.le_refl _) (by omega)
      (by dsimp only; omega) (by simp)
  · exact Frame.aims_forward hsecond hjump hdone (by dsimp only; omega) (by omega)
      (by dsimp only; omega) (by simp)

/-- The code of a conditional with one block is laid out well: it is one
whose other block is empty. -/
theorem laid_ifThen (P code : Program) {branch jump : Instr} {yes done : Text}
    (hbranch : branch.target? = some yes) (hjump : jump.target? = some done) :
    Frame.Laid ⟨u, P.length,
      (P ++ [branch] ++ [jump] ++ [Instr.label yes] ++ code ++ [Instr.label done]).length,
      [P.length, (P ++ [branch]).length], none⟩
      (P ++ [branch] ++ [jump] ++ [Instr.label yes] ++ code ++ [Instr.label done]) := by
  have hlaid := laid_ifElse (u := u) P [] code hbranch hjump
  rw [List.append_nil] at hlaid
  exact hlaid

/-- The code of a loop is laid out well. -/
theorem laid_loop (P pre code : Program) {branch exit back : Instr} {top body done : Text}
    (hbranch : branch.target? = some body) (hexit : exit.target? = some done)
    (hback : back.target? = some top) :
    Frame.Laid ⟨u, P.length,
      (P ++ [Instr.label top] ++ pre ++ [branch] ++ [exit] ++ [Instr.label body] ++
        code ++ [back] ++ [Instr.label done]).length,
      [(P ++ [Instr.label top] ++ pre).length, (P ++ [Instr.label top] ++ pre ++ [branch]).length,
        (P ++ [Instr.label top] ++ pre ++ [branch] ++ [exit] ++ [Instr.label body] ++ code).length],
      some (P ++ [Instr.label top] ++ pre ++ [branch] ++ [exit] ++ [Instr.label body] ++
        code).length⟩
      (P ++ [Instr.label top] ++ pre ++ [branch] ++ [exit] ++ [Instr.label body] ++
        code ++ [back] ++ [Instr.label done]) := by
  generalize hQ : P ++ [Instr.label top] ++ pre ++ [branch] ++ [exit] ++
    [Instr.label body] ++ code ++ [back] ++ [Instr.label done] = Q
  have htop : Q[P.length]? = some (.label top) := getElem?_length_of_prefix (by simp [← hQ])
  have hfirst : Q[(P ++ [Instr.label top] ++ pre).length]? = some branch :=
    getElem?_length_of_prefix (by simp [← hQ])
  have hsecond : Q[(P ++ [Instr.label top] ++ pre ++ [branch]).length]? = some exit :=
    getElem?_length_of_prefix (by simp [← hQ])
  have hbody : Q[(P ++ [Instr.label top] ++ pre ++ [branch] ++ [exit]).length]? =
      some (.label body) := getElem?_length_of_prefix (by simp [← hQ])
  have hthird : Q[(P ++ [Instr.label top] ++ pre ++ [branch] ++ [exit] ++ [Instr.label body] ++
      code).length]? = some back := getElem?_length_of_prefix (by simp [← hQ])
  have hdone : Q[(P ++ [Instr.label top] ++ pre ++ [branch] ++ [exit] ++ [Instr.label body] ++
      code ++ [back]).length]? = some (.label done) :=
    getElem?_length_of_prefix (by simp [← hQ])
  have hlength : Q.length = P.length + pre.length + code.length + 6 := by
    simp only [← hQ, List.length_append, List.length_singleton]
    omega
  simp only [List.length_append, List.length_singleton] at hfirst hsecond hbody hthird hdone ⊢
  intro p hp
  simp only [List.mem_cons, List.not_mem_nil, or_false] at hp
  rcases hp with rfl | rfl | rfl
  · refine Frame.aims_forward hfirst hbranch hbody (by dsimp only; omega) (by omega)
      (by dsimp only; omega) ?_
    rw [ne_eq, Option.some.injEq]
    omega
  · refine Frame.aims_forward hsecond hexit hdone (by dsimp only; omega) (by omega)
      (by dsimp only; omega) ?_
    rw [ne_eq, Option.some.injEq]
    omega
  · exact Frame.aims_back hthird hback htop (by dsimp only; omega) (by dsimp only; omega) rfl

/-- A conditional with one block keeps the chronicle in order if the block does. -/
theorem keeps_ifThen (test : Relation Text) {block : ChronicleM (List α)} (hblock : Keeps u block) :
    Keeps u ((Chronicle.host v).ifThen u test block) := by
  intro held P
  refine ensures_length ?_
  refine ensures_label (fun _ h => h) fun yes => ?_
  refine ensures_label (fun _ h => h.giveUp [yes]) fun done => ?_
  refine ensures_emitAt rfl rfl ?_
  refine ensures_emitAt rfl rfl ?_
  refine ensures_mark (List.Perm.swap yes done held) ?_
  refine ensures_block hblock (fun _ h => h.giveUp [done]) fun results code => ?_
  refine ensures_mark (List.Perm.refl _) ?_
  refine ensures_length ?_
  refine ensures_close ?_ (.pure ?_)
  · exact laid_ifThen P code rfl rfl
  · intro χ hχ
    simp only [List.append_assoc] at hχ
    exact ⟨_, hχ⟩

/-- A conditional with two blocks keeps the chronicle in order if the blocks do. -/
theorem keeps_ifElse (test : Relation Text) {first second : ChronicleM (List α)}
    (hfirst : Keeps u first) (hsecond : Keeps u second) :
    Keeps u ((Chronicle.host v).ifElse u test first second) := by
  intro held P
  refine ensures_length ?_
  refine ensures_label (fun _ h => h) fun yes => ?_
  refine ensures_label (fun _ h => h.giveUp [yes]) fun done => ?_
  refine ensures_emitAt rfl rfl ?_
  refine ensures_block hsecond (fun _ h => h.giveUp [done, yes]) fun earlier code => ?_
  refine ensures_emitAt rfl rfl ?_
  refine ensures_mark (List.Perm.swap yes done held) ?_
  refine ensures_block hfirst (fun _ h => h.giveUp [done]) fun later rest => ?_
  refine ensures_mark (List.Perm.refl _) ?_
  refine ensures_length ?_
  refine ensures_close ?_ (.pure ?_)
  · exact laid_ifElse P code rest rfl rfl
  · intro χ hχ
    simp only [List.append_assoc] at hχ
    exact ⟨_, hχ⟩

/-- A loop keeps the chronicle in order if its preparation and its block do. -/
theorem keeps_loop {test : ChronicleM (List α × Relation Text)} {block : ChronicleM (List α)}
    (htest : Keeps u test) (hblock : Keeps u block) :
    Keeps u ((Chronicle.host v).loop u test block) := by
  intro held P
  refine ensures_length ?_
  refine ensures_label (fun _ h => h) fun top => ?_
  refine ensures_label (fun _ h => h.giveUp [top]) fun body => ?_
  refine ensures_label (fun _ h => h.giveUp [body, top]) fun done => ?_
  -- The three labels are marked in the order in which they were taken.
  have htop : (done :: body :: top :: held).Perm (top :: done :: body :: held) :=
    ((List.Perm.swap top body held).cons done).trans (List.Perm.swap top done _)
  refine ensures_mark htop ?_
  refine ensures_block htest (fun _ h => h.giveUp [done, body]) fun prepared pre => ?_
  refine ensures_emitAt rfl rfl ?_
  refine ensures_emitAt rfl rfl ?_
  refine ensures_mark (List.Perm.swap body done held) ?_
  refine ensures_block hblock (fun _ h => h.giveUp [done]) fun later code => ?_
  refine ensures_emitAt rfl rfl ?_
  refine ensures_mark (List.Perm.refl _) ?_
  refine ensures_length ?_
  refine ensures_close ?_ (.pure ?_)
  · exact laid_loop P pre code rfl rfl rfl
  · intro χ hχ
    simp only [List.append_assoc] at hχ
    exact ⟨_, hχ⟩

end Statements

section Runs

variable {v : Verbosity} {u : UnitId}

theorem keeps_onUnit (w : UnitId) {work : ChronicleM Session.Answer} (h : Keeps u work) :
    Keeps u ((Chronicle.host v).onUnit w work) := by
  refine Keeps.bind (.ask fun s => (s.unit? w).isSome) fun present => ?_
  cases present with
  | true => exact h
  | false => exact .pure _

/-- The answer to a conditional or loop comes with the length of the program. -/
theorem keeps_answer (w : UnitId) (answers : List Session.Answer) :
    Keeps u (do return Session.Answer.block (← (Chronicle.host v).length w) answers) :=
  Keeps.bind (.ask fun s => (s.unit w).program.length) fun _ => .pure _

mutual

/-- Every statement keeps the chronicle of every unit in order. -/
theorem keeps_runStatement : (st : Statement) → Keeps u ((Chronicle.host v).runStatement st)
  | .act w a => by
    rw [Host.runStatement]
    refine keeps_onUnit w ((keeps_perform v w a).bind fun result => ?_)
    exact Keeps.bind (.ask fun s => (s.unit w).program.length) fun _ => .pure _
  | .ifThen w test yes => by
    rw [Host.runStatement]
    refine keeps_onUnit w (Keeps.bind (.ask (·.bindings)) fun b => ?_)
    refine Keeps.bind ?_ fun answers => keeps_answer w answers
    by_cases hw : w = u
    · rw [hw]
      exact keeps_ifThen _ (keeps_runBlock yes)
    · have hyes := keeps_runBlock yes
      exact ((keeps_simulation_of_ne v u).ifThen hw _ ⟨hyes, hyes⟩).1
  | .ifElse w test yes no => by
    rw [Host.runStatement]
    refine keeps_onUnit w (Keeps.bind (.ask (·.bindings)) fun b => ?_)
    refine Keeps.bind ?_ fun answers => keeps_answer w answers
    by_cases hw : w = u
    · rw [hw]
      exact keeps_ifElse _ (keeps_runBlock yes) (keeps_runBlock no)
    · have hyes := keeps_runBlock yes
      have hno := keeps_runBlock no
      exact ((keeps_simulation_of_ne v u).ifElse hw _ ⟨hyes, hyes⟩ ⟨hno, hno⟩).1
  | .loop w pre test body => by
    rw [Host.runStatement]
    have hprepared : Keeps u (do
        let answers ← (Chronicle.host v).runBlock pre
        let b ← (Chronicle.host v).bindings
        return (answers, test.map (·.read b))) :=
      (keeps_runBlock pre).bind fun answers => Keeps.bind (.ask (·.bindings)) fun b => .pure _
    refine keeps_onUnit w (Keeps.bind ?_ fun answers => keeps_answer w answers)
    by_cases hw : w = u
    · rw [hw]
      exact keeps_loop hprepared (keeps_runBlock body)
    · have hbody := keeps_runBlock body
      exact ((keeps_simulation_of_ne v u).loop hw ⟨hprepared, hprepared⟩ ⟨hbody, hbody⟩).1

/-- Every block keeps the chronicle of every unit in order. -/
theorem keeps_runBlock : (block : List Statement) → Keeps u ((Chronicle.host v).runBlock block)
  | [] => .pure []
  | st :: rest => by
    rw [Host.runBlock]
    refine (keeps_runStatement st).bind fun answer => ?_
    exact (keeps_runBlock rest).bind fun answers => .pure _

end

/-- A script keeps the chronicle of a unit in order, whatever overflows there are on the way. -/
theorem lives_run (script : List Statement) {χ : Chronicle} (h : Lives u [] χ) :
    Lives u [] (Chronicle.run v script χ) := by
  induction script generalizing χ with
  | nil => exact h
  | cons st rest ih =>
    obtain ⟨P, c, hintact, hP⟩ := h
    have hquiet : Stands u [] P { χ with session := { χ.session with log := [] } } :=
      ⟨c, ⟨hintact.unit, hintact.grown, hintact.last, hintact.frames, hintact.names⟩, hP⟩
    have hstep := keeps_runStatement (v := v) st [] P _ hquiet
    have hrun : Chronicle.run v (st :: rest) χ = Chronicle.run v rest (Chronicle.step v χ st) := rfl
    rw [hrun]
    refine ih ?_
    rw [Chronicle.step]
    generalize ((Chronicle.host v).runStatement st).run
      { χ with session := { χ.session with log := [] } } = result at hstep
    rcases result with ⟨r, χ'⟩
    cases r with
    | ok answer =>
      obtain ⟨code, hχ'⟩ := hstep
      exact hχ'.lives
    | error e => exact hstep

end Runs

/-- The markers of a beginning of a program are distinct if those of the program are. -/
theorem Program.nodup_markers_of_prefix {P Q : Program} (h : P <+: Q) (hQ : Q.markers.Nodup) :
    P.markers.Nodup := by
  obtain ⟨rest, rfl⟩ := h
  rw [Program.markers_append] at hQ
  exact (List.nodup_append.mp hQ).1

/-- In every run on a unit without code in which callers mark only labels of the unit that they were
given, each at most once, and never lower its counters, at every moment of the run, also after an
overflow: the markers of the program are distinct. And from the moment on at which a conditional or
loop has ended, each of its own jumps aims at a name that marks exactly one position of the program,
which lies in the stretch that the statement appended; the jump back of a loop goes to the start of
that stretch, and no other of these jumps goes back. -/
theorem labels_stay_intact (v : Verbosity) (u : UnitId) (script : List Statement) (s : Session)
    (c : Compilation) (hc : s.unit? u = some c) (hempty : c.program = [])
    (hcallers : Event.Disciplined u [] (Chronicle.run v script ⟨s, []⟩).events) :
    (Chronicle.run v script ⟨s, []⟩).session = (Session.run v script s).2 ∧
    (∀ m ∈ (Chronicle.run v script ⟨s, []⟩).moments, (m.program u).markers.Nodup) ∧
    ∀ (i j : Nat) (ended later : Moment) (f : Frame),
      (Chronicle.run v script ⟨s, []⟩).moments[i]? = some ended → ended.event = .closed f →
      f.unit = u → i ≤ j → (Chronicle.run v script ⟨s, []⟩).moments[j]? = some later →
      ∀ p ∈ f.jumps, f.start ≤ p ∧ p < f.stop ∧ ∃ target q,
        (later.program u)[p]?.bind Instr.target? = some target ∧
        (∀ q', (later.program u)[q']? = some (.label target) ↔ q' = q) ∧
        f.start ≤ q ∧ q < f.stop ∧ (q < p ↔ f.back = some p) ∧ (f.back = some p → q = f.start) := by
  have hstart : Lives u [] ⟨s, []⟩ := by
    have hnames : Names u [] [] c.program (c.supply.number .label) := by
      rw [hempty]
      exact ⟨List.nodup_nil, by simp [Program.markers], by simp, by simp⟩
    exact ⟨c.program, c, ⟨hc, List.Pairwise.nil, by simp, by simp, fun _ => hnames⟩, rfl⟩
  obtain ⟨P, c', hintact, -⟩ := lives_run (v := v) script hstart
  have hlast : c'.program.markers.Nodup := by
    have hapart := (hintact.names hcallers).apart
    rwa [List.append_nil] at hapart
  have hnodup : ∀ m ∈ (Chronicle.run v script ⟨s, []⟩).moments, (m.program u).markers.Nodup :=
    fun m hm => Program.nodup_markers_of_prefix (hintact.last m hm) hlast
  refine ⟨Chronicle.session_run v script ⟨s, []⟩, hnodup, ?_⟩
  intro i j ended later f hi hclosed hunit hij hj p hp
  have hgrown : ended.program u <+: later.program u := by
    rcases Nat.lt_or_eq_of_le hij with hlt | rfl
    · obtain ⟨hi', rfl⟩ := List.getElem?_eq_some_iff.mp hi
      obtain ⟨hj', rfl⟩ := List.getElem?_eq_some_iff.mp hj
      exact (List.pairwise_iff_getElem.mp (List.pairwise_map.mp hintact.grown)) i j hi' hj' hlt
    · rw [hi] at hj
      cases hj
      exact List.prefix_rfl
  have hlaid := (hintact.frames ended (List.mem_of_getElem? hi) f hclosed hunit).mono hgrown
  obtain ⟨hfirst, hstop, target, q, htarget, hmarker, hrest⟩ := hlaid p hp
  refine ⟨hfirst, hstop, target, q, htarget, ?_, hrest⟩
  intro q'
  constructor
  · intro hq'
    exact Program.marker_position_unique (hnodup later (List.mem_of_getElem? hj)) hq' hmarker
  · rintro rfl
    exact hmarker

/-- A label that a caller takes and marks inside a loop, with a conditional behind the mark. Then
the counter of labels is raised so far that a loop in a conditional finds none left. -/
def mixedLabels : List Statement :=
  [.act 0 (.label (some (.literal "x"))),
    .loop 0 [] ⟨.literal "a", .literal "<", .literal "b"⟩
      [.act 0 (.emit (.mark (.named "x")) none),
        .ifElse 0 ⟨.literal "a", .literal "<", .literal "b"⟩ []
          [.act 0 (.emit (.jump (.named "x")) none)]],
    .act 0 (.setCounters 0 (Int64.maxValue - 3)),
    .ifThen 0 ⟨.literal "a", .literal "<", .literal "b"⟩
      [.loop 0 [] ⟨.literal "a", .literal "<", .literal "b"⟩ []]]

/-- In the run with mixed labels the markers are distinct at all 28 moments, and at the last
one, after the overflow, the first loop still has its jump back at position 10 and its head,
marked once, at the start. -/
theorem mixedLabels_stay_intact :
    (Chronicle.run 0 mixedLabels ⟨{ units := [some {}] }, []⟩).moments.length = 28 ∧
    (∀ m ∈ (Chronicle.run 0 mixedLabels ⟨{ units := [some {}] }, []⟩).moments,
      (m.program 0).markers.Nodup) ∧
    ∃ last target,
      (Chronicle.run 0 mixedLabels ⟨{ units := [some {}] }, []⟩).moments[27]? = some last ∧
      (last.program 0)[10]?.bind Instr.target? = some target ∧
      ∀ q, (last.program 0)[q]? = some (.label target) ↔ q = 0 := by
  obtain ⟨-, hnodup, hjumps⟩ :=
    labels_stay_intact 0 0 mixedLabels { units := [some {}] } {} rfl rfl (by decide +kernel)
  have hlength : (Chronicle.run 0 mixedLabels ⟨{ units := [some {}] }, []⟩).moments.length =
      28 := by decide +kernel
  have hclosed : (Chronicle.run 0 mixedLabels ⟨{ units := [some {}] }, []⟩).events[19]? =
      some (.closed ⟨0, 0, 12, [1, 2, 10], some 10⟩) := by decide +kernel
  -- From here on it does not matter which run it is.
  generalize Chronicle.run 0 mixedLabels ⟨{ units := [some {}] }, []⟩ = χ at *
  rw [Chronicle.events, List.getElem?_map] at hclosed
  obtain ⟨ended, hended, hevent⟩ := Option.map_eq_some_iff.mp hclosed
  have hlast := List.getElem?_eq_getElem (show 27 < χ.moments.length by omega)
  obtain ⟨-, -, target, q, htarget, hunique, -, -, -, hhead⟩ :=
    hjumps 19 27 ended _ _ hended hevent rfl (by decide) hlast 10 (by decide)
  refine ⟨hlength, hnodup, _, target, hlast, htarget, ?_⟩
  rw [show q = 0 from hhead rfl] at hunique
  exact hunique

end ThreeAddress
