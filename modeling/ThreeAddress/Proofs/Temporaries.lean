import ThreeAddress.Proofs.Effects
import ThreeAddress.Proofs.Positions

/-!
# Temporaries are assigned once

Every temporary of a unit is numbered by its supply and stored by the one instruction for which it
was taken. So the destinations in the code that a script appends, read in order, are the
temporaries from the counter before to the counter after, without gaps and without repeats, also
when statements were ended by an overflow.
-/

open Relation (ReflTransGen)

namespace ThreeAddress

open Script (Statement UnitId)

/-- Assignments and loads are the instructions that have a destination. -/
theorem Program.length_destinations (p : Program) :
    p.destinations.length = p.count .assign + p.count .load := by
  induction p with
  | nil => rfl
  | cons i rest ih =>
    have hcount : ∀ k, Program.count k (i :: rest) =
        Program.count k rest + if i.kind = k then 1 else 0 := by
      intro k
      simp only [Program.count, List.countP_cons, decide_eq_true_eq]
    rw [hcount, hcount, Program.destinations_cons, List.length_append, ih]
    cases i <;> simp [Instr.dst?, Instr.kind] <;> omega

namespace Compilation

/-- A compilation was extended by code whose destinations are the temporaries taken meanwhile. -/
def Numbers (c c' : Compilation) : Prop :=
  ∃ code : Program, c'.program = c.program ++ code ∧
    c.supply.number .temp ≤ c'.supply.number .temp ∧
    code.destinations = Category.temp.names (c.supply.number .temp) (c'.supply.number .temp)

theorem Numbers.refl (c : Compilation) : Numbers c c :=
  ⟨[], (List.append_nil _).symm, Int.le_refl _, (Category.names_self _ _).symm⟩

theorem Numbers.trans {a b c : Compilation} (hab : Numbers a b) (hbc : Numbers b c) :
    Numbers a c := by
  obtain ⟨p, hp, hle₁, hd₁⟩ := hab
  obtain ⟨q, hq, hle₂, hd₂⟩ := hbc
  refine ⟨p ++ q, by rw [hq, hp, List.append_assoc], Int.le_trans hle₁ hle₂, ?_⟩
  rw [Program.destinations_append, hd₁, hd₂, Category.names_append _ hle₁ hle₂]

/-- Code without destinations and the same number of temporaries. -/
theorem Numbers.of_same {c c' : Compilation} {code : Program}
    (hp : c'.program = c.program ++ code) (hd : code.destinations = [])
    (hn : c'.supply.number .temp = c.supply.number .temp) : Numbers c c' :=
  ⟨code, hp, Int.le_of_eq hn.symm, by rw [hd, hn, Category.names_self]⟩

/-- A request takes a temporary exactly when it adds an instruction that stores in it. -/
theorem numbers_request (c : Compilation) (r : Request Text) : Numbers c (c.request r) := by
  cases hs : r.stores with
  | false =>
    rw [request_of_not_stores hs []]
    refine .of_same rfl ?_ rfl
    rw [Program.destinations_cons, Request.dst?_instr, hs]
    rfl
  | true =>
    by_cases ht : c.supply.number .temp = NameSupply.top
    · rw [request_of_eq_top hs ht]
      exact .refl c
    · rw [request_of_ne_top hs ht]
      have hn : (c.supply.advance .temp).number .temp = c.supply.number .temp + 1 := by
        rw [NameSupply.number_advance_self ht]
      refine ⟨[r.instr (Category.temp.named (c.supply.number .temp))], rfl, ?_, ?_⟩
      · change _ ≤ (c.supply.advance .temp).number .temp
        omega
      · change _ = Category.temp.names _ ((c.supply.advance .temp).number .temp)
        rw [hn, Category.names_succ, Program.destinations_cons, Request.dst?_instr, hs]
        rfl

/-- Every single change keeps temporaries and destinations in step. -/
theorem Change.numbers {c c' : Compilation} (h : Change False c c') : Numbers c c' := by
  cases h with
  | note h =>
    cases h with
    | table op => exact .refl c
    | record d => exact .refl c
  | label =>
    by_cases ht : c.supply.number .label = NameSupply.top
    · rw [take_of_eq_top ht]
      exact .refl c
    · rw [take_of_ne_top ht]
      exact .of_same (List.append_nil _).symm rfl rfl
  | request r => exact numbers_request c r
  | counters h => exact h.elim

/-- Any chain of changes keeps temporaries and destinations in step. -/
theorem numbers_of_changes {c c' : Compilation} (h : ReflTransGen (Change False) c c') :
    Numbers c c' := by
  induction h with
  | refl => exact .refl c
  | tail _ hstep ih => exact ih.trans hstep.numbers

end Compilation

/-- The code that a script appends to a unit stores in the temporaries from the counter before to
the counter after, each once and in order. In a unit without code and with fresh counters, the
instructions that store a result are as many as the temporaries taken. -/
theorem temporaries_assigned_once (v : Verbosity) (u : UnitId) (script : List Statement)
    (s : Session) (c : Compilation) (hc : s.unit? u = some c)
    (hscript : ∀ x ∈ Script.blockActions script, x.1 = u → ¬x.2.setsCounters) :
    ∃ c' code, (Session.run v script s).2.unit? u = some c' ∧ c'.program = c.program ++ code ∧
      c.supply.temps ≤ c'.supply.temps ∧
      Program.destinations code = Category.temp.names c.supply.temps.toInt c'.supply.temps.toInt ∧
      (Program.destinations code).Nodup ∧
      (∀ k, c.supply.temps.toInt ≤ k → k < c'.supply.temps.toInt →
        ∃! position : Nat, (code[position]?).bind Instr.dst? = some (Category.temp.named k)) ∧
      (c.program = [] → c.supply = {} →
        ((c'.program.count .assign + c'.program.count .load : Nat) : Int) =
          c'.supply.temps.toInt) := by
  obtain ⟨c', hc', hchain⟩ := Session.run_changes v hscript hc
  obtain ⟨code, hp, hle, hd⟩ := Compilation.numbers_of_changes hchain
  have hnodup : (Program.destinations code).Nodup := by
    rw [hd]
    exact Category.nodup_names _ _ _
  refine ⟨c', code, hc', hp, Int64.le_iff_toInt_le.mpr hle, hd, hnodup, ?_, ?_⟩
  · intro k hk hk'
    have hmem : Category.temp.named k ∈ Program.destinations code := by
      rw [hd]
      exact Category.mem_names.mpr ⟨k, hk, hk', rfl⟩
    exact Program.existsUnique_position hmem hnodup
  · intro hempty hfresh
    rw [hp, hempty, List.nil_append, ← Program.length_destinations, hd, Category.names,
      List.length_map, List.length_range, hfresh]
    have hzero : ({} : NameSupply).number .temp = 0 := by decide
    rw [hfresh] at hle
    rw [hzero] at hle ⊢
    change _ = c'.supply.number .temp
    omega

/-- A conditional whose block needs two temporaries, and a jump after it. -/
def twoTemporaries : List Statement :=
  [.ifThen 0 ⟨.literal "a", .literal "<", .literal "b"⟩
    [.act 0 (.emit (.binary (.literal "a") (.literal "+") (.literal "b")) none),
      .act 0 (.emit (.index (.literal "a") (.literal "b")) none)],
    .act 0 (.emit (.jump (.literal "L0")) none)]

/-- Where only one temporary is left, an overflow ends the conditional that needs two; the code
appended stores in that one, and the jump is appended behind it. -/
theorem last_temporary_assigned_once :
    ∃ c' code, (Session.run 0 twoTemporaries
        { units := [some { supply := ⟨Int64.maxValue - 1, 0⟩ }] }).2.unit? 0 = some c' ∧
      c'.program = code ∧ code.length = 5 ∧ c'.supply.temps = Int64.maxValue ∧
      Program.destinations code = [Category.temp.named (Int64.maxValue.toInt - 1)] := by
  obtain ⟨c', code, hc', hp, -, hd, -⟩ := temporaries_assigned_once 0 0 twoTemporaries
    { units := [some { supply := ⟨Int64.maxValue - 1, 0⟩ }] } _ rfl (by decide)
  have hafter : ((Session.run 0 twoTemporaries
      { units := [some { supply := ⟨Int64.maxValue - 1, 0⟩ }] }).2.unit? 0).map
        (fun c => (c.program.length, c.supply.temps)) =
          some (5, Int64.maxValue) := by decide +kernel
  rw [hc', Option.map_some, Option.some.injEq, Prod.mk.injEq] at hafter
  rw [List.nil_append] at hp
  rw [hafter.2] at hd
  refine ⟨c', code, hc', hp, hp ▸ hafter.1, hafter.2, hd.trans ?_⟩
  decide +kernel

end ThreeAddress
