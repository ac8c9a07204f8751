import ThreeAddress.Instr

/-!
# Programs

A program is a sequence of instructions. Its text is the lines of its instructions in order, and it
can be handed line by line to a writer, which may take less than it is offered or fail. A writer may
answer any count, and counts are added up as signed 64-bit words.
-/

namespace ThreeAddress

/-- A sequence of instructions, in the order in which they are executed and shown. -/
abbrev Program := List Instr

/-- What a writer answers to one write. -/
structure WriteReply (ε : Type) where
  /-- How many bytes it says that it took. -/
  taken : Int64
  /-- Why it failed, if it did. -/
  error : Option ε

/-- A writer: takes its state and the bytes offered to its reply and its next state. -/
abbrev Writer (σ ε : Type) := σ → Text → WriteReply ε × σ

namespace Program

/-- The lines of all instructions, one after another. -/
def text (p : Program) : Text := p.flatMap Instr.text

/-- How many instructions are of a kind. -/
def count (k : Kind) (p : Program) : Nat := p.countP (·.kind = k)

/-- How many instructions are of the kind with a numeric code; none when there is no such kind. -/
def countCode (code : Int64) (p : Program) : Nat :=
  match Kind.ofCode? code with
  | some k => p.count k
  | none => 0

theorem text_cons (i : Instr) (p : Program) : text (i :: p) = i.text ++ text p :=
  List.flatMap_cons

theorem text_append (p q : Program) : text (p ++ q) = p.text ++ q.text := by
  simp [text]

theorem count_append (k : Kind) (p q : Program) : count k (p ++ q) = p.count k + q.count k := by
  simp [count]

/-- Offers the lines to a writer one at a time, up to the first write that fails. The reply has the
sum of the counts, which wraps around at the limits of a word, and that failure. -/
def writeTo {σ ε : Type} (write : Writer σ ε) : Program → σ → WriteReply ε × σ
  | [], s => (⟨0, none⟩, s)
  | i :: rest, s =>
    match write s i.text with
    | (⟨taken, some e⟩, s') => (⟨taken, some e⟩, s')
    | (⟨taken, none⟩, s') =>
      let (reply, s'') := writeTo write rest s'
      (⟨taken + reply.taken, reply.error⟩, s'')

end Program

/-- A store for bytes with room for a limited number of them. -/
structure Store where
  /-- How many bytes fit in all; no limit when missing. -/
  limit : Option Nat := none
  /-- Whether a write that does not fit is cut silently instead of failing. -/
  lenient : Bool := false
  /-- The bytes taken so far. -/
  written : Text := []
  /-- How many writes were tried. -/
  calls : Nat := 0

namespace Store

/-- The ways in which a write to a store fails. -/
inductive Failure where
  /-- The bytes offered exceed the room left. -/
  | full

/-- The wording of a failed write. -/
def Failure.message : Failure → Text
  | full => "write limit reached"

/-- The part of a text for which there is room. -/
def fitting (s : Store) (t : Text) : Text :=
  match s.limit with
  | none => t
  | some limit => t.take (limit - s.written.length)

/-- Takes what fits. A strict store fails when that is not everything. -/
def write : Writer Store Failure := fun s t =>
  let part := s.fitting t
  let cut := part.length < t.length
  (⟨.ofNat part.length, if cut ∧ s.lenient = false then some .full else none⟩,
    { s with written := s.written ++ part, calls := s.calls + 1 })

end Store

end ThreeAddress
