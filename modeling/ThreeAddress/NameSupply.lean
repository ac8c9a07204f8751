import ThreeAddress.Text.Basic

/-!
# Fresh names

Temporaries are `t0`, `t1`, … and labels `L0`, `L1`, …, each numbered by its own counter. A counter
at the largest 64-bit word gives no further name: the request fails and changes nothing.
-/

namespace ThreeAddress

/-- What a fresh name is for. -/
inductive Category where
  /-- A variable that holds an intermediate result. -/
  | temp
  /-- A place in the program. -/
  | label
  deriving DecidableEq, Inhabited

namespace Category

/-- The category with a numeric code; the codes are 0 and 1. -/
def ofCode? (code : Int64) : Option Category :=
  match code.toInt with
  | 0 => some temp
  | 1 => some label
  | _ => none

/-- The numeric code of a category. -/
def code : Category → Int64
  | temp => 0
  | label => 1

/-- The word for a category in messages. -/
def name : Category → Text
  | temp => "temporary"
  | label => "label"

/-- What every name of a category starts with. -/
def letter : Category → Text
  | temp => "t"
  | label => "L"

/-- The word for the category with a numeric code, or the complaint that there is none. -/
def nameOfCode (code : Int64) : Except Text Text :=
  match ofCode? code with
  | some c => .ok c.name
  | none => .error "unexpected category"

/-- What the names of the category with a numeric code start with; nothing when there is none. -/
def letterOfCode (code : Int64) : Text := ((ofCode? code).map letter).getD []

/-- The name of a category that was numbered `n`. -/
def numbered (c : Category) (n : Int64) : Text := c.letter ++ .ofWord n

end Category

/-- The failure to number one more name of a category. -/
structure Overflow where
  /-- The category whose counter is exhausted. -/
  category : Category
  deriving DecidableEq

/-- The wording of an overflow, given the numeric code of its category. A code without a category
shows the complaint in place of the word. -/
def Overflow.messageOfCode (code : Int64) : Text :=
  let word := match Category.nameOfCode code with
    | .ok name => name
    | .error complaint => "%!s(PANIC=String method: " ++ complaint ++ ")"
  "internal compiler error: " ++ word ++ " counter overflow"

/-- The counters from which names are numbered. -/
structure NameSupply where
  /-- Number of the next temporary. -/
  temps : Int64 := 0
  /-- Number of the next label. -/
  labels : Int64 := 0
  deriving DecidableEq, Inhabited

namespace NameSupply

/-- The counter of a category. -/
def counter (s : NameSupply) : Category → Int64
  | .temp => s.temps
  | .label => s.labels

/-- The supply after one more name of a category. -/
def advance (s : NameSupply) : Category → NameSupply
  | .temp => { s with temps := s.temps + 1 }
  | .label => { s with labels := s.labels + 1 }

/-- Takes the next name of a category, unless its counter is at the largest word. -/
def fresh (c : Category) (s : NameSupply) : Except Overflow Text × NameSupply :=
  if s.counter c = Int64.maxValue then (.error ⟨c⟩, s)
  else (.ok (c.numbered (s.counter c)), s.advance c)

/-- An operation on a supply. -/
inductive Op where
  /-- Take the next name of a category. -/
  | fresh (c : Category)
  /-- Start both counters again at zero. -/
  | reset
  /-- Set both counters. -/
  | set (temps labels : Int64)
  /-- Change nothing. -/
  | get
  deriving DecidableEq

/-- What an operation gives (a name, for `fresh` only) and the supply after it. -/
def Op.apply : Op → NameSupply → Except Overflow (Option Text) × NameSupply
  | fresh c, s =>
    let (name, s') := s.fresh c
    (name.map some, s')
  | reset, _ => (.ok none, {})
  | set temps labels, _ => (.ok none, ⟨temps, labels⟩)
  | get, s => (.ok none, s)

/-- What one step of a run showed. -/
structure Step where
  /-- The name given, if any, or the failure. -/
  result : Except Overflow (Option Text)
  /-- The supply after the step. -/
  after : NameSupply

/-- The steps of a run, in order; a failed step does not end it. -/
def run : List Op → NameSupply → List Step
  | [], _ => []
  | op :: ops, s =>
    let (result, s') := op.apply s
    ⟨result, s'⟩ :: run ops s'

end NameSupply

end ThreeAddress
