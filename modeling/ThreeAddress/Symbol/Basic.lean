import Std.Data.TreeMap
import ThreeAddress.Position

/-!
# Symbols

A symbol is a name declared with a type in a scope. Scopes are numbered, and scope 0 is visible
everywhere. The ways in which a declaration or a look-up fails are causes with one wording each.
-/

namespace ThreeAddress

/-- The number of a scope. -/
abbrev Scope := Int64

/-- The scope that every other scope can see. -/
def globalScope : Scope := 0

/-- A declared name. -/
structure Symbol where
  /-- The name. -/
  name : Text := []
  /-- The type it was declared with. -/
  type : Text := []
  /-- The scope it was declared in. -/
  scope : Scope := globalScope
  /-- Where it was declared, if known. -/
  pos : Option Position := none
  deriving DecidableEq, Inhabited

/-- What tells symbols of one table apart. -/
structure Symbol.Key where
  /-- The name. -/
  name : Text
  /-- The scope. -/
  scope : Scope
  deriving DecidableEq

namespace Symbol.Key

/-- Keys are ordered by name and then by scope. -/
instance : Ord Key := ⟨compareLex (compareOn name) (compareOn scope)⟩

instance : Std.TransOrd Key :=
  inferInstanceAs (Std.TransCmp (compareLex (compareOn name) (compareOn scope)))

instance : Std.LawfulEqOrd Key where
  eq_of_compare {a b} h := by
    obtain ⟨hname, hscope⟩ := Ordering.then_eq_eq.mp h
    cases a
    cases b
    cases Std.LawfulEqOrd.eq_of_compare hname
    cases Std.LawfulEqOrd.eq_of_compare hscope
    rfl

end Symbol.Key

/-- The key of a symbol. -/
def Symbol.key (s : Symbol) : Key := ⟨s.name, s.scope⟩

/-- Why a declaration or a look-up failed. -/
inductive SymbolError where
  /-- The name already stands for `prev` in this scope. -/
  | redeclaration (name : Text) (scope : Scope) (pos : Option Position) (prev : Symbol)
  /-- The table holds as many symbols as it may. -/
  | capacity (limit : Int64)
  /-- The name is declared neither in this scope nor globally. -/
  | notFound (name : Text) (scope : Scope)
  deriving DecidableEq

/-- The wording of a failure. A redeclaration tells the earlier place when it is known. -/
def SymbolError.message : SymbolError → Text
  | redeclaration name scope _ prev =>
    let earlier : Text := match prev.pos with
      | none => []
      | some p => " previously declared at " ++ p.text
    "Redeclaration of `" ++ name ++ "' in scope " ++ Text.ofWord scope ++ earlier
  | capacity limit => "Symbol table overflow: limit of " ++ Text.ofWord limit ++ " symbols reached"
  | notFound name scope =>
    if scope = globalScope then "Identifier `" ++ name ++ "' not declared in the global scope"
    else "Identifier `" ++ name ++ "' not declared in scope " ++ Text.ofWord scope ++
      " or the global scope"

end ThreeAddress
