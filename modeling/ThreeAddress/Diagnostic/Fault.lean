import ThreeAddress.NameSupply
import ThreeAddress.Symbol.Basic

/-!
# Faults and diagnostics

A fault is what can go wrong: a failure of the symbol table, an exhausted counter, a plain message,
a message about another fault, or a list of faults with their places. A diagnostic is a fault with
its place. Faults form trees, and a search looks for the first node of a kind, parents before
children and children in order.
-/

namespace ThreeAddress

/-- A value with the place it is about, if that is known. -/
structure Located (α : Type) where
  /-- The place. -/
  pos : Option Position
  /-- The value. -/
  value : α

/-- Something that went wrong. -/
inductive Fault where
  /-- A failed declaration or look-up. -/
  | symbol (e : SymbolError)
  /-- The counter of the category with this code is exhausted. -/
  | overflow (code : Int64)
  /-- A message and nothing more. -/
  | message (text : Text)
  /-- A message about a cause. -/
  | wrapped (text : Text) (cause : Fault)
  /-- Several faults with their places. -/
  | list (entries : List (Located Fault))

/-- A fault with its place. -/
abbrev Diagnostic := Located Fault

/-- Diagnostics in the order in which they were reported. -/
abbrev ErrorList := List Diagnostic

/-- The text of a list from the lines of its entries. -/
def ErrorList.textOfLines : List Text → Text
  | [] => "no errors"
  | [line] => line
  | lines => Text.join "\n" lines

/-- A single line needs no case of its own: it is what joining the lines gives. -/
theorem ErrorList.textOfLines_of_ne_nil {lines : List Text} (h : lines ≠ []) :
    textOfLines lines = Text.join "\n" lines := by
  match lines with
  | [] => exact absurd rfl h
  | [line] => exact List.intercalate_singleton.symm
  | _ :: _ :: _ => rfl

/-- The wording of a message about a cause. Faults are wrapped by means that lie outside of this
library, and that they show the message, a colon, a blank and the wording of the cause is assumed of
them here and nowhere else. -/
def Fault.wrappedText (message cause : Text) : Text := message ++ ": " ++ cause

mutual

/-- The wording of a fault. -/
def Fault.text : Fault → Text
  | .symbol e => e.message
  | .overflow code => Overflow.messageOfCode code
  | .message text => text
  | .wrapped text cause => Fault.wrappedText text cause.text
  | .list entries => ErrorList.textOfLines (ErrorList.lines entries)

/-- The wording of a diagnostic: its place, if known, and its fault. -/
def Diagnostic.text : Diagnostic → Text
  | ⟨none, f⟩ => f.text
  | ⟨some p, f⟩ => p.text ++ ": " ++ f.text

/-- The wordings of all entries. -/
def ErrorList.lines : ErrorList → List Text
  | [] => []
  | d :: rest => d.text :: ErrorList.lines rest

end

/-- The wording of a list: its entries on lines of their own. -/
def ErrorList.text (l : ErrorList) : Text := textOfLines (lines l)

/-- The faults of a list without their places. -/
def ErrorList.faults (l : ErrorList) : List Fault := l.map Located.value

/-- The list as one fault; an empty list is none. -/
def ErrorList.fault? (l : ErrorList) : Option Fault := if l.isEmpty then none else some (.list l)

/-- The kinds of fault that can be searched for. -/
inductive FaultKind where
  /-- A name declared again. -/
  | redeclaration
  /-- A full table. -/
  | capacity
  /-- A name without a declaration. -/
  | notFound
  /-- An exhausted counter. -/
  | overflow
  /-- A list of faults. -/
  | list
  deriving DecidableEq

/-- The kind of a fault itself; messages have none. -/
def Fault.kind? : Fault → Option FaultKind
  | .symbol (.redeclaration ..) => some .redeclaration
  | .symbol (.capacity _) => some .capacity
  | .symbol (.notFound ..) => some .notFound
  | .overflow _ => some .overflow
  | .message _ => none
  | .wrapped .. => none
  | .list _ => some .list

mutual

/-- The first node of a kind in a fault: the fault itself, then what it is about. -/
def Fault.find? (kind : FaultKind) : Fault → Option Fault
  | .symbol e => if (Fault.symbol e).kind? = some kind then some (.symbol e) else none
  | .overflow code => if kind = .overflow then some (.overflow code) else none
  | .message _ => none
  | .wrapped _ cause => cause.find? kind
  | .list entries => if kind = .list then some (.list entries) else ErrorList.find? kind entries

/-- The first node of a kind in a diagnostic. -/
def Diagnostic.find? (kind : FaultKind) : Diagnostic → Option Fault
  | ⟨_, f⟩ => f.find? kind

/-- The first node of a kind in the entries of a list. -/
def ErrorList.find? (kind : FaultKind) : ErrorList → Option Fault
  | [] => none
  | d :: rest => d.find? kind <|> ErrorList.find? kind rest

end

/-- The classes by which reported faults are counted. -/
inductive FaultClass where
  /-- Some node is a redeclaration. -/
  | redeclaration
  /-- Otherwise, some node is a full table. -/
  | capacity
  /-- Otherwise, some node is a name without a declaration. -/
  | undeclared
  /-- None of these. -/
  | other
  deriving DecidableEq

/-- The name under which a class is counted. -/
def FaultClass.name : FaultClass → Text
  | redeclaration => "redeclaration"
  | capacity => "capacity"
  | undeclared => "undeclared"
  | other => "other"

/-- The class of a fault: the first of the kinds, in the order above, that occurs in it. -/
def Fault.classify (f : Fault) : FaultClass :=
  if (f.find? .redeclaration).isSome then .redeclaration
  else if (f.find? .capacity).isSome then .capacity
  else if (f.find? .notFound).isSome then .undeclared
  else .other

end ThreeAddress
