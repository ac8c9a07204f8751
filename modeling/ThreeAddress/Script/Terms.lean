import ThreeAddress.Diagnostic.Sinks
import ThreeAddress.Text.Template

/-!
# Terms of a script

A script may give a text outright or name the result of an earlier statement. The terms here
stand for texts, places, symbols and faults that are known once the bindings, and for a
fault also the sinks, are known.
-/

namespace ThreeAddress.Script

/-- The results bound to names so far, the latest first. -/
abbrev Bindings := List (Text × Text)

namespace Bindings

/-- The text last bound to a name; empty when there is none. -/
def get (b : Bindings) (name : Text) : Text := (b.lookup name).getD []

end Bindings

/-- A text in a script. -/
inductive Operand where
  /-- The text itself. -/
  | literal (t : Text)
  /-- The result bound to a name. -/
  | named (name : Text)
  deriving DecidableEq

/-- The text that an operand stands for. -/
def Operand.read (b : Bindings) : Operand → Text
  | literal t => t
  | named name => b.get name

/-- Binds a text to the name that an operand stands for, when one is given. -/
def Bindings.bind (b : Bindings) (name : Option Operand) (t : Text) : Bindings :=
  match name with
  | none => b
  | some n => (n.read b, t) :: b

/-- A position in a script. -/
structure Place where
  /-- Name of the file. -/
  file : Operand
  /-- Line, the first being zero. -/
  line : Int64
  /-- First column. -/
  startCol : Int64
  /-- Last column. -/
  endCol : Int64
  deriving DecidableEq

/-- The position that a place stands for. -/
def Place.read (b : Bindings) (p : Place) : Position :=
  ⟨p.file.read b, p.line, p.startCol, p.endCol⟩

/-- A symbol in a script. -/
structure Declaration where
  /-- The name. -/
  name : Operand
  /-- The type. -/
  type : Operand
  /-- The scope. -/
  scope : Scope
  /-- The place, if given. -/
  pos : Option Place
  deriving DecidableEq

/-- The symbol that a declaration stands for. -/
def Declaration.read (b : Bindings) (d : Declaration) : Symbol :=
  ⟨d.name.read b, d.type.read b, d.scope, d.pos.map (·.read b)⟩

/-- An argument of a message template in a script. -/
inductive Argument where
  /-- A text. -/
  | text (t : Operand)
  /-- A number. -/
  | number (n : Int64)
  deriving DecidableEq

/-- The template argument that an argument stands for. -/
def Argument.read (b : Bindings) : Argument → Text.Arg
  | text t => .text (t.read b)
  | number n => .number n

/-- A message in a script: a template and its arguments. -/
structure Message where
  /-- The template. -/
  template : Operand
  /-- The arguments of its verbs. -/
  args : List Argument
  deriving DecidableEq

/-- The text of a message. -/
def Message.read (b : Bindings) (m : Message) : Text :=
  (m.template.read b).expand (m.args.map (·.read b))

/-- A fault in a script. -/
inductive Cause where
  /-- No fault at all; a report of it stands for no report. -/
  | absent
  /-- A name declared again; `prev` is the earlier symbol. -/
  | redeclaration (again prev : Declaration)
  /-- A full table. -/
  | capacity (limit : Int64)
  /-- A name without a declaration. -/
  | notFound (name : Operand) (scope : Scope)
  /-- An exhausted counter of the category with a code. -/
  | overflow (code : Int64)
  /-- A message. -/
  | message (m : Message)
  /-- A message about another fault. -/
  | wrapped (m : Message) (cause : Cause)
  /-- What a named list holds when the fault is built. -/
  | snapshot (list : Operand)
  deriving DecidableEq

namespace Cause

/-- The fault that a cause stands for, if any; a message about no fault is no fault. -/
def build? (b : Bindings) (s : Sinks) : Cause → Option Fault
  | absent => none
  | redeclaration again prev =>
    let d := again.read b
    some (.symbol (.redeclaration d.name d.scope d.pos (prev.read b)))
  | capacity limit => some (.symbol (.capacity limit))
  | notFound name scope => some (.symbol (.notFound (name.read b) scope))
  | overflow code => some (.overflow code)
  | message m => some (.message (m.read b))
  | wrapped m cause => (cause.build? b s).map (.wrapped (m.read b))
  | snapshot list => some (.list (s.get (list.read b)))

/-- The lists that a cause names. -/
def lists (b : Bindings) : Cause → List Text
  | wrapped _ cause => cause.lists b
  | snapshot list => [list.read b]
  | _ => []

end Cause

end ThreeAddress.Script
