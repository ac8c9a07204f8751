import ThreeAddress.Text.Quoted

/-!
# Message templates

A template is a text in which `%` and a verb stand for the next argument: `%s` for a text, `%d` for
a number, `%v` for either, `%q` for a quoted one, and `%%` for the sign itself. A template that does
not fit its arguments still renders: each mistake is shown where it occurs.

Flags, widths, precisions, argument indexes and all other verbs (`%5d`, `%+v`, `%x`) are left out.
What is rendered for a template that uses one of them has no meaning: the byte behind the sign is
taken for a verb that suits no argument.
-/

namespace ThreeAddress.Text

/-- An argument of a template. -/
inductive Arg where
  /-- A text. -/
  | text (t : Text)
  /-- A signed 64-bit number. -/
  | number (n : Int64)
  deriving DecidableEq

namespace Arg

/-- The argument as `%v` shows it. -/
def plain : Arg → Text
  | text t => t
  | number n => ofWord n

/-- The argument between quotes. -/
def quoted : Arg → Text
  | text t => t.quoted
  | number n => quotedScalar n.toInt

/-- The argument with its type, as mistakes show it. -/
def typed : Arg → Text
  | text t => "string=" ++ t
  | number n => "int=" ++ ofWord n

/-- The argument as a verb shows it, if the verb suits its type. -/
def shown? (verb : Text) (a : Arg) : Option Text :=
  if verb = "v" then some a.plain
  else if verb = "q" then some a.quoted
  else match a with
    | text t => if verb = "s" then some t else none
    | number n => if verb = "d" then some (ofWord n) else none

end Arg

/-- A verb as mistakes show it: a stray byte appears as the replacement character. -/
def Piece.verb : Piece → Text
  | .scalar _ encoding => encoding
  | .stray _ => "\ufffd"

/-- What a verb turns into, given the arguments not yet used. -/
def expandVerb (verb : Text) : List Arg → Text
  | [] => "%!" ++ verb ++ "(MISSING)"
  | a :: _ => (a.shown? verb).getD ("%!" ++ verb ++ "(" ++ a.typed ++ ")")

/-- What shows the arguments that no verb used. -/
def expandExtra : List Arg → Text
  | [] => []
  | extra => "%!(EXTRA " ++ join ", " (extra.map Arg.typed) ++ ")"

/-- Renders a template given as pieces. -/
def expandPieces : List Piece → List Arg → Text
  | [], args => expandExtra args
  | [.scalar 0x25 _], args => "%!(NOVERB)" ++ expandExtra args
  | .scalar 0x25 _ :: p :: rest, args =>
    if p.verb = "%" then "%" ++ expandPieces rest args
    else expandVerb p.verb args ++ expandPieces rest args.tail
  | p :: rest, args => p.bytes ++ expandPieces rest args

/-- Renders a template with its arguments. -/
def expand (template : Text) (args : List Arg) : Text := expandPieces template.pieces args

end ThreeAddress.Text
