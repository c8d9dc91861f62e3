import Directive.LineIndex
import Directive.Literal

/-!
# Directive calls

A call names a directive and gives it named arguments.  Names may be repeated,
and every argument is kept, in the order of writing.
-/

namespace Directive

/-- The units from `start` up to, and without, `stop`.  A document made by hand
may give its nodes any. -/
structure Span where
  start : Int
  stop : Int
deriving DecidableEq

structure Argument where
  name : Text
  value : Literal

/-- What a call says, apart from where and how it is written. -/
structure Invocation where
  name : Text
  arguments : List Argument

/-- A call in a document: what it says, how it is written, and where. -/
structure Call extends Invocation where
  raw : Text
  span : Span
  position : Position

/-- Writes an argument as its name, an equals sign and its literal. -/
def Argument.format (argument : Argument) : Text :=
  argument.name ++ 0x3D :: argument.value.format

/-- Writes a call in canonical form, with one space inside the braces
and after every comma. -/
def Invocation.format (invocation : Invocation) : Text :=
  Text.ofString "\x7b\x7b " ++ invocation.name ++ 0x28 ::
    Text.join (Text.ofString ", ") (invocation.arguments.map Argument.format) ++
    Text.ofString ") \x7d\x7d"

end Directive
