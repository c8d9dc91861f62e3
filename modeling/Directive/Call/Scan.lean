import Directive.Call
import Directive.Literal.Scan

/-!
# Reading directive calls

The grammar, where `ws` is any run of spacing:

* `call = "{{" ws name ws "(" ws [ argument (ws "," ws argument)* ] ws ")" ws "}}"`
* `argument = name ws "=" ws literal`

No comma may follow the last argument.  Reading looks only at the text of the
call itself, wherever it stands.
-/

namespace Directive

/-- An argument whose literal holds numerals that are out of range, which is
why its call is not recognized. -/
structure Overflow where
  argument : Text
  numerals : List Literal.OutOfRange
deriving DecidableEq

/-- A reader of a part of a call.  Its failure tells of an overflow, if that is
what made it fail. -/
abbrev CallReader (α : Type) :=
  Cursor → Except (Option Overflow) (α × Cursor)

namespace Call

/-- The two braces that open a call. -/
def opener : Text :=
  [0x7B, 0x7B]

/-- The two braces that close a call. -/
def closer : Text :=
  [0x7D, 0x7D]

/-- Passes over a fixed text. -/
def expect (text : Text) (cursor : Cursor) : Except (Option Overflow) Cursor :=
  match cursor.eat? text with
  | some next => .ok next
  | none => .error none

def readName : CallReader Text := fun cursor =>
  match cursor.identifier? with
  | some result => .ok result
  | none => .error none

def readLiteral (argument : Text) : CallReader Literal := fun cursor =>
  match Literal.readAt 0 cursor with
  | .ok result => .ok result
  | .error failure =>
      .error (if failure.outOfRange.isEmpty then none else some ⟨argument, failure.outOfRange⟩)

def readArgument : CallReader Argument := fun cursor => do
  let (name, afterName) ← readName cursor
  let afterEquals ← expect [0x3D] afterName.skipSpacing
  let (value, next) ← readLiteral name afterEquals.skipSpacing
  return (⟨name, value⟩, next)

/-- Reads one argument or more, and the closing parenthesis.  Every argument
takes at least one unit, so the text that remains at the first of them bounds
their number. -/
def readArguments : (bound : Text) → CallReader (List Argument)
  | [], _ => .error none
  | _ :: bound, cursor => do
      let (argument, afterArgument) ← readArgument cursor
      let separator := afterArgument.skipSpacing
      match separator.eat? [0x29] with
      | some next => return ([argument], next)
      | none =>
          let afterComma ← expect [0x2C] separator
          let (arguments, next) ← readArguments bound afterComma.skipSpacing
          return (argument :: arguments, next)

/-- Reads the arguments of a call, which may be none, and the closing
parenthesis. -/
def readArgumentList : CallReader (List Argument) := fun cursor =>
  match cursor.eat? [0x29] with
  | some next => .ok ([], next)
  | none => readArguments cursor.rest cursor

/-- Reads a whole call. -/
def read : CallReader Invocation := fun cursor => do
  let opened ← expect opener cursor
  let (name, afterName) ← readName opened.skipSpacing
  let parenthesis ← expect [0x28] afterName.skipSpacing
  let (arguments, afterArguments) ← readArgumentList parenthesis.skipSpacing
  let next ← expect closer afterArguments.skipSpacing
  return (⟨name, arguments⟩, next)

/-- The call that a text begins with, if it begins with one, and the number of
units that the call takes. -/
def recognize? (text : Text) : Option (Invocation × Nat) :=
  match read (Cursor.start text) with
  | .ok (invocation, next) => some (invocation, next.offset)
  | .error _ => none

/-- The overflow that keeps a text from beginning with a call. -/
def overflow? (text : Text) : Option Overflow :=
  match read (Cursor.start text) with
  | .ok _ => none
  | .error overflow => overflow

end Call

end Directive
