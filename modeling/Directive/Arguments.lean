import Directive.Call
import Directive.Fault

/-!
# Arguments of a call

The view of its arguments that a handler works with.  Every argument is listed;
under a name that is repeated, only the last literal is seen.  The view itself
demands nothing: arguments are looked up, and their kinds checked, when a
handler asks for them.
-/

namespace Directive

namespace Literal

def text? : Literal → Option Text
  | .string value _ => some value
  | _ => none

def integer? : Literal → Option Binary64
  | .int value _ => some value
  | _ => none

def truth? : Literal → Option Bool
  | .bool value => some value
  | _ => none

def items? : Literal → Option (List Literal)
  | .array items => some items
  | _ => none

end Literal

structure Arguments where
  list : List Argument

namespace Arguments

/-- The number of arguments, repeated names included. -/
def size (arguments : Arguments) : Nat :=
  arguments.list.length

/-- Every name with its last literal, in order of first appearance. -/
def byName (arguments : Arguments) : Record Literal :=
  Record.ofPairs (arguments.list.map fun argument => (argument.name, argument.value))

def names (arguments : Arguments) : List Text :=
  arguments.byName.keys

def has (arguments : Arguments) (name : Text) : Bool :=
  arguments.byName.contains name

def get? (arguments : Arguments) (name : Text) : Option Literal :=
  arguments.byName.get? name

/-- The literal of an argument that must be there. -/
def require (arguments : Arguments) (name : Text) : Except Fault Literal :=
  match arguments.get? name with
  | none => .error (.missingArgument name)
  | some literal => .ok literal

/-- What an argument holds that must be there and be of a kind.  `held?` tells
what the literals of the kind hold. -/
def expect {α : Type} (arguments : Arguments) (kind : Literal.Kind) (held? : Literal → Option α)
    (name : Text) : Except Fault α :=
  match arguments.require name with
  | .error fault => .error fault
  | .ok literal =>
      match held? literal with
      | some held => .ok held
      | none => .error (.wrongArgument name kind literal.kind)

def string (arguments : Arguments) (name : Text) : Except Fault Text :=
  arguments.expect .string Literal.text? name

def int (arguments : Arguments) (name : Text) : Except Fault Binary64 :=
  arguments.expect .int Literal.integer? name

/-- A float, or an integer as a number. -/
def float (arguments : Arguments) (name : Text) : Except Fault Binary64 :=
  match arguments.require name with
  | .error fault => .error fault
  | .ok (.float value _) | .ok (.int value _) => .ok value
  | .ok literal => .error (.wrongArgument name .float literal.kind)

def bool (arguments : Arguments) (name : Text) : Except Fault Bool :=
  arguments.expect .bool Literal.truth? name

/-- The items of an array as plain values. -/
def array (arguments : Arguments) (name : Text) : Except Fault (List Value) :=
  (arguments.expect .array Literal.items? name).map fun items => items.map Literal.toValue

/-- What a required accessor gives if the argument is there, and the fallback if
it is not.  The fallback is handed on unchecked. -/
def orFallback (arguments : Arguments) (name : Text) (fallback : Value)
    (given : Except Fault Value) : Except Fault Value :=
  if arguments.has name then given else .ok fallback

def optionalString (arguments : Arguments) (name : Text) (fallback : Value) :
    Except Fault Value :=
  arguments.orFallback name fallback ((arguments.string name).map .string)

def optionalInt (arguments : Arguments) (name : Text) (fallback : Value) : Except Fault Value :=
  arguments.orFallback name fallback ((arguments.int name).map .number)

def optionalFloat (arguments : Arguments) (name : Text) (fallback : Value) :
    Except Fault Value :=
  arguments.orFallback name fallback ((arguments.float name).map .number)

def optionalBool (arguments : Arguments) (name : Text) (fallback : Value) : Except Fault Value :=
  arguments.orFallback name fallback ((arguments.bool name).map .bool)

def optionalArray (arguments : Arguments) (name : Text) (fallback : Value) :
    Except Fault Value :=
  arguments.orFallback name fallback ((arguments.array name).map .array)

/-- The required accessor of a kind. -/
def required (arguments : Arguments) : Literal.Kind → Text → Except Fault Value
  | .string, name => (arguments.string name).map .string
  | .int, name => (arguments.int name).map .number
  | .float, name => (arguments.float name).map .number
  | .bool, name => (arguments.bool name).map .bool
  | .array, name => (arguments.array name).map .array

/-- The optional accessor of a kind. -/
def optional (arguments : Arguments) :
    Literal.Kind → Text → (fallback : Value) → Except Fault Value
  | .string => arguments.optionalString
  | .int => arguments.optionalInt
  | .float => arguments.optionalFloat
  | .bool => arguments.optionalBool
  | .array => arguments.optionalArray

/-- All names with their plain values.  An identifier is no index, so only names
that no parsed call has are moved. -/
def toRecord (arguments : Arguments) : Record Value :=
  Record.indicesFirst (arguments.byName.map fun pair => (pair.1, pair.2.toValue))

end Arguments

end Directive
