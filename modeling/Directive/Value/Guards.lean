import Directive.Identifier
import Directive.Value

/-!
# Checks of values

Values that come from outside are checked before they are used as what they
should be.
-/

namespace Directive.Value

/-- The text of a string that is not blank. -/
def nonBlankString? : Value → Option Text
  | .string text => if text.isBlank then none else some text
  | _ => none

def isNonBlankString (value : Value) : Bool :=
  value.nonBlankString?.isSome

/-- Whether a value is a string that spells an identifier. -/
def isIdentifier : Value → Bool
  | .string text => text.isIdentifier
  | _ => false

/-- The listed fields of a plain record; arrays, maps and errors are none. -/
def plainFields? : Value → Option (Record Value)
  | .record fields _ | .bareRecord fields _ => some fields
  | _ => none

def isPlainRecord (value : Value) : Bool :=
  value.plainFields?.isSome

/-- The option that a value names, if it is a string among the options. -/
def oneOf? (options : List Text) : Value → Option Text
  | .string text => if options.contains text then some text else none
  | _ => none

def isOneOf (options : List Text) (value : Value) : Bool :=
  (value.oneOf? options).isSome

end Directive.Value
