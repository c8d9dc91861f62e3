import Directive.Binary64.Rounding
import Directive.Literal
import Directive.Record

/-!
# Values and faults

Handlers return and throw values of any kind, configuration is a value, and log
entries carry values.  A fault is an error of the engine itself.  A fault can
have a value as its cause and be a value in turn, so the two types are defined
together.
-/

namespace Directive

/-- Why a setting of a configuration is rejected. -/
inductive SettingProblem where
  | blank
  | notOneOf (options : List Text)
  | unrecognized
deriving DecidableEq

/-- Why a configuration file gives no value. -/
inductive ReadProblem where
  | missing
  | isDirectory
  | denied
  | notJson
deriving DecidableEq

/-- The documented failure modes. -/
inductive Code where
  | invalidInput
  | unknownDirective
  | directiveFailed
  | registryConflict
  | registryFrozen
  | argumentMissing
  | argumentType
  | placeholderMismatch
  | configUnreadable
  | configInvalid
deriving DecidableEq

/-- The call that a fault is about: the directive and where it is called. -/
structure Site where
  directive : Text
  line : Int
  column : Int
deriving DecidableEq

/-- The key of a field that is passed over when the fields of a record are listed. -/
inductive HiddenKey where
  /-- A symbol, but none that the language itself looks up. -/
  | symbol
  /-- The name of a field that is not enumerable. -/
  | unlisted (name : Text)
deriving DecidableEq

mutual

inductive Value where
  | null
  | undefined
  | bool (value : Bool)
  | number (value : Binary64)
  | string (value : Text)
  | array (items : List Value)
  /-- A plain record with the inherited operations. -/
  | record (fields : List (Text × Value)) (hidden : List (HiddenKey × Value))
  /-- A plain record that inherits nothing. -/
  | bareRecord (fields : List (Text × Value)) (hidden : List (HiddenKey × Value))
  /-- An empty map, which is no plain record. -/
  | map
  | function
  | symbol
  | bigInteger (value : Int)
  /-- An error that is none of the engine's.  Its message need not be a text. -/
  | error (name : Text) (message : Value)
  /-- Such an error that throws when its message is read. -/
  | brokenError (name : Text) (thrown : Value)
  | fault (fault : Fault)

inductive Fault where
  /-- An error reported with a code and message of the embedder's choice; an
  undefined context or cause is none. -/
  | reported (code : Code) (message : Text) (hint : Option Text) (context cause : Value)
  | blankPlaceholder
  | noFreePlaceholder (placeholder : Text)
  | unknownDirective (site : Site)
  /-- A handler threw `cause`, which reads `reason`. -/
  | directiveFailed (site : Site) (reason : Text) (cause : Value)
  | registryFrozen (name : Text)
  | invalidName (name : Text)
  | nameTaken (name : Text)
  | missingArgument (name : Text)
  | wrongArgument (name : Text) (expected actual : Literal.Kind)
  | placeholderMismatch (expected found : Nat)
  | unreadableConfig (path : Text) (problem : ReadProblem)
  | configNotRecord (path : Text)
  | invalidSetting (path key : Text) (problem : SettingProblem)

end

namespace Value

def ofNat (number : Nat) : Value :=
  .number (.ofNat number)

def ofInt (number : Int) : Value :=
  .number (.ofInt number)

/-- A value given as text, for messages and fields. -/
def ofString (string : String) : Value :=
  .string (Text.ofString string)

/-- A record without hidden fields. -/
def ofRecord (fields : Record Value) : Value :=
  .record fields []

/-- An error of the language, about a value that is not of the right type. -/
def typeError (message : Text) : Value :=
  .error (Text.ofString "TypeError") (.string message)

/-- The word for the kind of a value. -/
def typeName : Value → Text
  | .undefined => Text.ofString "undefined"
  | .bool _ => Text.ofString "boolean"
  | .number _ => Text.ofString "number"
  | .string _ => Text.ofString "string"
  | .function => Text.ofString "function"
  | .symbol => Text.ofString "symbol"
  | .bigInteger _ => Text.ofString "bigint"
  | .null | .array _ | .record .. | .bareRecord .. | .map | .error .. | .brokenError ..
  | .fault _ =>
      Text.ofString "object"

end Value

mutual

/-- The plain value of a literal. -/
def Literal.toValue : Literal → Value
  | .bool value => .bool value
  | .string value _ => .string value
  | .int value _ => .number value
  | .float value _ => .number value
  | .array items => .array (Literal.toValues items)

def Literal.toValues : List Literal → List Value
  | [] => []
  | item :: items => Literal.toValue item :: Literal.toValues items

end

end Directive
