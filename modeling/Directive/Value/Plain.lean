import Directive.Value.Conversion

/-!
# The plain part of a value

A log line is written as JSON text.  Reading the line again gives the plain
part of what was logged: data stays, numbers that JSON lacks become null, and
what is no data is left out of records and null in arrays.  A big integer
cannot be written at all, wherever in the data it stands.
-/

namespace Directive

/-- Why a value cannot be written as JSON text. -/
inductive Unwritable where
  | bigInteger
deriving DecidableEq

/-- The error that stands for a value that cannot be written. -/
def Unwritable.toValue : Unwritable → Value
  | .bigInteger =>
      .typeError (Text.ofString "Do not know how to serialize a BigInt")

/-- A number as JSON keeps it: zero has no sign, and only finite numbers exist. -/
def Binary64.toPlain (number : Binary64) : Value :=
  if number.isFinite then .number number.withoutZeroSign else .null

/-- Whether a record with these own fields says itself what to write in its place.  The functions that
values hold give nothing. -/
def writesNothing (own? : Text → Option Value) : Bool :=
  match own? (Text.ofString "toJSON") with
  | some .function => true
  | _ => false

mutual

/-- The plain part of a value, if it has any. -/
def Value.plain? : Value → Except Unwritable (Option Value)
  | .null => .ok (some .null)
  | .bool value => .ok (some (.bool value))
  | .number value => .ok (some value.toPlain)
  | .string text => .ok (some (.string text))
  | .array items => do return some (.array (← Value.plainItems items))
  | .record fields hidden | .bareRecord fields hidden =>
      if writesNothing (ownField? fields hidden) then .ok none
      else do return some (.ofRecord (← Value.plainFields fields))
  | .map | .error .. | .brokenError .. => .ok (some (.ofRecord []))
  | .fault engineFault => do return some (.ofRecord (← Fault.plainFields engineFault))
  | .bigInteger _ => .error .bigInteger
  | .undefined | .function | .symbol => .ok none

def Value.plainItems : List Value → Except Unwritable (List Value)
  | [] => .ok []
  | item :: items => do
      let kept ← Value.plain? item
      return kept.getD .null :: (← Value.plainItems items)

def Value.plainFields : List (Text × Value) → Except Unwritable (List (Text × Value))
  | [] => .ok []
  | (key, value) :: fields => do
      let kept ← Value.plain? value
      let rest ← Value.plainFields fields
      return (kept.toList.map fun plain => (key, plain)) ++ rest

/-- A fault in a log entry: its code, message, hint and context. -/
def Fault.plainFields : Fault → Except Unwritable (List (Text × Value))
  | .reported code message hint context _ => do
      let kept ← Value.plain? context
      return [(Text.ofString "code", .string code.text),
          (Text.ofString "message", .string message)] ++
        (hint.toList.map fun text => (Text.ofString "hint", Value.string text)) ++
        (kept.toList.map fun plain => (Text.ofString "context", plain))
  | engineFault =>
      .ok ([(Text.ofString "code", .string engineFault.code.text),
          (Text.ofString "message", .string engineFault.message)] ++
        (engineFault.hint?.toList.map fun text => (Text.ofString "hint", Value.string text)) ++
        (match engineFault.context with
          | .undefined => []
          | context => [(Text.ofString "context", context)]))

end

end Directive
