import Directive.Binary64.Decimal
import Directive.Fault

/-!
# Text of values

The text of a value is what messages say of it.  A record does not show its
contents; a record without the inherited operations has no text at all, and
neither has an array with a symbol among its items.  Asking for a text that a
value has not throws, and reading the message of an error may throw anything.
-/

namespace Directive

/-- What is thrown for a record that has no text. -/
def Value.noPrimitive : Value :=
  .typeError (Text.ofString "Cannot convert object to primitive value")

/-- What is thrown where a symbol is put into a text. -/
def Value.symbolInText : Value :=
  .typeError (Text.ofString "Cannot convert a Symbol value to a string")

/-- Name and message of an error; of an empty one only the other. -/
def errorText (name message : Text) : Text :=
  if name.isEmpty then message
  else if message.isEmpty then name
  else name ++ Text.ofString ": " ++ message

/-- The own field of a name, be it listed or not. -/
def ownField? (fields : Record Value) (hidden : List (HiddenKey × Value)) (name : Text) :
    Option Value :=
  fields.get? name <|> (hidden.find? fun field => field.1 = .unlisted name).map Prod.snd

/-- The text of a record whose own fields `toString` and `valueOf` take the
place of the inherited operations; `inherited` is what the record shows without
the first of them. -/
def recordText (inherited : Option Text) (own? : Text → Option Value) : Except Value Text :=
  match own? (Text.ofString "toString"), inherited with
  | some .function, _ => .ok (Text.ofString "undefined")
  | none, some text => .ok text
  | _, _ =>
      match own? (Text.ofString "valueOf") with
      | some .function => .ok (Text.ofString "undefined")
      | _ => .error .noPrimitive

mutual

/-- The text of a value, or what is thrown if it has none. -/
def Value.toText : Value → Except Value Text
  | .null => .ok (Text.ofString "null")
  | .undefined => .ok (Text.ofString "undefined")
  | .bool true => .ok (Text.ofString "true")
  | .bool false => .ok (Text.ofString "false")
  | .number value => .ok value.toText
  | .string text => .ok text
  | .array items => (Value.itemTexts items).map (Text.join [0x2C])
  | .record fields hidden =>
      recordText (some (Text.ofString "[object Object]")) (ownField? fields hidden)
  | .bareRecord fields hidden => recordText none (ownField? fields hidden)
  | .map => .ok (Text.ofString "[object Map]")
  | .function => .ok (Text.ofString "() => \x7b\x7d")
  | .symbol => .ok (Text.ofString "Symbol()")
  | .bigInteger integer => .ok (Text.ofInt integer)
  | .error name .undefined => .ok (errorText name [])
  | .error _ .symbol => .error .symbolInText
  | .error name message => (Value.toText message).map (errorText name)
  | .brokenError _ thrown => .error thrown
  | .fault engineFault => .ok (errorText engineFault.name engineFault.message)

/-- The texts of the items of an array; null and undefined leave theirs empty. -/
def Value.itemTexts : List Value → Except Value (List Text)
  | [] => .ok []
  | .symbol :: _ => .error .symbolInText
  | .null :: items | .undefined :: items => (Value.itemTexts items).map ([] :: ·)
  | item :: items =>
      match Value.toText item with
      | .error thrown => .error thrown
      | .ok text => (Value.itemTexts items).map (text :: ·)

end

namespace Value

/-- The text of a value within a message.  A symbol has none there. -/
def inMessage : Value → Except Value Text
  | .symbol => .error .symbolInText
  | value => value.toText

/-- The message of a value that is an error of any kind, as far as it has a text. -/
def errorMessage? : Value → Option (Except Value Text)
  | .error _ message => some message.inMessage
  | .brokenError _ thrown => some (.error thrown)
  | .fault engineFault => some (.ok engineFault.message)
  | _ => none

/-- What a thrown value says of itself: the message of an error, the text of
any other value. -/
def reason (value : Value) : Except Value Text :=
  value.errorMessage?.getD value.toText

end Value

/-- The lines of a fault for a terminal or build log: code and message, the hint
unless it is empty, and the message of an error that is the cause. -/
def Fault.report (fault : Fault) : Except Value Text :=
  let headline := 0x5B :: fault.code.text ++ Text.ofString "] " ++ fault.message
  let hint := (fault.hint?.filter (!·.isEmpty)).toList.map (Text.ofString "Hint: " ++ ·)
  match fault.cause.errorMessage? with
  | none => .ok (Text.join [0x0A] (headline :: hint))
  | some message => message.map fun text =>
      Text.join [0x0A] (headline :: hint ++ [Text.ofString "Caused by: " ++ text])

end Directive
