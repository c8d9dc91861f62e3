import Directive.Cursor
import Directive.Numeral
import Directive.Value

/-!
# Reading JSON

Reads a text as one JSON value.  The last value of a repeated key stays, and
keys that are indices come first.
-/

namespace Directive.Json

/-- Reads a part of a JSON text. -/
abbrev Reader (α : Type) :=
  Cursor → Option (α × Cursor)

/-- JSON's blanks are those of directives. -/
def skipBlanks (cursor : Cursor) : Cursor :=
  cursor.skipSpacing

/-- A word that stands for a value. -/
def readWord (word : Text) (value : Value) : Reader Value := fun cursor =>
  (cursor.eat? word).map fun next => (value, next)

def hexDigit? (unit : CodeUnit) : Option Nat :=
  if 0x30 ≤ unit && unit ≤ 0x39 then some (unit.toNat - 0x30)
  else if 0x61 ≤ unit && unit ≤ 0x66 then some (unit.toNat - 0x61 + 10)
  else if 0x41 ≤ unit && unit ≤ 0x46 then some (unit.toNat - 0x41 + 10)
  else none

/-- The unit that a one-letter escape stands for. -/
def escaped? (letter : CodeUnit) : Option CodeUnit :=
  if letter = 0x22 || letter = 0x5C || letter = 0x2F then some letter
  else if letter = 0x62 then some 0x08
  else if letter = 0x66 then some 0x0C
  else if letter = 0x6E then some 0x0A
  else if letter = 0x72 then some 0x0D
  else if letter = 0x74 then some 0x09
  else none

/-- The unit that four hexadecimal digits spell. -/
def hexUnit? (first second third fourth : CodeUnit) : Option CodeUnit := do
  let digits ← [first, second, third, fourth].mapM hexDigit?
  return UInt16.ofNat (digits.foldl (fun number digit => 16 * number + digit) 0)

/-- Reads the units of a string up to its closing quotation mark and tells how
many units that takes.  The units read so far are given in reverse. -/
def stringUnits (read : Text) (length : Nat) : Text → Option (Text × Nat)
  | [] => none
  | 0x22 :: _ => some (read.reverse, length + 1)
  | 0x5C :: 0x75 :: first :: second :: third :: fourth :: rest =>
      match hexUnit? first second third fourth with
      | none => none
      | some unit => stringUnits (unit :: read) (length + 6) rest
  | 0x5C :: letter :: rest =>
      match escaped? letter with
      | none => none
      | some unit => stringUnits (unit :: read) (length + 2) rest
  | unit :: rest =>
      if unit < 0x20 || unit == 0x5C then none else stringUnits (unit :: read) (length + 1) rest

def readString : Reader Text := fun cursor => do
  let opened ← cursor.eat? [0x22]
  let (text, length) ← stringUnits [] 0 opened.rest
  return (text, opened.advance length)

/-- Reads one digit or more. -/
def readDigits : Reader Text := fun cursor =>
  let (digits, next) := cursor.digits
  if digits.isEmpty then none else some (digits, next)

/-- Reads digits without a leading zero. -/
def readWhole : Reader Text := fun cursor => do
  let (digits, next) ← readDigits cursor
  if digits.head? = some 0x30 then return ([0x30], cursor.advance 1) else return (digits, next)

/-- Reads the decimal places of a number, if it has any. -/
def readPlaces : Reader Text := fun cursor =>
  match cursor.eat? [0x2E] with
  | none => some ([], cursor)
  | some point => readDigits point

/-- Reads the power of ten of a number, 0 if none is written. -/
def readExponent : Reader Int := fun cursor =>
  match (cursor.eat? [0x65]).or (cursor.eat? [0x45]) with
  | none => some (0, cursor)
  | some mark => do
      let minus := mark.eat? [0x2D]
      let signed := (minus.or (mark.eat? [0x2B])).getD mark
      let (digits, next) ← readDigits signed
      let magnitude : Int := Numeral.ofDigits digits
      return (if minus.isSome then -magnitude else magnitude, next)

def readNumber : Reader Value := fun cursor => do
  let minus := cursor.eat? [0x2D]
  let (whole, afterWhole) ← readWhole (minus.getD cursor)
  let (places, afterPlaces) ← readPlaces afterWhole
  let (exponent, next) ← readExponent afterPlaces
  return (.number (Binary64.ofDecimal minus.isSome (Numeral.ofDigits (whole ++ places))
    (exponent - places.length)), next)

mutual

/-- Reads a value.  `bound` limits the number of steps; every value, item and
field takes a unit of the text. -/
def readValue : (bound : Nat) → Reader Value
  | 0, _ => none
  | bound + 1, cursor =>
      match cursor.peek? with
      | none => none
      | some unit =>
          if unit = 0x22 then (readString cursor).map fun (text, next) => (.string text, next)
          else if unit = 0x5B then
            let first := skipBlanks (cursor.advance 1)
            match first.eat? [0x5D] with
            | some next => some (.array [], next)
            | none => (readItems bound first).map fun (items, next) => (.array items, next)
          else if unit = 0x7B then
            let first := skipBlanks (cursor.advance 1)
            match first.eat? [0x7D] with
            | some next => some (.ofRecord [], next)
            | none =>
                (readFields bound first).map fun (fields, next) =>
                  (.ofRecord (Record.ofEntries fields), next)
          else if unit = 0x74 then readWord (Text.ofString "true") (.bool true) cursor
          else if unit = 0x66 then readWord (Text.ofString "false") (.bool false) cursor
          else if unit = 0x6E then readWord (Text.ofString "null") .null cursor
          else readNumber cursor

/-- Reads items and the closing bracket. -/
def readItems : (bound : Nat) → Reader (List Value)
  | 0, _ => none
  | bound + 1, cursor => do
      let (item, afterItem) ← readValue bound cursor
      let separator := skipBlanks afterItem
      match separator.eat? [0x5D] with
      | some next => return ([item], next)
      | none =>
          let afterComma ← separator.eat? [0x2C]
          let (items, next) ← readItems bound (skipBlanks afterComma)
          return (item :: items, next)

/-- Reads fields and the closing brace. -/
def readFields : (bound : Nat) → Reader (List (Text × Value))
  | 0, _ => none
  | bound + 1, cursor => do
      let (key, afterKey) ← readString cursor
      let afterColon ← (skipBlanks afterKey).eat? [0x3A]
      let (value, afterValue) ← readValue bound (skipBlanks afterColon)
      let separator := skipBlanks afterValue
      match separator.eat? [0x7D] with
      | some next => return ([(key, value)], next)
      | none =>
          let afterComma ← separator.eat? [0x2C]
          let (fields, next) ← readFields bound (skipBlanks afterComma)
          return ((key, value) :: fields, next)

end

/-- The value that a text spells, with blanks around it. -/
def parse? (text : Text) : Option Value := do
  let (value, next) ← readValue (2 * text.length + 1) (skipBlanks (.start text))
  if (skipBlanks next).atEnd then return value else none

end Directive.Json
