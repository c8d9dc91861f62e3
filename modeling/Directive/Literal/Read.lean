import Directive.Cursor
import Directive.Literal
import Directive.Numeral

/-!
# Reading literals

The grammar is an ordered choice:

* `bool    = "true" | "false"`
* `string  = mark (!mark ANY)* mark`, for the same one of the three marks
* `float   = int "." DIGIT+`, with a finite value
* `int     = "-"? ("0" | [1-9] DIGIT*)`, in the safe range
* `array   = "[" ws [ literal (ws "," ws literal)* (ws ",")? ] ws "]"`

The first alternative that matches in full is taken.  A failure tells the
furthest offset that an alternative reached, and the numerals that were
well formed but out of range.
-/

namespace Directive.Literal

inductive NumberForm where
  | int
  | float
deriving DecidableEq

/-- A numeral whose value its kind of literal cannot hold. -/
structure OutOfRange where
  form : NumberForm
  lexeme : Text
deriving DecidableEq

structure Failure where
  offset : Int
  outOfRange : List OutOfRange
deriving DecidableEq

namespace Failure

/-- Nothing matches at the cursor. -/
def noMatch (cursor : Cursor) : Failure :=
  ⟨cursor.offset, []⟩

/-- The failure of two alternatives. -/
def merge (first second : Failure) : Failure :=
  ⟨max first.offset second.offset, first.outOfRange ++ second.outOfRange⟩

end Failure

abbrev Reader (α : Type) :=
  Cursor → Except Failure (α × Cursor)

/-- Tries readers in order, each from the same cursor. -/
def firstOf {α : Type} : List (Reader α) → Reader α
  | [], cursor => .error (.noMatch cursor)
  | reader :: readers, cursor =>
      match reader cursor with
      | .ok result => .ok result
      | .error failure => (firstOf readers cursor).mapError failure.merge

def readBool : Reader Literal := fun cursor =>
  match cursor.eat? (Text.ofString "true") with
  | some next => .ok (.bool true, next)
  | none =>
      match cursor.eat? (Text.ofString "false") with
      | some next => .ok (.bool false, next)
      | none => .error (.noMatch cursor)

/-- A string that is never closed fails at the end of the text. -/
def readString : Reader Literal := fun cursor =>
  match cursor.peek?.bind Quote.ofUnit? with
  | none => .error (.noMatch cursor)
  | some quote =>
      let (value, close) := (cursor.advance 1).takeWhile (· != quote.unit)
      if close.atEnd then .error (.noMatch close)
      else .ok (.string value quote, close.advance 1)

/-- Passes over an optional minus sign and an integer without leading zeros.
An error is the cursor where a digit is missing. -/
def integerPart (cursor : Cursor) : Except Cursor Cursor :=
  let unsigned := (cursor.eat? [0x2D]).getD cursor
  match unsigned.peek? with
  | none => .error unsigned
  | some unit =>
      if unit == 0x30 then .ok (unsigned.advance 1)
      else if CodeUnit.isDigit unit then .ok unsigned.digits.2
      else .error unsigned

/-- The text between two cursors. -/
def lexemeBetween (start stop : Cursor) : Text :=
  start.rest.take (stop.offset - start.offset)

def readFloat : Reader Literal := fun cursor =>
  match integerPart cursor with
  | .error stopped => .error (.noMatch stopped)
  | .ok whole =>
      match whole.eat? [0x2E] with
      | none => .error (.noMatch whole)
      | some point =>
          let (places, stop) := point.digits
          if places.isEmpty then .error (.noMatch stop)
          else
            let lexeme := lexemeBetween cursor stop
            let value := Numeral.value lexeme
            if value.isFinite then .ok (.float value lexeme, stop)
            else .error ⟨cursor.offset, [⟨.float, lexeme⟩]⟩

/-- The integer zero has no sign, also where a minus sign is written. -/
def readInt : Reader Literal := fun cursor =>
  match integerPart cursor with
  | .error stopped => .error (.noMatch stopped)
  | .ok stop =>
      let lexeme := lexemeBetween cursor stop
      let value := Numeral.value lexeme
      if value.isSafeInteger then .ok (.int value.withoutZeroSign lexeme, stop)
      else .error ⟨cursor.offset, [⟨.int, lexeme⟩]⟩

/-- Reads the items of an array that has at least one, and its closing bracket.
Every item takes at least one unit, so the text that remains at the first of
them bounds their number. -/
def readItems (item : Reader Literal) : (bound : Text) → Reader (List Literal)
  | [], cursor => .error (.noMatch cursor)
  | _ :: bound, cursor =>
      match item cursor with
      | .error failure => .error failure
      | .ok (literal, afterItem) =>
          let separator := afterItem.skipSpacing
          match separator.eat? [0x5D] with
          | some next => .ok ([literal], next)
          | none =>
              match separator.eat? [0x2C] with
              | none => .error (.noMatch separator)
              | some afterComma =>
                  let following := afterComma.skipSpacing
                  match following.eat? [0x5D] with
                  | some next => .ok ([literal], next)
                  | none =>
                      match readItems item bound following with
                      | .error failure => .error failure
                      | .ok (literals, next) => .ok (literal :: literals, next)

/-- Reads an array whose items are read by `item`. -/
def readArray (item : Reader Literal) : Reader Literal := fun cursor =>
  match cursor.eat? [0x5B] with
  | none => .error (.noMatch cursor)
  | some opened =>
      let first := opened.skipSpacing
      match first.eat? [0x5D] with
      | some next => .ok (.array [], next)
      | none =>
          match readItems item first.rest first with
          | .error failure => .error failure
          | .ok (literals, next) => .ok (.array literals, next)

/-- Reads a literal in which arrays are nested at most `room` deep. -/
def read : (room : Nat) → Reader Literal
  | 0 => firstOf [readBool, readString, readFloat, readInt]
  | room + 1 => firstOf [readBool, readString, readFloat, readInt, readArray (read room)]

/-- Reads a literal that itself stands inside `depth` arrays.  A negative depth
leaves room for more arrays than the greatest nesting. -/
def readAt (depth : Int) : Reader Literal :=
  read (maxNesting - depth).toNat

/-- Why a text is not one literal. -/
inductive ParseError where
  | unread (failure : Failure)
  | trailingInput (offset : Nat)
deriving DecidableEq

/-- Reads a text that is one literal, with spacing around it. -/
def parse (text : Text) : Except ParseError Literal :=
  match readAt 0 (Cursor.start text).skipSpacing with
  | .error failure => .error (.unread failure)
  | .ok (literal, next) =>
      let rest := next.skipSpacing
      if rest.atEnd then .ok literal else .error (.trailingInput rest.offset)

/-- The three ways in which reading fails. -/
inductive FailureKind where
  | noMatch
  | numericOverflow
  | trailingInput
deriving DecidableEq

/-- A well-formed numeral out of range anywhere makes the failure an overflow. -/
def Failure.kind (failure : Failure) : FailureKind :=
  if failure.outOfRange.isEmpty then .noMatch else .numericOverflow

namespace ParseError

def kind : ParseError → FailureKind
  | .unread failure => failure.kind
  | .trailingInput _ => .trailingInput

def offset : ParseError → Int
  | .unread failure => failure.offset
  | .trailingInput offset => offset

end ParseError

end Directive.Literal
