import Directive.Cursor.Free
import Directive.Literal.Read

/-!
# Reading literals with one cursor

The alternatives of the grammar share a cursor that each of them moves.  An
alternative that fails part of the way leaves the cursor where it stopped, and
the choice puts it back before the next one is tried.
-/

namespace Directive.Literal

/-- A reader that moves a cursor.  On a failure the cursor stays where it was
moved to. -/
abbrev Mover (α : Type) :=
  ExceptT Failure (StateM FreeCursor) α

namespace Mover

variable {α : Type}

/-- The outcome from a place, and where the cursor stands then. -/
def perform (mover : Mover α) (place : FreeCursor) : Except Failure α × FreeCursor :=
  mover.run.run place

/-- Fails where the cursor stands. -/
def noMatch : Mover α := do
  throw ⟨(← get).offset, []⟩

/-- Passes over `text`, if the input goes on with it, and tells whether it does. -/
def eat (text : Text) : Mover Bool := do
  match (← get).eat? text with
  | none => return false
  | some next =>
      set next
      return true

def skipSpacing : Mover Unit :=
  modify FreeCursor.skipSpacing

/-- Reads a run of digits, which may be empty. -/
def digits : Mover Text := do
  let (run, next) := (← get).digits
  set next
  return run

/-- Tries alternatives in order.  After each that fails the cursor is put back. -/
def firstOf : List (Mover α) → Mover α
  | [] => noMatch
  | mover :: movers => do
      let start ← get
      tryCatch mover fun failure => do
        set start
        tryCatch (firstOf movers) fun others => throw (failure.merge others)

def readBool : Mover Literal := do
  if ← eat (Text.ofString "true") then
    return .bool true
  else if ← eat (Text.ofString "false") then
    return .bool false
  else
    noMatch

/-- A string that is never closed fails at the end of the text. -/
def readString : Mover Literal := do
  let start ← get
  match start.peek?.bind Quote.ofUnit? with
  | none => noMatch
  | some quote =>
      let (value, close) := (start.advance 1).takeWhile (· != quote.unit)
      if close.atEnd then
        throw ⟨close.offset, []⟩
      else
        set (close.advance 1)
        return .string value quote

/-- Passes over an integer without sign and leading zeros, and tells whether
there is one. -/
def wholeNumber : Mover Bool := do
  let start ← get
  match start.peek? with
  | none => return false
  | some unit =>
      if unit == 0x30 then
        set (start.advance 1)
        return true
      else if CodeUnit.isDigit unit then
        set start.digits.2
        return true
      else
        return false

/-- Passes over a minus sign and an integer, and tells whether there is one.  The
sign is optional, and it is passed in any case. -/
def integerPart : Mover Bool := do
  let _ ← eat [0x2D]
  wholeNumber

def readFloat : Mover Literal := do
  let start ← get
  if ← integerPart then
    if ← eat [0x2E] then
      let places ← digits
      if places.isEmpty then
        noMatch
      else
        let lexeme := (← get).sliceFrom start.offset
        let value := Numeral.value lexeme
        if value.isFinite then
          return .float value lexeme
        else
          throw ⟨start.offset, [⟨.float, lexeme⟩]⟩
    else
      noMatch
  else
    noMatch

/-- The integer zero has no sign, also where a minus sign is written. -/
def readInt : Mover Literal := do
  let start ← get
  if ← integerPart then
    let lexeme := (← get).sliceFrom start.offset
    let value := Numeral.value lexeme
    if value.isSafeInteger then
      return .int value.withoutZeroSign lexeme
    else
      throw ⟨start.offset, [⟨.int, lexeme⟩]⟩
  else
    noMatch

/-- Reads the items of an array that has at least one, and its closing bracket.
The text that remains at the first of them bounds their number. -/
def readItems (item : Mover Literal) : (bound : Text) → Mover (List Literal)
  | [] => noMatch
  | _ :: bound => do
      let literal ← item
      skipSpacing
      if ← eat [0x5D] then
        return [literal]
      else if ← eat [0x2C] then
        skipSpacing
        if ← eat [0x5D] then
          return [literal]
        else
          let literals ← readItems item bound
          return literal :: literals
      else
        noMatch

/-- Reads an array whose items are read by `item`. -/
def readArray (item : Mover Literal) : Mover Literal := do
  let start ← get
  if start.peek? = some 0x5B then
    set (start.advance 1)
    skipSpacing
    if ← eat [0x5D] then
      return .array []
    else
      let literals ← readItems item (← get).cursor.rest
      return .array literals
  else
    noMatch

/-- Reads a literal in which arrays are nested at most `room` deep. -/
def read : (room : Nat) → Mover Literal
  | 0 => firstOf [readBool, readString, readFloat, readInt, noMatch]
  | room + 1 => firstOf [readBool, readString, readFloat, readInt, readArray (read room)]

end Mover

/-- Reads a literal at an offset, as one that itself stands inside `depth` arrays,
and tells the offset where the cursor stands then. -/
def scan (source : Text) (offset depth : Int) : Except Failure Literal × Int :=
  let (outcome, place) := (Mover.read (maxNesting - depth).toNat).perform ⟨source, offset⟩
  (outcome, place.offset)

end Directive.Literal
