import Directive.Cursor

/-!
# Cursors outside a text

A free cursor may stand at any offset, before the start of a text or behind its
end.  Outside the text there are no units to read.  A fixed text is compared
with what remains from the nearer end on, so before the start it is compared
with what the text begins with.  Inside the text, and behind its end, a free
cursor reads as a cursor does.
-/

namespace Directive

structure FreeCursor where
  source : Text
  offset : Int
deriving DecidableEq

namespace FreeCursor

/-- The cursor where fixed texts are compared. -/
def cursor (place : FreeCursor) : Cursor :=
  .ofOffset place.source place.offset.toNat

def atEnd (place : FreeCursor) : Bool :=
  (place.source.length : Int) ≤ place.offset

/-- The unit at the cursor, if there is one. -/
def peek? (place : FreeCursor) : Option CodeUnit :=
  if place.offset < 0 then none else place.cursor.peek?

def startsWith (text : Text) (place : FreeCursor) : Bool :=
  place.cursor.startsWith text

def advance (count : Nat) (place : FreeCursor) : FreeCursor :=
  { place with offset := place.offset + count }

/-- Passes over `text`, if the input goes on with it. -/
def eat? (text : Text) (place : FreeCursor) : Option FreeCursor :=
  if place.startsWith text then some (place.advance text.length) else none

/-- Reads the longest run of units of one class; before the start it is empty. -/
def takeWhile (belongs : CodeUnit → Bool) (place : FreeCursor) : Text × FreeCursor :=
  let run := if place.offset < 0 then [] else (place.cursor.takeWhile belongs).1
  (run, place.advance run.length)

def skipSpacing (place : FreeCursor) : FreeCursor :=
  (place.takeWhile CodeUnit.isSpacing).2

/-- Reads a run of digits, which may be empty. -/
def digits (place : FreeCursor) : Text × FreeCursor :=
  place.takeWhile CodeUnit.isDigit

/-- Reads an identifier, the longest that stands at the cursor. -/
def identifier? (place : FreeCursor) : Option (Text × FreeCursor) :=
  match place.peek? with
  | none => none
  | some unit =>
      if CodeUnit.startsIdentifier unit then
        some (place.takeWhile CodeUnit.continuesIdentifier)
      else none

/-- The units from an offset up to the cursor. -/
def sliceFrom (start : Int) (place : FreeCursor) : Text :=
  place.source.slice start place.offset

/-- From the start of a text on, a free cursor eats what a cursor eats. -/
theorem eat?_ofNat (source text : Text) (offset : Nat) :
    (FreeCursor.mk source offset).eat? text =
      ((Cursor.ofOffset source offset).eat? text).map fun next => ⟨source, next.offset⟩ := by
  unfold eat? startsWith cursor Cursor.eat?
  simp only [Int.toNat_natCast]
  split <;> simp [advance, Cursor.advance, Cursor.ofOffset]

/-- From the start of a text on, a free cursor reads the runs that a cursor reads. -/
theorem takeWhile_ofNat (source : Text) (offset : Nat) (belongs : CodeUnit → Bool) :
    (FreeCursor.mk source offset).takeWhile belongs =
      (((Cursor.ofOffset source offset).takeWhile belongs).1,
        ⟨source, ((Cursor.ofOffset source offset).takeWhile belongs).2.offset⟩) := by
  have inside : ¬ ((offset : Int) < 0) := by omega
  simp [takeWhile, cursor, advance, Cursor.takeWhile, Cursor.ofOffset, inside]

end FreeCursor

end Directive
