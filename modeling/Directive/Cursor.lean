import Directive.Identifier

/-!
# Cursor over a text

A cursor is an offset together with the text that remains there.  Reading
returns a new cursor and leaves the old one as it was, so a reader that fails
part of the way has nothing to undo.
-/

namespace Directive

structure Cursor where
  offset : Nat
  rest : Text
deriving DecidableEq

namespace Cursor

/-- The cursor at an offset of a text; behind the end nothing remains. -/
def ofOffset (source : Text) (offset : Nat) : Cursor :=
  ⟨offset, source.drop offset⟩

def start (source : Text) : Cursor :=
  ⟨0, source⟩

def atEnd (cursor : Cursor) : Bool :=
  cursor.rest.isEmpty

/-- The unit at the cursor, if one remains. -/
def peek? (cursor : Cursor) : Option CodeUnit :=
  cursor.rest.head?

def advance (count : Nat) (cursor : Cursor) : Cursor :=
  ⟨cursor.offset + count, cursor.rest.drop count⟩

def startsWith (text : Text) (cursor : Cursor) : Bool :=
  Text.startsWith cursor.rest text

/-- Passes over `text`, if the input goes on with it. -/
def eat? (text : Text) (cursor : Cursor) : Option Cursor :=
  if cursor.startsWith text then some (cursor.advance text.length) else none

/-- Reads the longest run of units of one class. -/
def takeWhile (belongs : CodeUnit → Bool) (cursor : Cursor) : Text × Cursor :=
  let run := cursor.rest.takeWhile belongs
  (run, ⟨cursor.offset + run.length, cursor.rest.dropWhile belongs⟩)

def skipSpacing (cursor : Cursor) : Cursor :=
  (cursor.takeWhile CodeUnit.isSpacing).2

/-- Reads a run of digits, which may be empty. -/
def digits (cursor : Cursor) : Text × Cursor :=
  cursor.takeWhile CodeUnit.isDigit

/-- Reads an identifier, the longest that stands at the cursor. -/
def identifier? (cursor : Cursor) : Option (Text × Cursor) :=
  match cursor.peek? with
  | none => none
  | some unit =>
      if CodeUnit.startsIdentifier unit then
        some (cursor.takeWhile CodeUnit.continuesIdentifier)
      else none

/-- `next` is the cursor behind `passed`, read from `cursor`. -/
def Follows (next cursor : Cursor) (passed : Text) : Prop :=
  cursor.rest = passed ++ next.rest ∧ next.offset = cursor.offset + passed.length

theorem Follows.trans {first second third : Cursor} {before after : Text}
    (left : second.Follows first before) (right : third.Follows second after) :
    third.Follows first (before ++ after) := by
  obtain ⟨leftRest, leftOffset⟩ := left
  obtain ⟨rightRest, rightOffset⟩ := right
  constructor
  · rw [leftRest, rightRest, List.append_assoc]
  · rw [rightOffset, leftOffset, List.length_append, Nat.add_assoc]

theorem takeWhile_follows (belongs : CodeUnit → Bool) (cursor : Cursor) :
    (cursor.takeWhile belongs).2.Follows cursor (cursor.takeWhile belongs).1 :=
  ⟨List.takeWhile_append_dropWhile.symm, rfl⟩

theorem eat?_eq_some_iff {text : Text} {cursor next : Cursor} :
    cursor.eat? text = some next ↔ next.Follows cursor text := by
  unfold eat? startsWith Text.startsWith advance Follows
  constructor
  · intro eaten
    split at eaten
    · next leads =>
        cases eaten
        obtain ⟨rest, same⟩ := List.isPrefixOf_iff_prefix.mp leads
        simp [← same]
    · cases eaten
  · rintro ⟨restEq, offsetEq⟩
    have leads : text.isPrefixOf cursor.rest = true :=
      List.isPrefixOf_iff_prefix.mpr ⟨_, restEq.symm⟩
    rw [if_pos leads]
    cases next
    simp_all

end Cursor

end Directive
