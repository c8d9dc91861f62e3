import Directive.Literal.Read
import Directive.Cursor.Free
import Directive.Proofs.Cursor
import Directive.Proofs.Text.Pieces

/-!
# Free cursors inside a text

A cursor that stands in a source and the free cursor at the same place read the
same, and they stand at the same place again behind what they have read.
-/

namespace Directive

namespace Cursor

/-- What remains at the cursor is what the source has behind its offset. -/
def StandsIn (source : Text) (cursor : Cursor) : Prop :=
  cursor.rest = source.drop cursor.offset

/-- The free cursor at the same place. -/
def free (source : Text) (cursor : Cursor) : FreeCursor :=
  ⟨source, cursor.offset⟩

variable {source passed : Text} {cursor next : Cursor}

theorem eat?_singleton (unit : CodeUnit) (cursor : Cursor) :
    cursor.eat? [unit] = if cursor.peek? = some unit then some (cursor.advance 1) else none := by
  obtain ⟨offset, rest⟩ := cursor
  cases rest with
  | nil => rfl
  | cons first rest => simp [eat?, startsWith, Text.startsWith_singleton, peek?]

theorem advance_free (count : Nat) :
    (cursor.free source).advance count = (cursor.advance count).free source := by
  simp [free, FreeCursor.advance, advance]

namespace StandsIn

theorem of_follows (stands : cursor.StandsIn source) (follows : next.Follows cursor passed) :
    next.StandsIn source := by
  obtain ⟨restEq, offsetEq⟩ := follows
  rw [StandsIn, offsetEq, ← List.drop_drop, ← stands, restEq, List.drop_left]

theorem advance (stands : cursor.StandsIn source) (count : Nat) :
    (cursor.advance count).StandsIn source := by
  change cursor.rest.drop count = source.drop (cursor.offset + count)
  rw [stands, List.drop_drop]

theorem takeWhile (stands : cursor.StandsIn source) (belongs : CodeUnit → Bool) :
    (cursor.takeWhile belongs).2.StandsIn source :=
  stands.of_follows (takeWhile_follows belongs cursor)

theorem skipSpacing (stands : cursor.StandsIn source) : cursor.skipSpacing.StandsIn source :=
  stands.takeWhile CodeUnit.isSpacing

theorem digits (stands : cursor.StandsIn source) : cursor.digits.2.StandsIn source :=
  stands.takeWhile CodeUnit.isDigit

theorem eat? {text : Text} (stands : cursor.StandsIn source) (eaten : cursor.eat? text = some next) :
    next.StandsIn source :=
  stands.of_follows (eat?_eq_some_iff.mp eaten)

theorem cursor_free (stands : cursor.StandsIn source) : (cursor.free source).cursor = cursor := by
  obtain ⟨offset, rest⟩ := cursor
  obtain rfl : rest = source.drop offset := stands
  rfl

theorem peek?_free (stands : cursor.StandsIn source) :
    (cursor.free source).peek? = cursor.peek? := by
  have inside : ¬ (cursor.free source).offset < 0 := Int.not_lt.mpr (Int.natCast_nonneg _)
  rw [FreeCursor.peek?, if_neg inside, stands.cursor_free]

theorem atEnd_free (stands : cursor.StandsIn source) :
    (cursor.free source).atEnd = cursor.atEnd := by
  rw [FreeCursor.atEnd, Cursor.atEnd, stands, Bool.eq_iff_iff, decide_eq_true_iff,
    List.isEmpty_iff, List.drop_eq_nil_iff]
  exact Int.ofNat_le

theorem eat?_free (stands : cursor.StandsIn source) (text : Text) :
    (cursor.free source).eat? text = (cursor.eat? text).map (Cursor.free source) := by
  obtain ⟨offset, rest⟩ := cursor
  obtain rfl : rest = source.drop offset := stands
  exact FreeCursor.eat?_ofNat source text offset

theorem takeWhile_free (stands : cursor.StandsIn source) (belongs : CodeUnit → Bool) :
    (cursor.free source).takeWhile belongs =
      ((cursor.takeWhile belongs).1, (cursor.takeWhile belongs).2.free source) := by
  obtain ⟨offset, rest⟩ := cursor
  obtain rfl : rest = source.drop offset := stands
  exact FreeCursor.takeWhile_ofNat source offset belongs

theorem skipSpacing_free (stands : cursor.StandsIn source) :
    (cursor.free source).skipSpacing = cursor.skipSpacing.free source := by
  rw [FreeCursor.skipSpacing, stands.takeWhile_free]
  rfl

theorem digits_free (stands : cursor.StandsIn source) :
    (cursor.free source).digits = (cursor.digits.1, cursor.digits.2.free source) :=
  stands.takeWhile_free CodeUnit.isDigit

theorem sliceFrom_free (stands : cursor.StandsIn source) (stop : Cursor) :
    (stop.free source).sliceFrom (cursor.free source).offset =
      Literal.lexemeBetween cursor stop := by
  rw [Literal.lexemeBetween, stands, ← List.drop_take]
  exact Text.slice_ofNat source cursor.offset stop.offset

end StandsIn

end Cursor

end Directive
