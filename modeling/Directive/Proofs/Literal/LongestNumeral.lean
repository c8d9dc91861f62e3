import Directive.Proofs.Literal.Completeness
import Directive.Proofs.Numeral

/-!
# Numerals that are not read

Where an integer part is passed, an integer that is out of range is all that
keeps the reader of integers from succeeding.  If the reader of floats fails as
well, the longest numeral there is out of range: the float, if there are decimal
places, and the integer otherwise.
-/

namespace Directive

/-- The longest numeral with which a text begins. -/
structure LongestNumeral (text lexeme : Text) : Prop where
  begins : lexeme <+: text
  numeral : IntLexeme lexeme ∨ FloatLexeme lexeme
  longest : ∀ other, other <+: text → IntLexeme other ∨ FloatLexeme other →
    other.length ≤ lexeme.length

/-- A numeral that denotes no safe integer or no finite number. -/
def Numeral.Exceeds (lexeme : Text) : Prop :=
  (IntLexeme lexeme ∧ Binary64.maxSafeInteger < (integer lexeme).natAbs) ∨
    (FloatLexeme lexeme ∧ (value lexeme).isFinite = false)

namespace Cursor

theorem follows_of_prefix {cursor : Cursor} {text : Text} (begins : text <+: cursor.rest) :
    ∃ next : Cursor, next.Follows cursor text := by
  obtain ⟨rest, restEq⟩ := begins
  exact ⟨⟨cursor.offset + text.length, rest⟩, restEq.symm, rfl⟩

namespace Follows

variable {cursor next : Cursor} {passed : Text}

theorem begins (follows : next.Follows cursor passed) : passed <+: cursor.rest :=
  ⟨next.rest, follows.1.symm⟩

theorem length_eq {other : Text} (follows : next.Follows cursor passed)
    (otherFollows : next.Follows cursor other) : other.length = passed.length :=
  Nat.add_left_cancel (otherFollows.2.symm.trans follows.2)

theorem offset_le (follows : next.Follows cursor passed) :
    next.offset ≤ cursor.offset + cursor.rest.length := by
  rw [follows.2, follows.1, List.length_append]
  omega

end Follows

end Cursor

namespace Literal

variable {cursor whole : Cursor} {lexeme other : Text}

/-! ## The integer part is as long as possible -/

theorem length_le_of_intLexeme (wholeEq : integerPart cursor = .ok whole)
    (follows : whole.Follows cursor lexeme) (isInt : IntLexeme other)
    (begins : other <+: cursor.rest) : other.length ≤ lexeme.length := by
  obtain ⟨next, otherFollows⟩ := Cursor.follows_of_prefix begins
  obtain ⟨stop, further, stopEq, furtherFollows, -⟩ := integerPart_passes isInt otherFollows
  obtain rfl : whole = stop := Except.ok.inj (wholeEq.symm.trans stopEq)
  have lengthEq := follows.length_eq (otherFollows.trans furtherFollows)
  rw [List.length_append] at lengthEq
  omega

/-- The decimal places of a float stand behind the integer part. -/
theorem places_of_floatLexeme (wholeEq : integerPart cursor = .ok whole)
    (follows : whole.Follows cursor lexeme) (isFloat : FloatLexeme other)
    (begins : other <+: cursor.rest) :
    ∃ point places, whole.eat? [0x2E] = some point ∧ places ≠ [] ∧
      places <+: point.digits.1 ∧ other.length = lexeme.length + 1 + places.length := by
  cases isFloat with
  | @mk integer places isInt nonempty digits =>
      obtain ⟨next, otherFollows⟩ := Cursor.follows_of_prefix begins
      obtain ⟨stop, integerFollows, pointFollows⟩ := otherFollows.split
      have stopEq : integerPart cursor = .ok stop :=
        integerPart_eq_ok isInt integerFollows (pointFollows.faces (by decide))
      obtain rfl : whole = stop := Except.ok.inj (wholeEq.symm.trans stopEq)
      obtain ⟨point, eaten, placesFollow⟩ := pointFollows.eat?_cons
      have digitsEq := Cursor.takeWhile_eq_append placesFollow digits
      refine ⟨point, places, eaten, nonempty, ?_, ?_⟩
      · rw [Cursor.digits, digitsEq]
        exact List.prefix_append _ _
      · rw [List.length_append, List.length_cons, follows.length_eq integerFollows]
        omega

theorem longestNumeral_of_noPlaces (wholeEq : integerPart cursor = .ok whole)
    (follows : whole.Follows cursor lexeme) (isInt : IntLexeme lexeme)
    (noPlaces : ∀ point, whole.eat? [0x2E] = some point → point.digits.1 = []) :
    LongestNumeral cursor.rest lexeme := by
  refine ⟨follows.begins, .inl isInt, ?_⟩
  intro other begins numeral
  rcases numeral with isInt | isFloat
  · exact length_le_of_intLexeme wholeEq follows isInt begins
  · obtain ⟨point, places, eaten, nonempty, within, -⟩ :=
      places_of_floatLexeme wholeEq follows isFloat begins
    rw [noPlaces point eaten] at within
    exact absurd (List.prefix_nil.mp within) nonempty

theorem longestNumeral_of_places (wholeEq : integerPart cursor = .ok whole)
    (follows : whole.Follows cursor lexeme) {point stop : Cursor} {places : Text}
    (eaten : whole.eat? [0x2E] = some point) (taken : point.digits = (places, stop))
    (isFloat : FloatLexeme (lexeme ++ 0x2E :: places)) :
    LongestNumeral cursor.rest (lexeme ++ 0x2E :: places) := by
  have placesFollow := Cursor.takeWhile_follows CodeUnit.isDigit point
  have pointFollows := Cursor.eat?_eq_some_iff.mp eaten
  rw [Cursor.digits] at taken
  rw [taken] at placesFollow
  refine ⟨(follows.trans (pointFollows.trans placesFollow)).begins, .inr isFloat, ?_⟩
  intro other begins numeral
  rcases numeral with isInt | isFloat
  · have atMost := length_le_of_intLexeme wholeEq follows isInt begins
    rw [List.length_append]
    omega
  · obtain ⟨behind, decimals, eatenAgain, -, within, lengthEq⟩ :=
      places_of_floatLexeme wholeEq follows isFloat begins
    obtain rfl : point = behind := Option.some.inj (eaten.symm.trans eatenAgain)
    have atMost : decimals.length ≤ places.length := by
      simpa [Cursor.digits, taken] using within.length_le
    rw [lengthEq, List.length_append, List.length_cons]
    omega

/-! ## Why a number is not read -/

theorem integerPart_eq_error {stopped : Cursor} (failed : integerPart cursor = .error stopped) :
    stopped.Follows cursor [] ∨ stopped.Follows cursor [0x2D] := by
  have signFollows := sign_follows cursor
  unfold integerPart at failed
  generalize (cursor.eat? [0x2D]).getD cursor = unsigned at failed signFollows
  have same : unsigned = stopped := by
    cases peeked : unsigned.peek? with
    | none => simpa [peeked] using failed
    | some unit =>
        simp only [peeked] at failed
        split at failed
        · cases failed
        · split at failed
          · cases failed
          · exact Except.error.inj failed
  exact same ▸ signFollows

theorem readInt_eq_error {failure : Failure} (failed : readInt cursor = .error failure) :
    (∃ stopped, integerPart cursor = .error stopped ∧ failure = .noMatch stopped) ∨
      ∃ whole lexeme, integerPart cursor = .ok whole ∧ whole.Follows cursor lexeme ∧
        IntLexeme lexeme ∧ Numeral.Exceeds lexeme ∧
        failure = ⟨cursor.offset, [⟨.int, lexeme⟩]⟩ := by
  rcases readInt_cases cursor with
    ⟨stopped, stoppedEq, unread⟩ | ⟨whole, lexeme, wholeEq, follows, isInt, found⟩
  · exact .inl ⟨stopped, stoppedEq, Except.error.inj (failed.symm.trans unread)⟩
  · rw [found] at failed
    split at failed
    · cases failed
    · next notSafe =>
        cases failed
        rw [Numeral.isSafeInteger_value_iff isInt] at notSafe
        exact .inr ⟨whole, lexeme, wholeEq, follows, isInt,
          .inl ⟨isInt, Nat.lt_of_not_le notSafe⟩, rfl⟩

/-- Where an integer stands and no float is read, either the integer is the
longest numeral or it is a float that is out of range. -/
theorem readFloat_eq_error {failure : Failure} (wholeEq : integerPart cursor = .ok whole)
    (follows : whole.Follows cursor lexeme) (isInt : IntLexeme lexeme)
    (failed : readFloat cursor = .error failure) :
    (LongestNumeral cursor.rest lexeme ∧ ∃ (passed : Text) (stopped : Cursor),
        stopped.Follows cursor passed ∧ failure = .noMatch stopped) ∨
      ∃ float, LongestNumeral cursor.rest float ∧ Numeral.Exceeds float ∧
        failure = ⟨cursor.offset, [⟨.float, float⟩]⟩ := by
  rcases readFloat_cases wholeEq follows isInt with
    ⟨noPlaces, passed, stopped, stoppedFollows, unread⟩ |
      ⟨point, places, stop, eaten, taken, isFloat, -, found⟩
  · have longest := longestNumeral_of_noPlaces wholeEq follows isInt noPlaces
    exact .inl ⟨longest, passed, stopped, stoppedFollows,
      Except.error.inj (failed.symm.trans unread)⟩
  · have longest := longestNumeral_of_places wholeEq follows eaten taken isFloat
    rw [found] at failed
    split at failed
    · cases failed
    · next infinite =>
        cases failed
        exact .inr ⟨_, longest, .inr ⟨isFloat, by simpa using infinite⟩, rfl⟩

end Literal

end Directive
