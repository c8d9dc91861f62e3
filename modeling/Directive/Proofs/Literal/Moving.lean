import Directive.Literal.Scan
import Directive.Proofs.Cursor.Free
import Directive.Proofs.Literal.Soundness

/-!
# Moving one cursor

To move one cursor through the alternatives, and to put it back after each that
fails, comes to what reading each from a cursor of its own comes to.
-/

namespace Directive

namespace Literal

namespace Mover

variable {α β : Type} {place stop : FreeCursor}

/-! ## Performing -/

theorem perform_bind (mover : Mover α) (next : α → Mover β) (place : FreeCursor) :
    (mover >>= next).perform place =
      match mover.perform place with
      | (.ok value, after) => (next value).perform after
      | (.error failure, after) => (.error failure, after) := by
  cases performed : mover.perform place with
  | mk outcome after =>
      have ran : mover.run.run place = (outcome, after) := performed
      rw [perform, ExceptT.run_bind, StateT.run_bind, ran]
      cases outcome <;> rfl

theorem perform_tryCatch (mover : Mover α) (handle : Failure → Mover α) (place : FreeCursor) :
    (tryCatch mover handle).perform place =
      match mover.perform place with
      | (.ok value, after) => (.ok value, after)
      | (.error failure, after) => (handle failure).perform after := by
  cases performed : mover.perform place with
  | mk outcome after =>
      have ran : mover.run.run place = (outcome, after) := performed
      rw [perform, ExceptT.run_tryCatch, StateT.run_bind, ran]
      cases outcome <;> rfl

theorem perform_noMatch (place : FreeCursor) :
    (noMatch : Mover α).perform place = (.error ⟨place.offset, []⟩, place) :=
  rfl

theorem perform_get_bind (next : FreeCursor → Mover α) (place : FreeCursor) :
    (get >>= next).perform place = (next place).perform place :=
  rfl

theorem perform_set_bind (after : FreeCursor) (next : PUnit → Mover α) (place : FreeCursor) :
    (set after >>= next).perform place = (next ⟨⟩).perform after :=
  rfl

theorem perform_skipSpacing_bind (next : PUnit → Mover α) (place : FreeCursor) :
    (skipSpacing >>= next).perform place = (next ⟨⟩).perform place.skipSpacing :=
  rfl

theorem perform_digits_bind (next : Text → Mover α) (place : FreeCursor) :
    (digits >>= next).perform place = (next place.digits.1).perform place.digits.2 :=
  rfl

theorem perform_eat_bind (text : Text) (next : Bool → Mover α) (place : FreeCursor) :
    (eat text >>= next).perform place =
      match place.eat? text with
      | none => (next false).perform place
      | some after => (next true).perform after := by
  rw [perform_bind, eat, perform_get_bind]
  cases place.eat? text <;> rfl

/-! ## Ordered choice -/

theorem perform_firstOf_cons (mover : Mover α) (movers : List (Mover α)) (place : FreeCursor) :
    (firstOf (mover :: movers)).perform place =
      match mover.perform place with
      | (.ok value, after) => (.ok value, after)
      | (.error failure, _) =>
          match (firstOf movers).perform place with
          | (.ok value, after) => (.ok value, after)
          | (.error others, after) => (.error (failure.merge others), after) := by
  rw [firstOf, perform_get_bind, perform_tryCatch]
  cases mover.perform place with
  | mk outcome after =>
      cases outcome with
      | ok value => rfl
      | error failure =>
          exact perform_tryCatch (firstOf movers) (fun others => throw (failure.merge others)) place

/-- A choice that fails leaves the cursor where it was. -/
theorem stop_eq_of_firstOf {movers : List (Mover α)} {failure : Failure}
    (failed : (firstOf movers).perform place = (.error failure, stop)) : stop = place := by
  induction movers generalizing failure with
  | nil =>
      cases failed
      rfl
  | cons mover movers ih =>
      obtain ⟨⟨first, after⟩, firstEq⟩ : ∃ performed, mover.perform place = performed := ⟨_, rfl⟩
      obtain ⟨⟨others, afterOthers⟩, othersEq⟩ :
          ∃ performed, (firstOf movers).perform place = performed := ⟨_, rfl⟩
      rw [perform_firstOf_cons, firstEq, othersEq] at failed
      cases first with
      | ok value => cases failed
      | error failure =>
          cases others with
          | ok value => cases failed
          | error failure =>
              cases failed
              exact ih othersEq

theorem stop_eq_of_read {room : Nat} {failure : Failure}
    (failed : (read room).perform place = (.error failure, stop)) : stop = place := by
  cases room with
  | zero => exact stop_eq_of_firstOf failed
  | succ room => exact stop_eq_of_firstOf failed

end Mover

/-! ## Movers and readers -/

section

open Mover

variable {α : Type} {source : Text} {cursor : Cursor}

/-- What a mover comes to, and where its cursor stands then, when a reader comes
to an outcome. -/
inductive Mirrors {α : Type} (source : Text) :
    Except Failure (α × Cursor) → Except Failure α × FreeCursor → Prop where
  | read {value : α} {next : Cursor} : next.StandsIn source →
      Mirrors source (.ok (value, next)) (.ok value, next.free source)
  | failed {failure : Failure} {stop : FreeCursor} :
      Mirrors source (.error failure) (.error failure, stop)

/-- Inside a source, the mover comes to what the reader comes to. -/
def Carries {α : Type} (mover : Mover α) (reader : Reader α) : Prop :=
  ∀ (source : Text) (cursor : Cursor), cursor.StandsIn source →
    Mirrors source (reader cursor) (mover.perform (cursor.free source))

theorem Carries.perform_eq_error {mover : Mover α} {reader : Reader α} {failure : Failure}
    (carries : Carries mover reader) (stands : cursor.StandsIn source)
    (failed : reader cursor = .error failure) :
    ∃ stop, mover.perform (cursor.free source) = (.error failure, stop) := by
  have mirrors := carries source cursor stands
  rw [failed] at mirrors
  generalize mover.perform (cursor.free source) = performed at mirrors
  cases mirrors with
  | failed => exact ⟨_, rfl⟩

theorem Carries.perform_eq_ok {mover : Mover α} {reader : Reader α} {value : α} {next : Cursor}
    (carries : Carries mover reader) (stands : cursor.StandsIn source)
    (found : reader cursor = .ok (value, next)) :
    next.StandsIn source ∧ mover.perform (cursor.free source) = (.ok value, next.free source) := by
  have mirrors := carries source cursor stands
  rw [found] at mirrors
  generalize mover.perform (cursor.free source) = performed at mirrors
  cases mirrors with
  | read nextStands => exact ⟨nextStands, rfl⟩

/-- A reader that passes on what an earlier one fails with is mirrored, if it is
where the earlier one has read a value. -/
theorem Carries.mirrors_bind {α β : Type} {mover : Mover α} {reader : Reader α}
    {moveOn : α → Mover β} {outcome : Except Failure (β × Cursor)} (carries : Carries mover reader)
    (stands : cursor.StandsIn source)
    (passedOn : ∀ failure, reader cursor = .error failure → outcome = .error failure)
    (further : ∀ value next, reader cursor = .ok (value, next) → next.StandsIn source →
      Mirrors source outcome ((moveOn value).perform (next.free source))) :
    Mirrors source outcome ((mover >>= moveOn).perform (cursor.free source)) := by
  rw [perform_bind]
  cases first : reader cursor with
  | error failure =>
      obtain ⟨stop, performed⟩ := carries.perform_eq_error stands first
      rw [passedOn failure first, performed]
      exact .failed
  | ok pair =>
      obtain ⟨value, next⟩ := pair
      obtain ⟨nextStands, performed⟩ := carries.perform_eq_ok stands first
      rw [performed]
      exact further value next first nextStands

/-! ## The alternatives -/

theorem carries_readBool : Carries Mover.readBool readBool := by
  intro source cursor stands
  rw [Mover.readBool, perform_eat_bind, stands.eat?_free, readBool]
  cases yes : cursor.eat? (Text.ofString "true") with
  | some next => exact .read (stands.eat? yes)
  | none =>
      simp only [Option.map_none, Bool.false_eq_true, if_false, perform_eat_bind,
        stands.eat?_free]
      cases no : cursor.eat? (Text.ofString "false") with
      | some next => exact .read (stands.eat? no)
      | none => exact .failed

theorem carries_readString : Carries Mover.readString readString := by
  intro source cursor stands
  rw [Mover.readString, perform_get_bind, stands.peek?_free, readString]
  cases cursor.peek?.bind Quote.ofUnit? with
  | none => exact .failed
  | some quote =>
      have opened := stands.advance 1
      have close := opened.takeWhile (· != quote.unit)
      simp only [Cursor.advance_free, opened.takeWhile_free, close.atEnd_free]
      split
      · exact .failed
      · exact .read (close.advance 1)

theorem perform_wholeNumber (stands : cursor.StandsIn source) :
    wholeNumber.perform (cursor.free source) =
      match (match cursor.peek? with
        | none => .error cursor
        | some unit =>
            if unit == 0x30 then .ok (cursor.advance 1)
            else if CodeUnit.isDigit unit then .ok cursor.digits.2
            else .error cursor : Except Cursor Cursor) with
      | .ok next => (.ok true, next.free source)
      | .error stopped => (.ok false, stopped.free source) := by
  rw [wholeNumber, perform_get_bind, stands.peek?_free]
  cases cursor.peek? with
  | none => rfl
  | some unit =>
      dsimp only
      by_cases zero : unit == 0x30
      · rw [if_pos zero, if_pos zero, perform_set_bind, Cursor.advance_free]
        rfl
      · rw [if_neg zero, if_neg zero]
        by_cases digit : CodeUnit.isDigit unit
        · rw [if_pos digit, if_pos digit, perform_set_bind, stands.digits_free]
          rfl
        · rw [if_neg digit, if_neg digit]
          rfl

/-- The mover stops where the reader stops, also where a digit is missing. -/
theorem perform_integerPart (stands : cursor.StandsIn source) :
    Mover.integerPart.perform (cursor.free source) =
      match Literal.integerPart cursor with
      | .ok next => (.ok true, next.free source)
      | .error stopped => (.ok false, stopped.free source) := by
  rw [Mover.integerPart, perform_eat_bind, stands.eat?_free, Literal.integerPart]
  cases signed : cursor.eat? [0x2D] with
  | none => exact perform_wholeNumber stands
  | some unsigned => exact perform_wholeNumber (stands.eat? signed)

theorem carries_readInt : Carries Mover.readInt Literal.readInt := by
  intro source cursor stands
  rw [Mover.readInt, perform_get_bind, perform_bind, perform_integerPart stands, Literal.readInt]
  cases wholeEq : Literal.integerPart cursor with
  | error stopped => exact .failed
  | ok stop =>
      obtain ⟨lexeme, follows, -⟩ := integerPart_follows wholeEq
      dsimp only
      rw [if_pos rfl, perform_get_bind, stands.sliceFrom_free]
      by_cases safe : (Numeral.value (lexemeBetween cursor stop)).isSafeInteger
      · rw [if_pos safe, if_pos safe]
        exact .read (stands.of_follows follows)
      · rw [if_neg safe, if_neg safe]
        exact .failed

theorem carries_readFloat : Carries Mover.readFloat Literal.readFloat := by
  intro source cursor stands
  rw [Mover.readFloat, perform_get_bind, perform_bind, perform_integerPart stands,
    Literal.readFloat]
  cases wholeEq : Literal.integerPart cursor with
  | error stopped => exact .failed
  | ok whole =>
      obtain ⟨lexeme, follows, -⟩ := integerPart_follows wholeEq
      have wholeStands := stands.of_follows follows
      dsimp only
      rw [if_pos rfl, perform_eat_bind, wholeStands.eat?_free]
      cases pointEq : whole.eat? [0x2E] with
      | none => exact .failed
      | some point =>
          have pointStands := wholeStands.eat? pointEq
          have stopStands := pointStands.digits
          dsimp only [Option.map_some]
          rw [if_pos rfl, perform_digits_bind, pointStands.digits_free]
          generalize point.digits = taken at stopStands
          obtain ⟨places, stop⟩ := taken
          by_cases empty : places.isEmpty
          · rw [if_pos empty, if_pos empty]
            exact .failed
          · rw [if_neg empty, if_neg empty, perform_get_bind, stands.sliceFrom_free]
            by_cases finite : (Numeral.value (lexemeBetween cursor stop)).isFinite
            · rw [if_pos finite, if_pos finite]
              exact .read stopStands
            · rw [if_neg finite, if_neg finite]
              exact .failed

/-! ## Arrays -/

variable {item : Mover Literal} {itemReader : Reader Literal}

theorem carries_readItems (carries : Carries item itemReader) (bound : Text) :
    Carries (Mover.readItems item bound) (Literal.readItems itemReader bound) := by
  induction bound with
  | nil =>
      intro source cursor stands
      exact .failed
  | cons unit bound ih =>
      intro source cursor stands
      rw [Mover.readItems, Literal.readItems]
      apply carries.mirrors_bind stands
      · intro failure itemFailed
        rw [itemFailed]
      intro literal afterItem itemEq afterStands
      have separatorStands := afterStands.skipSpacing
      rw [itemEq, perform_skipSpacing_bind, afterStands.skipSpacing_free, perform_eat_bind,
        separatorStands.eat?_free]
      dsimp only
      cases closed : afterItem.skipSpacing.eat? [0x5D] with
      | some next => exact .read (separatorStands.eat? closed)
      | none =>
          dsimp only [Option.map_none]
          rw [if_neg Bool.false_ne_true, perform_eat_bind, separatorStands.eat?_free]
          cases comma : afterItem.skipSpacing.eat? [0x2C] with
          | none => exact .failed
          | some afterComma =>
              have commaStands := separatorStands.eat? comma
              have followingStands := commaStands.skipSpacing
              dsimp only [Option.map_some]
              rw [if_pos rfl, perform_skipSpacing_bind, commaStands.skipSpacing_free,
                perform_eat_bind, followingStands.eat?_free]
              cases trailing : afterComma.skipSpacing.eat? [0x5D] with
              | some next => exact .read (followingStands.eat? trailing)
              | none =>
                  dsimp only [Option.map_none]
                  rw [if_neg Bool.false_ne_true]
                  apply ih.mirrors_bind followingStands
                  · intro failure othersFailed
                    rw [othersFailed]
                  · intro literals next othersEq nextStands
                    rw [othersEq]
                    exact .read nextStands

theorem carries_readArray (carries : Carries item itemReader) :
    Carries (Mover.readArray item) (Literal.readArray itemReader) := by
  intro source cursor stands
  rw [Mover.readArray, perform_get_bind, stands.peek?_free, Literal.readArray,
    Cursor.eat?_singleton]
  by_cases opens : cursor.peek? = some 0x5B
  · have openedStands := stands.advance 1
    have firstStands := openedStands.skipSpacing
    rw [if_pos opens, if_pos opens, perform_set_bind, Cursor.advance_free,
      perform_skipSpacing_bind, openedStands.skipSpacing_free, perform_eat_bind,
      firstStands.eat?_free]
    dsimp only
    cases closed : (cursor.advance 1).skipSpacing.eat? [0x5D] with
    | some next => exact .read (firstStands.eat? closed)
    | none =>
        dsimp only [Option.map_none]
        rw [if_neg Bool.false_ne_true, perform_get_bind, firstStands.cursor_free]
        apply (carries_readItems carries _).mirrors_bind firstStands
        · intro failure itemsFailed
          rw [itemsFailed]
        · intro literals next itemsEq nextStands
          rw [itemsEq]
          exact .read nextStands
  · rw [if_neg opens, if_neg opens]
    exact .failed

/-! ## Ordered choice -/

theorem carries_firstOf_cons {mover : Mover α} {movers : List (Mover α)} {reader : Reader α}
    {readers : List (Reader α)} (here : Carries mover reader)
    (later : Carries (Mover.firstOf movers) (Literal.firstOf readers)) :
    Carries (Mover.firstOf (mover :: movers)) (Literal.firstOf (reader :: readers)) := by
  intro source cursor stands
  rw [perform_firstOf_cons, Literal.firstOf]
  cases first : reader cursor with
  | ok pair =>
      obtain ⟨value, next⟩ := pair
      obtain ⟨nextStands, performed⟩ := here.perform_eq_ok stands first
      rw [performed]
      exact .read nextStands
  | error failure =>
      obtain ⟨stop, performed⟩ := here.perform_eq_error stands first
      rw [performed]
      dsimp only
      cases others : Literal.firstOf readers cursor with
      | ok pair =>
          obtain ⟨value, next⟩ := pair
          obtain ⟨nextStands, performed⟩ := later.perform_eq_ok stands others
          rw [performed]
          exact .read nextStands
      | error failure =>
          obtain ⟨stop, performed⟩ := later.perform_eq_error stands others
          rw [performed]
          exact .failed

theorem carries_firstOf_nil : Carries (Mover.firstOf ([] : List (Mover α))) (Literal.firstOf []) := by
  intro source cursor _
  exact .failed

/-- Where no room is left for arrays, their alternative fails as the end of the
choice does. -/
theorem carries_firstOf_noMatch :
    Carries (Mover.firstOf [(noMatch : Mover α)]) (Literal.firstOf []) := by
  intro source cursor _
  have performed : (Mover.firstOf [(noMatch : Mover α)]).perform (cursor.free source) =
      (.error (Failure.noMatch cursor), cursor.free source) := by
    rw [perform_firstOf_cons]
    simp [perform_noMatch, Mover.firstOf, Failure.merge, Failure.noMatch, Cursor.free]
  rw [performed]
  exact .failed

theorem carries_read (room : Nat) : Carries (Mover.read room) (Literal.read room) := by
  induction room with
  | zero =>
      apply carries_firstOf_cons carries_readBool
      apply carries_firstOf_cons carries_readString
      apply carries_firstOf_cons carries_readFloat
      apply carries_firstOf_cons carries_readInt
      exact carries_firstOf_noMatch
  | succ room ih =>
      apply carries_firstOf_cons carries_readBool
      apply carries_firstOf_cons carries_readString
      apply carries_firstOf_cons carries_readFloat
      apply carries_firstOf_cons carries_readInt
      apply carries_firstOf_cons (carries_readArray ih)
      exact carries_firstOf_nil

/-- The mover ends where the reader ends, and where it started if the reader fails. -/
theorem perform_read (stands : cursor.StandsIn source) (room : Nat) :
    (Mover.read room).perform (cursor.free source) =
      match Literal.read room cursor with
      | .ok (literal, next) => (.ok literal, next.free source)
      | .error failure => (.error failure, cursor.free source) := by
  cases outcome : Literal.read room cursor with
  | ok pair => exact ((carries_read room).perform_eq_ok stands outcome).2
  | error failure =>
      obtain ⟨stop, performed⟩ := (carries_read room).perform_eq_error stands outcome
      rw [performed, stop_eq_of_read performed]

end

end Literal

end Directive
