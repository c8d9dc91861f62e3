import Directive.Proofs.Literal.LongestNumeral
import Directive.Proofs.Literal.RoundTrip

/-!
# What a failure says

A failure to read a literal tells an offset.  Up to there the text is the
beginning of a literal, so the offset is where it stops being one; or a numeral
that is out of range stands before it, at the end of such a beginning.  This is
kept when the failures of the alternatives are merged, and when a failure within
an array is passed on, because the text before an item can be completed by any
item.
-/

namespace Directive

namespace Literal

/-- A text with which a literal may begin. -/
def Begins (room : Nat) (text : Text) : Prop :=
  ∃ more literal, Derives room (text ++ more) literal

/-- A text with which the items of an array may begin. -/
def BeginsItems (room : Nat) (text : Text) : Prop :=
  ∃ more items, DerivesItems room (text ++ more) items

theorem derives_int {room : Nat} {lexeme : Text} (isInt : IntLexeme lexeme)
    (safe : (Numeral.integer lexeme).natAbs ≤ Binary64.maxSafeInteger) :
    ∃ literal, Derives room lexeme literal :=
  ⟨_, .int isInt ((Numeral.isSafeInteger_value_iff isInt).mpr safe)⟩

theorem begins_nil (room : Nat) : Begins room [] :=
  ⟨[0x30], derives_int (.plain .zero) (by decide)⟩

theorem begins_sign (room : Nat) : Begins room [0x2D] :=
  ⟨[0x30], derives_int (.signed .zero) (by decide)⟩

variable {room : Nat} {text before after : Text} {literal : Literal}

theorem Begins.items (begins : Begins room text) : BeginsItems room text := by
  obtain ⟨more, literal, derives⟩ := begins
  have items := DerivesItems.last derives Spacing.nil
  rw [List.append_nil] at items
  exact ⟨more, [literal], items⟩

theorem beginsItems_item (derives : Derives room text literal) (blank : Spacing before) :
    BeginsItems room (text ++ before) := by
  have items := DerivesItems.last derives blank
  rw [← List.append_nil (text ++ before)] at items
  exact ⟨[], [literal], items⟩

theorem BeginsItems.behind_comma {others : Text} (begins : BeginsItems room others)
    (derives : Derives room text literal) (beforeBlank : Spacing before)
    (afterBlank : Spacing after) :
    BeginsItems room (text ++ before ++ 0x2C :: after ++ others) := by
  obtain ⟨more, items, derivesItems⟩ := begins
  have all := DerivesItems.cons derives beforeBlank afterBlank derivesItems
  rw [← List.append_assoc] at all
  exact ⟨more, literal :: items, all⟩

theorem BeginsItems.behind_bracket (begins : BeginsItems room text) (blank : Spacing before) :
    Begins (room + 1) (0x5B :: before ++ text) := by
  obtain ⟨more, items, derives⟩ := begins
  have array := Derives.array blank derives
  refine ⟨more ++ [0x5D], .array items, ?_⟩
  simpa using array

/-! ## Justified failures -/

/-- The text between two cursors is a beginning of some kind. -/
def Reached (beginning : Text → Prop) (cursor next : Cursor) : Prop :=
  ∃ passed, next.Follows cursor passed ∧ beginning passed

/-- What a failure says holds of the text at the cursor. -/
structure Failure.Justified (beginning : Text → Prop) (cursor : Cursor) (failure : Failure) :
    Prop where
  within : failure.offset ≤ (cursor.offset + cursor.rest.length : Nat)
  noMatch : failure.outOfRange = [] →
    ∃ next : Cursor, Reached beginning cursor next ∧ failure.offset = next.offset
  overflow : failure.outOfRange ≠ [] →
    ∃ next : Cursor, Reached beginning cursor next ∧ next.offset ≤ failure.offset ∧
      ∃ lexeme, LongestNumeral next.rest lexeme ∧ Numeral.Exceeds lexeme

/-- Whenever the reader fails, what its failure says holds. -/
def Diagnoses {α : Type} (beginning : Text → Prop) (reader : Reader α) : Prop :=
  ∀ {cursor : Cursor} {failure : Failure}, reader cursor = .error failure →
    failure.Justified beginning cursor

variable {beginning outer : Text → Prop} {cursor middle next : Cursor}
  {failure first second : Failure}

theorem Reached.refl (starts : beginning []) : Reached beginning cursor cursor :=
  ⟨[], Cursor.Follows.refl cursor, starts⟩

theorem Reached.behind {passed : Text} (reached : Reached beginning middle next)
    (follows : middle.Follows cursor passed)
    (leads : ∀ text, beginning text → outer (passed ++ text)) :
    Reached outer cursor next := by
  obtain ⟨text, nextFollows, begins⟩ := reached
  exact ⟨passed ++ text, follows.trans nextFollows, leads text begins⟩

namespace Failure

theorem kind_eq_noMatch_iff : failure.kind = .noMatch ↔ failure.outOfRange = [] := by
  unfold kind
  cases failure.outOfRange <;> simp

theorem kind_eq_numericOverflow_iff :
    failure.kind = .numericOverflow ↔ failure.outOfRange ≠ [] := by
  unfold kind
  cases failure.outOfRange <;> simp

theorem kind_ne_trailingInput : failure.kind ≠ .trailingInput := by
  unfold kind
  cases failure.outOfRange <;> simp

theorem merge_assoc (first second third : Failure) :
    (first.merge second).merge third = first.merge (second.merge third) := by
  simp [merge, Int.max_assoc]

namespace Justified

theorem of_reached (reached : Reached beginning cursor next) :
    (Failure.noMatch next).Justified beginning cursor := by
  obtain ⟨passed, follows, begins⟩ := reached
  constructor
  · exact Int.ofNat_le.mpr follows.offset_le
  · intro _
    exact ⟨next, ⟨passed, follows, begins⟩, rfl⟩
  · intro some
    exact absurd rfl some

theorem offset_le (justified : failure.Justified beginning cursor) :
    cursor.offset ≤ failure.offset := by
  by_cases none : failure.outOfRange = []
  · obtain ⟨next, ⟨passed, follows, -⟩, offsetEq⟩ := justified.noMatch none
    rw [offsetEq, follows.2]
    exact Int.ofNat_le.mpr (Nat.le_add_right _ _)
  · obtain ⟨next, ⟨passed, follows, -⟩, atMost, -⟩ := justified.overflow none
    rw [follows.2] at atMost
    exact Int.le_trans (Int.ofNat_le.mpr (Nat.le_add_right _ _)) atMost

theorem offset_nonneg (justified : failure.Justified beginning cursor) : 0 ≤ failure.offset :=
  Int.le_trans (Int.natCast_nonneg cursor.offset) justified.offset_le

theorem merge (left : first.Justified beginning cursor)
    (right : second.Justified beginning cursor) :
    (first.merge second).Justified beginning cursor := by
  constructor
  · exact Int.max_le.mpr ⟨left.within, right.within⟩
  · intro none
    obtain ⟨leftNone, rightNone⟩ := List.append_eq_nil_iff.mp none
    rcases Int.le_total first.offset second.offset with further | further
    · obtain ⟨next, reached, offsetEq⟩ := right.noMatch rightNone
      exact ⟨next, reached, (Int.max_eq_right further).trans offsetEq⟩
    · obtain ⟨next, reached, offsetEq⟩ := left.noMatch leftNone
      exact ⟨next, reached, (Int.max_eq_left further).trans offsetEq⟩
  · intro some
    by_cases leftNone : first.outOfRange = []
    · have rightSome : second.outOfRange ≠ [] := by
        intro rightNone
        exact some (List.append_eq_nil_iff.mpr ⟨leftNone, rightNone⟩)
      obtain ⟨next, reached, atMost, numeral⟩ := right.overflow rightSome
      exact ⟨next, reached, Int.le_trans atMost (Int.le_max_right _ _), numeral⟩
    · obtain ⟨next, reached, atMost, numeral⟩ := left.overflow leftNone
      exact ⟨next, reached, Int.le_trans atMost (Int.le_max_left _ _), numeral⟩

/-- A failure behind a text is one of the whole, if that text in front of a
beginning makes a beginning. -/
theorem behind {passed : Text} (justified : failure.Justified beginning middle)
    (follows : middle.Follows cursor passed)
    (leads : ∀ text, beginning text → outer (passed ++ text)) :
    failure.Justified outer cursor := by
  constructor
  · have within := justified.within
    rw [follows.2] at within
    rw [follows.1, List.length_append, ← Nat.add_assoc]
    exact within
  · intro none
    obtain ⟨next, reached, offsetEq⟩ := justified.noMatch none
    exact ⟨next, reached.behind follows leads, offsetEq⟩
  · intro some
    obtain ⟨next, reached, atMost, numeral⟩ := justified.overflow some
    exact ⟨next, reached.behind follows leads, atMost, numeral⟩

end Justified

end Failure

/-! ## Ordered choice -/

theorem firstOf_eq_error {α : Type} {reader : Reader α} {readers : List (Reader α)}
    (failed : firstOf (reader :: readers) cursor = .error failure) :
    ∃ first others, reader cursor = .error first ∧ firstOf readers cursor = .error others ∧
      failure = first.merge others := by
  cases firstEq : reader cursor with
  | ok result => simp [firstOf, firstEq] at failed
  | error first =>
      cases othersEq : firstOf readers cursor with
      | ok result => simp [firstOf, firstEq, othersEq, Except.mapError] at failed
      | error others =>
          refine ⟨first, others, rfl, rfl, ?_⟩
          simpa [firstOf, firstEq, othersEq, Except.mapError] using failed.symm

theorem diagnoses_firstOf_nil {α : Type} (starts : beginning []) :
    Diagnoses beginning (firstOf ([] : List (Reader α))) := by
  intro cursor failure failed
  obtain rfl : Failure.noMatch cursor = failure := Except.error.inj failed
  exact .of_reached (.refl starts)

theorem diagnoses_firstOf_cons {α : Type} {reader : Reader α} {readers : List (Reader α)}
    (here : Diagnoses beginning reader) (later : Diagnoses beginning (firstOf readers)) :
    Diagnoses beginning (firstOf (reader :: readers)) := by
  intro cursor failure failed
  obtain ⟨first, others, firstEq, othersEq, rfl⟩ := firstOf_eq_error failed
  exact (here firstEq).merge (later othersEq)

/-! ## The alternatives -/

theorem diagnoses_readBool : Diagnoses (Begins room) readBool := by
  intro cursor failure failed
  have failureEq : Failure.noMatch cursor = failure := by
    unfold readBool at failed
    split at failed
    · cases failed
    · split at failed
      · cases failed
      · exact Except.error.inj failed
  subst failureEq
  exact .of_reached (.refl (begins_nil room))

theorem diagnoses_readString : Diagnoses (Begins room) readString := by
  intro cursor failure failed
  rcases readString_cases cursor with unread | ⟨quote, value, close, inside, absent, ends⟩
  · obtain rfl := Except.error.inj (unread.symm.trans failed)
    exact .of_reached (.refl (begins_nil room))
  · rcases ends with unread | ⟨next, -, found⟩
    · obtain rfl := Except.error.inj (unread.symm.trans failed)
      have closable : Begins room (quote.unit :: value) := ⟨[quote.unit], _, .string absent⟩
      exact .of_reached ⟨_, inside, closable⟩
    · simp [found] at failed

/-- The two readers of numbers together.  Alone, a reader of floats may have
passed an integer that no decimal places make finite. -/
theorem diagnoses_numbers {first second : Failure} (floatFailed : readFloat cursor = .error first)
    (intFailed : readInt cursor = .error second) :
    (first.merge second).Justified (Begins room) cursor := by
  rcases readInt_eq_error intFailed with
    ⟨stopped, stoppedEq, rfl⟩ | ⟨whole, lexeme, wholeEq, follows, isInt, tooGreat, rfl⟩
  · have reached : Reached (Begins room) cursor stopped := by
      rcases integerPart_eq_error stoppedEq with nothing | sign
      · exact ⟨[], nothing, begins_nil room⟩
      · exact ⟨[0x2D], sign, begins_sign room⟩
    simp only [readFloat, stoppedEq, Except.error.injEq] at floatFailed
    subst floatFailed
    exact (Failure.Justified.of_reached reached).merge (.of_reached reached)
  · have numeral : ∃ lexeme, LongestNumeral cursor.rest lexeme ∧ Numeral.Exceeds lexeme ∧
        first.offset ≤ (cursor.offset + cursor.rest.length : Nat) := by
      rcases readFloat_eq_error wholeEq follows isInt floatFailed with
        ⟨longest, passed, next, nextFollows, rfl⟩ | ⟨float, longest, infinite, rfl⟩
      · exact ⟨lexeme, longest, tooGreat, Int.ofNat_le.mpr nextFollows.offset_le⟩
      · exact ⟨float, longest, infinite, Int.ofNat_le.mpr (Nat.le_add_right _ _)⟩
    obtain ⟨lexeme, longest, exceeds, within⟩ := numeral
    constructor
    · exact Int.max_le.mpr ⟨within, Int.ofNat_le.mpr (Nat.le_add_right _ _)⟩
    · intro none
      exact absurd (List.append_eq_nil_iff.mp none).2 (by simp)
    · intro _
      exact ⟨cursor, .refl (begins_nil room), Int.le_max_right _ _, lexeme, longest, exceeds⟩

theorem diagnoses_firstOf_numbers {readers : List (Reader Literal)}
    (later : Diagnoses (Begins room) (firstOf readers)) :
    Diagnoses (Begins room) (firstOf (readFloat :: readInt :: readers)) := by
  intro cursor failure failed
  obtain ⟨float, others, floatFailed, othersFailed, rfl⟩ := firstOf_eq_error failed
  obtain ⟨int, rest, intFailed, restFailed, rfl⟩ := firstOf_eq_error othersFailed
  rw [← Failure.merge_assoc]
  exact (diagnoses_numbers floatFailed intFailed).merge (later restFailed)

/-! ## Arrays -/

theorem diagnoses_readItems {item : Reader Literal} (truthful : Truthful room item)
    (diagnoses : Diagnoses (Begins room) item) (bound : Text) :
    Diagnoses (BeginsItems room) (readItems item bound) := by
  induction bound with
  | nil =>
      intro cursor failure failed
      obtain rfl : Failure.noMatch cursor = failure := Except.error.inj failed
      exact .of_reached (.refl (begins_nil room).items)
  | cons unit bound ih =>
      intro cursor failure failed
      have outcome := readItems_outcome truthful unit bound cursor
      rw [failed] at outcome
      cases outcome with
      | failed itemFailed =>
          exact (diagnoses itemFailed).behind (.refl cursor) fun _ begins => begins.items
      | unseparated derives blank reached =>
          exact .of_reached ⟨_, reached, beginsItems_item derives blank⟩
      | later derives beforeBlank afterBlank further othersFailed =>
          refine (ih othersFailed).behind further ?_
          intro others begins
          exact begins.behind_comma derives beforeBlank afterBlank

theorem diagnoses_readArray {item : Reader Literal} (truthful : Truthful room item)
    (diagnoses : Diagnoses (Begins room) item) :
    Diagnoses (Begins (room + 1)) (readArray item) := by
  intro cursor failure failed
  rcases readArray_cases item cursor with unread | ⟨before, first, blank, reached, ends⟩
  · obtain rfl := Except.error.inj (unread.symm.trans failed)
    exact .of_reached (.refl (begins_nil _))
  · rcases ends with ⟨next, -, found⟩ | found
    · simp [found] at failed
    · rw [found] at failed
      cases itemsEq : readItems item first.rest first with
      | ok pair => simp [itemsEq, Except.map] at failed
      | error inner =>
          simp only [itemsEq, Except.map, Except.error.injEq] at failed
          subst failed
          exact (diagnoses_readItems truthful diagnoses _ itemsEq).behind reached
            fun _ begins => begins.behind_bracket blank

theorem diagnoses_read (room : Nat) : Diagnoses (Begins room) (read room) := by
  induction room with
  | zero =>
      apply diagnoses_firstOf_cons diagnoses_readBool
      apply diagnoses_firstOf_cons diagnoses_readString
      apply diagnoses_firstOf_numbers
      exact diagnoses_firstOf_nil (begins_nil 0)
  | succ room ih =>
      apply diagnoses_firstOf_cons diagnoses_readBool
      apply diagnoses_firstOf_cons diagnoses_readString
      apply diagnoses_firstOf_numbers
      apply diagnoses_firstOf_cons (diagnoses_readArray (truthful_read room) ih)
      exact diagnoses_firstOf_nil (begins_nil (room + 1))

/-! ## Whole texts -/

/-- A text that goes on to one literal, behind some continuation. -/
def Completable (text : Text) : Prop :=
  ∃ more literal, parse (text ++ more) = .ok literal

theorem Begins.completable (begins : Begins maxNesting text) (blank : Spacing before) :
    Completable (before ++ text) := by
  obtain ⟨more, literal, derives⟩ := begins
  refine ⟨more, literal, parse_eq_ok_iff.mpr ?_⟩
  exact ⟨before, text ++ more, [], by simp, blank, derives, Spacing.nil⟩

/-- Either the beginning of the text is not read, or it is and something stands
behind it. -/
theorem parse_eq_error {error : ParseError} (failed : parse text = .error error) :
    (∃ failure : Failure, error = .unread failure ∧
        failure.Justified Completable (Cursor.start text)) ∨
      ∃ next : Cursor, error = .trailingInput next.offset ∧
        Reached (fun passed => ∃ literal, parse passed = .ok literal) (Cursor.start text) next ∧
        ∃ unit, next.peek? = some unit ∧ CodeUnit.isSpacing unit = false := by
  rcases parse_cases text with
    ⟨before, first, failure, blank, follows, unread, parsed⟩ |
      ⟨before, body, after, literal, next, beforeBlank, derives, afterBlank, passed, stops, parsed⟩
  · obtain rfl := Except.error.inj (parsed.symm.trans failed)
    have justified := diagnoses_read maxNesting unread
    exact .inl ⟨failure, rfl, justified.behind follows fun _ begins => begins.completable blank⟩
  · rw [parsed] at failed
    split at failed
    · cases failed
    · next more =>
        cases failed
        obtain ⟨unit, stands⟩ : ∃ unit, next.peek? = some unit := by
          cases peeked : next.peek? with
          | none => exact absurd (Cursor.atEnd_eq_true peeked) more
          | some unit => exact ⟨unit, rfl⟩
        have whole : parse (before ++ body ++ after) = .ok literal :=
          parse_eq_ok_iff.mpr ⟨before, body, after, rfl, beforeBlank, derives, afterBlank⟩
        exact .inr ⟨next, rfl, ⟨_, passed, literal, whole⟩, unit, stands, stops unit stands⟩

/-- Where a cursor stands that has passed some beginning of the text. -/
theorem Reached.slice (reached : Reached beginning (Cursor.start text) next) :
    next.offset ≤ text.length ∧ text.drop next.offset = next.rest ∧
      beginning (Text.slice text 0 next.offset) := by
  obtain ⟨passed, ⟨textEq, offsetEq⟩, begins⟩ := reached
  obtain rfl : text = passed ++ next.rest := textEq
  have place : next.offset = passed.length := by simpa [Cursor.start] using offsetEq
  have sliceEq : Text.slice (passed ++ next.rest) 0 next.offset = passed := by
    have slice := Text.slice_ofNat (passed ++ next.rest) 0 next.offset
    simpa [place] using slice
  refine ⟨by simp [place], by simp [place], ?_⟩
  rw [sliceEq]
  exact begins

/-- A text is one literal exactly if the grammar derives it, with spacing around
it.  Otherwise the report is true: input is trailing behind a text that is one
literal, there is no match behind a text that some continuation makes one, and
an overflow is that of the longest numeral behind such a text. -/
theorem parse_classifies (text : Text) :
    (∀ literal, parse text = .ok literal ↔
      ∃ before lexeme after, text = before ++ lexeme ++ after ∧ Spacing before ∧
        Derives maxNesting lexeme literal ∧ Spacing after) ∧
      ∀ error, parse text = .error error →
        0 ≤ error.offset ∧ error.offset ≤ text.length ∧
          (error.kind = .trailingInput →
            (∃ literal, parse (Text.slice text 0 error.offset) = .ok literal) ∧
              ∃ unit, text[error.offset.toNat]? = some unit ∧
                CodeUnit.isSpacing unit = false) ∧
          (error.kind = .noMatch → Completable (Text.slice text 0 error.offset)) ∧
          (error.kind = .numericOverflow →
            ∃ place : Nat, place ≤ error.offset ∧ Completable (Text.slice text 0 place) ∧
              ∃ lexeme, LongestNumeral (text.drop place) lexeme ∧ Numeral.Exceeds lexeme) := by
  refine ⟨fun literal => parse_eq_ok_iff, ?_⟩
  intro error failed
  rcases parse_eq_error failed with
    ⟨failure, rfl, justified⟩ | ⟨next, rfl, reached, unit, stands, other⟩
  · refine ⟨justified.offset_nonneg, ?_, ?_, ?_, ?_⟩
    · have within := justified.within
      rwa [Cursor.start, Nat.zero_add] at within
    · intro trailing
      exact absurd trailing Failure.kind_ne_trailingInput
    · intro noMatch
      obtain ⟨next, reached, offsetEq⟩ :=
        justified.noMatch (Failure.kind_eq_noMatch_iff.mp noMatch)
      obtain ⟨-, -, completable⟩ := reached.slice
      rwa [← offsetEq] at completable
    · intro overflow
      obtain ⟨next, reached, atMost, numeral⟩ :=
        justified.overflow (Failure.kind_eq_numericOverflow_iff.mp overflow)
      obtain ⟨-, dropEq, completable⟩ := reached.slice
      rw [← dropEq] at numeral
      exact ⟨next.offset, atMost, completable, numeral⟩
  · obtain ⟨within, dropEq, whole⟩ := reached.slice
    refine ⟨Int.natCast_nonneg _, Int.ofNat_le.mpr within, ?_, ?_, ?_⟩
    · intro _
      refine ⟨whole, unit, ?_, other⟩
      rw [Cursor.peek?, ← dropEq, List.head?_drop] at stands
      exact stands
    · intro noMatch
      cases noMatch
    · intro overflow
      cases overflow

/-- The furthest alternative has passed the minus sign, and a digit may follow. -/
example : parse (Text.ofString "[true, -]") = .error (.unread ⟨8, []⟩) := by
  rfl

end Literal

end Directive
