import Directive.Proofs.Literal.Soundness

/-!
# What the reader of literals finds

Every text that derives a literal is read as that literal.  The alternatives
exclude each other by their first unit, except for the two kinds of number,
which the unit behind the lexeme tells apart.  Since a run of digits is read as
far as it goes, the text must not go on with a number.
-/

namespace Directive

namespace CodeUnit

/-- The units that may stand behind a literal in a call. -/
def endsLiteral (unit : CodeUnit) : Bool :=
  isSpacing unit || unit == 0x2C || unit == 0x5D || unit == 0x29

def startsNumber (unit : CodeUnit) : Bool :=
  unit == 0x2D || isDigit unit

def startsLiteral (unit : CodeUnit) : Bool :=
  unit == 0x74 || unit == 0x66 || unit == 0x5B || (Quote.ofUnit? unit).isSome ||
    startsNumber unit

theorem isDigit_of_endsLiteral {unit : CodeUnit} (ends : endsLiteral unit) :
    isDigit unit = false := by
  grind [endsLiteral, isSpacing, isDigit]

theorem ne_point_of_endsLiteral {unit : CodeUnit} (ends : endsLiteral unit) :
    unit ≠ 0x2E := by
  grind [endsLiteral, isSpacing]

theorem endsLiteral_of_isSpacing {unit : CodeUnit} (spacing : isSpacing unit) :
    endsLiteral unit := by
  simp [endsLiteral, spacing]

theorem isSpacing_of_startsLiteral {unit : CodeUnit} (starts : startsLiteral unit) :
    isSpacing unit = false := by
  grind [startsLiteral, startsNumber, isSpacing, isDigit, Quote.ofUnit?]

theorem ne_of_startsLiteral {unit : CodeUnit} (starts : startsLiteral unit) :
    unit ≠ 0x5D ∧ unit ≠ 0x29 := by
  grind [startsLiteral, startsNumber, isDigit, Quote.ofUnit?]

theorem ofUnit?_of_startsNumber {unit : CodeUnit} (starts : startsNumber unit) :
    Quote.ofUnit? unit = none := by
  grind [startsNumber, isDigit, Quote.ofUnit?]

theorem ne_of_startsNumber {unit : CodeUnit} (starts : startsNumber unit) :
    unit ≠ 0x74 ∧ unit ≠ 0x66 := by
  grind [startsNumber, isDigit]

theorem ne_bracket_of_startsNumber {unit : CodeUnit} (starts : startsNumber unit) :
    unit ≠ 0x5B := by
  grind [startsNumber, isDigit]

end CodeUnit

theorem Cursor.Follows.faces_endsLiteral {cursor next : Cursor} {spacing tail : Text}
    {unit : CodeUnit} (follows : next.Follows cursor (spacing ++ unit :: tail))
    (blank : Spacing spacing) (ends : CodeUnit.endsLiteral unit) :
    cursor.Faces fun unit => CodeUnit.endsLiteral unit := by
  refine follows.faces_spacing blank ?_ ends
  intro unit spacing
  exact CodeUnit.endsLiteral_of_isSpacing spacing

theorem Quote.unit_ne (quote : Quote) : quote.unit ≠ 0x74 ∧ quote.unit ≠ 0x66 := by
  cases quote <;> decide

theorem IntLexeme.head {lexeme : Text} (isInt : IntLexeme lexeme) :
    ∃ first others, lexeme = first :: others ∧ CodeUnit.startsNumber first := by
  cases isInt with
  | plain whole =>
      cases whole with
      | zero => exact ⟨_, _, rfl, by decide⟩
      | digits first _ _ => exact ⟨_, _, rfl, by simp [CodeUnit.startsNumber, first]⟩
  | signed whole => exact ⟨_, _, rfl, by decide⟩

theorem FloatLexeme.head {lexeme : Text} (isFloat : FloatLexeme lexeme) :
    ∃ first others, lexeme = first :: others ∧ CodeUnit.startsNumber first := by
  cases isFloat with
  | mk isInt _ _ =>
      obtain ⟨first, others, rfl, starts⟩ := isInt.head
      exact ⟨first, _, rfl, starts⟩

namespace Literal

theorem Derives.head {room : Nat} {text : Text} {literal : Literal}
    (derives : Derives room text literal) :
    ∃ first others, text = first :: others ∧ CodeUnit.startsLiteral first := by
  cases derives with
  | yes => exact ⟨0x74, _, rfl, by decide⟩
  | no => exact ⟨0x66, _, rfl, by decide⟩
  | @string _ value quote _ => exact ⟨quote.unit, _, rfl, by cases quote <;> decide⟩
  | int isInt _ =>
      obtain ⟨first, others, rfl, starts⟩ := isInt.head
      exact ⟨first, others, rfl, by simp [CodeUnit.startsLiteral, starts]⟩
  | float isFloat _ =>
      obtain ⟨first, others, rfl, starts⟩ := isFloat.head
      exact ⟨first, others, rfl, by simp [CodeUnit.startsLiteral, starts]⟩
  | empty _ => exact ⟨0x5B, _, rfl, by decide⟩
  | array _ _ => exact ⟨0x5B, _, rfl, by decide⟩

theorem DerivesItems.head {room : Nat} {body : Text} {items : List Literal}
    (derives : DerivesItems room body items) :
    ∃ first others, body = first :: others ∧ CodeUnit.startsLiteral first := by
  cases derives with
  | last item _ =>
      obtain ⟨first, others, rfl, starts⟩ := item.head
      exact ⟨first, _, rfl, starts⟩
  | lastComma item _ _ =>
      obtain ⟨first, others, rfl, starts⟩ := item.head
      exact ⟨first, _, rfl, starts⟩
  | cons item _ _ _ =>
      obtain ⟨first, others, rfl, starts⟩ := item.head
      exact ⟨first, _, rfl, starts⟩

theorem DerivesItems.length_pos {room : Nat} {body : Text} {items : List Literal}
    (derives : DerivesItems room body items) : 0 < items.length := by
  cases derives <;> simp

theorem DerivesItems.length_le {room : Nat} {body : Text} {items : List Literal}
    (derives : DerivesItems room body items) : items.length ≤ body.length := by
  induction items generalizing body with
  | nil => exact Nat.zero_le _
  | cons literal items ih =>
      cases derives with
      | last item _ =>
          obtain ⟨first, others, rfl, -⟩ := item.head
          simp
      | lastComma item _ _ =>
          obtain ⟨first, others, rfl, -⟩ := item.head
          simp
      | cons item _ _ rest =>
          have restLength := ih rest
          simp
          omega

/-! ## Where an alternative finds nothing -/

def Fails {α : Type} (reader : Reader α) (cursor : Cursor) : Prop :=
  ∃ failure, reader cursor = .error failure

theorem firstOf_eq_ok_of_first {α : Type} {reader : Reader α} {readers : List (Reader α)}
    {cursor : Cursor} {result : α × Cursor} (first : reader cursor = .ok result) :
    firstOf (reader :: readers) cursor = .ok result := by
  simp [firstOf, first]

theorem firstOf_eq_ok_of_others {α : Type} {reader : Reader α} {readers : List (Reader α)}
    {cursor : Cursor} {result : α × Cursor} (fails : Fails reader cursor)
    (others : firstOf readers cursor = .ok result) :
    firstOf (reader :: readers) cursor = .ok result := by
  obtain ⟨failure, first⟩ := fails
  simpa only [firstOf, first, mapError_eq_ok_iff] using others

theorem readBool_fails {cursor : Cursor}
    (faces : cursor.Faces fun unit => unit ≠ 0x74 ∧ unit ≠ 0x66) : Fails readBool cursor := by
  have noTrue : cursor.eat? (Text.ofString "true") = none :=
    Cursor.eat?_eq_none (faces.mono fun _ => And.left)
  have noFalse : cursor.eat? (Text.ofString "false") = none :=
    Cursor.eat?_eq_none (faces.mono fun _ => And.right)
  exact ⟨.noMatch cursor, by simp [readBool, noTrue, noFalse]⟩

theorem readString_fails {cursor : Cursor}
    (faces : cursor.Faces fun unit => Quote.ofUnit? unit = none) : Fails readString cursor := by
  have unmarked : cursor.peek?.bind Quote.ofUnit? = none := by
    cases peeked : cursor.peek? with
    | none => rfl
    | some unit => exact faces unit peeked
  exact ⟨.noMatch cursor, by simp [readString, unmarked]⟩

theorem integerPart_fails {cursor : Cursor}
    (faces : cursor.Faces fun unit => CodeUnit.startsNumber unit = false) :
    ∃ stopped, integerPart cursor = .error stopped := by
  have unsigned : cursor.eat? [0x2D] = none := by
    refine Cursor.eat?_eq_none (faces.mono fun unit other same => ?_)
    simp [CodeUnit.startsNumber, same] at other
  refine ⟨cursor, ?_⟩
  cases peeked : cursor.peek? with
  | none => simp [integerPart, unsigned, peeked]
  | some unit =>
      have other : CodeUnit.startsNumber unit = false := faces unit peeked
      have noDigit : CodeUnit.isDigit unit = false := by
        simp only [CodeUnit.startsNumber, Bool.or_eq_false_iff] at other
        exact other.2
      have noZero : unit ≠ 0x30 := by
        intro same
        subst same
        exact absurd noDigit (by decide)
      simp [integerPart, unsigned, peeked, noDigit, noZero]

theorem readFloat_fails {cursor : Cursor}
    (faces : cursor.Faces fun unit => CodeUnit.startsNumber unit = false) :
    Fails readFloat cursor := by
  obtain ⟨stopped, noNumber⟩ := integerPart_fails faces
  exact ⟨.noMatch stopped, by simp [readFloat, noNumber]⟩

theorem readInt_fails {cursor : Cursor}
    (faces : cursor.Faces fun unit => CodeUnit.startsNumber unit = false) :
    Fails readInt cursor := by
  obtain ⟨stopped, noNumber⟩ := integerPart_fails faces
  exact ⟨.noMatch stopped, by simp [readInt, noNumber]⟩

/-! ## What each alternative finds -/

theorem readBool_eq_ok_true {cursor next : Cursor}
    (follows : next.Follows cursor (Text.ofString "true")) :
    readBool cursor = .ok (.bool true, next) := by
  simp [readBool, Cursor.eat?_eq_some follows]

theorem readBool_eq_ok_false {cursor next : Cursor}
    (follows : next.Follows cursor (Text.ofString "false")) :
    readBool cursor = .ok (.bool false, next) := by
  have leads : next.Follows cursor [0x66, 0x61, 0x6C, 0x73, 0x65] := follows
  have other : cursor.Faces (· ≠ 0x74) := leads.faces (by decide)
  have noTrue : cursor.eat? (Text.ofString "true") = none := Cursor.eat?_eq_none other
  simp [readBool, noTrue, Cursor.eat?_eq_some follows]

theorem readString_eq_ok {cursor next : Cursor} {value : Text} {quote : Quote}
    (follows : next.Follows cursor (quote.unit :: value ++ [quote.unit]))
    (inside : quote.unit ∉ value) :
    readString cursor = .ok (.string value quote, next) := by
  obtain ⟨opened, openedFollows, valueFollows⟩ := follows.split_cons
  obtain ⟨close, closeFollows, nextFollows⟩ := Cursor.Follows.split valueFollows
  have peeked : cursor.peek? = some quote.unit := follows.peek?
  have advanced : cursor.advance 1 = opened :=
    openedFollows.unique (Cursor.advance_one_follows peeked)
  have belong : ∀ unit ∈ value, (unit != quote.unit) = true := by
    intro unit member
    have different : unit ≠ quote.unit := fun same => inside (same ▸ member)
    simpa using different
  have taken : opened.takeWhile (· != quote.unit) = (value, close) :=
    Cursor.takeWhile_eq closeFollows belong (nextFollows.faces (by simp))
  have closed : close.advance 1 = next :=
    nextFollows.unique (Cursor.advance_one_follows nextFollows.peek?)
  have marked : Quote.ofUnit? quote.unit = some quote := Quote.ofUnit?_eq_some_iff.mpr rfl
  simp [readString, peeked, marked, advanced, taken, closed,
    Cursor.atEnd_eq_false nextFollows.peek?]

/-- The two ways in which the digits of a whole number are passed.  Digits that
stand behind it are passed with it, unless it is zero. -/
theorem passes_of_wholeNumber {cursor next : Cursor} {whole : Text} (isWhole : WholeNumber whole)
    (follows : next.Follows cursor whole) :
    (cursor.peek? = some 0x30 ∧ cursor.advance 1 = next) ∨
      ∃ unit, cursor.peek? = some unit ∧ unit ≠ 0x30 ∧ CodeUnit.isDigit unit ∧
        cursor.digits.2 = next.digits.2 := by
  cases isWhole with
  | zero =>
      exact .inl ⟨follows.peek?, follows.unique (Cursor.advance_one_follows follows.peek?)⟩
  | @digits first rest isDigit notZero restDigits =>
      have belong : ∀ unit ∈ first :: rest, CodeUnit.isDigit unit = true := by
        intro unit member
        rcases List.mem_cons.mp member with rfl | later
        · exact isDigit
        · exact restDigits unit later
      refine .inr ⟨first, follows.peek?, notZero, isDigit, ?_⟩
      rw [Cursor.digits, Cursor.takeWhile_eq_append follows belong]
      rfl

/-- The minus sign of an integer, if it has one, is passed first. -/
theorem unsigned_of_intLexeme {cursor next : Cursor} {lexeme : Text} (isInt : IntLexeme lexeme)
    (follows : next.Follows cursor lexeme) :
    ∃ unsigned whole, (cursor.eat? [0x2D]).getD cursor = unsigned ∧ WholeNumber whole ∧
      next.Follows unsigned whole := by
  cases isInt with
  | plain whole =>
      have noSign : cursor.Faces (· ≠ 0x2D) := by
        cases whole with
        | zero => exact follows.faces (by decide)
        | digits isDigit _ _ =>
            refine follows.faces ?_
            intro same
            subst same
            exact absurd isDigit (by decide)
      exact ⟨cursor, lexeme, by rw [Cursor.eat?_eq_none noSign]; rfl, whole, follows⟩
  | @signed whole isWhole =>
      obtain ⟨unsigned, signFollows, wholeFollows⟩ := follows.split_cons
      exact ⟨unsigned, whole, by rw [Cursor.eat?_eq_some signFollows]; rfl, isWhole,
        wholeFollows⟩

/-- Where an integer stands, the integer part is passed, perhaps with more
digits than the integer has. -/
theorem integerPart_passes {cursor next : Cursor} {lexeme : Text} (isInt : IntLexeme lexeme)
    (follows : next.Follows cursor lexeme) :
    ∃ stop further, integerPart cursor = .ok stop ∧ stop.Follows next further ∧
      ∀ unit ∈ further, CodeUnit.isDigit unit := by
  obtain ⟨unsigned, whole, unsignedEq, isWhole, wholeFollows⟩ :=
    unsigned_of_intLexeme isInt follows
  rcases passes_of_wholeNumber isWhole wholeFollows with
    ⟨peeked, passed⟩ | ⟨unit, peeked, notZero, isDigit, passed⟩
  · refine ⟨next, [], ?_, Cursor.Follows.refl next, by simp⟩
    simp [integerPart, unsignedEq, peeked, passed]
  · refine ⟨next.digits.2, next.digits.1, ?_, Cursor.takeWhile_follows _ next,
      Cursor.takeWhile_belongs _ next⟩
    simp [integerPart, unsignedEq, peeked, notZero, isDigit, passed]

theorem integerPart_eq_ok {cursor next : Cursor} {lexeme : Text} (isInt : IntLexeme lexeme)
    (follows : next.Follows cursor lexeme)
    (stops : next.Faces fun unit => CodeUnit.isDigit unit = false) :
    integerPart cursor = .ok next := by
  obtain ⟨stop, further, passed, furtherFollows, digits⟩ := integerPart_passes isInt follows
  cases further with
  | nil =>
      obtain rfl := (Cursor.Follows.refl next).unique furtherFollows
      exact passed
  | cons unit further =>
      have other := stops unit furtherFollows.peek?
      have isDigit := digits unit List.mem_cons_self
      simp [other] at isDigit

theorem readInt_eq_ok {cursor next : Cursor} {lexeme : Text} (isInt : IntLexeme lexeme)
    (safe : (Numeral.value lexeme).isSafeInteger) (follows : next.Follows cursor lexeme)
    (ends : next.Faces fun unit => CodeUnit.endsLiteral unit) :
    readInt cursor = .ok (.int (Numeral.value lexeme).withoutZeroSign lexeme, next) := by
  have stops := ends.mono fun _ => CodeUnit.isDigit_of_endsLiteral
  simp [readInt, integerPart_eq_ok isInt follows stops, lexemeBetween_eq follows, safe]

/-- An integer is no beginning of a float where a literal ends. -/
theorem readFloat_fails_of_int {cursor next : Cursor} {lexeme : Text} (isInt : IntLexeme lexeme)
    (follows : next.Follows cursor lexeme)
    (ends : next.Faces fun unit => CodeUnit.endsLiteral unit) : Fails readFloat cursor := by
  have stops := ends.mono fun _ => CodeUnit.isDigit_of_endsLiteral
  have noPoint : next.eat? [0x2E] = none :=
    Cursor.eat?_eq_none (ends.mono fun _ => CodeUnit.ne_point_of_endsLiteral)
  exact ⟨.noMatch next, by simp [readFloat, integerPart_eq_ok isInt follows stops, noPoint]⟩

theorem readFloat_eq_ok {cursor next : Cursor} {lexeme : Text} (isFloat : FloatLexeme lexeme)
    (finite : (Numeral.value lexeme).isFinite) (follows : next.Follows cursor lexeme)
    (ends : next.Faces fun unit => CodeUnit.endsLiteral unit) :
    readFloat cursor = .ok (.float (Numeral.value lexeme) lexeme, next) := by
  cases isFloat with
  | @mk whole places isInt nonempty digits =>
      obtain ⟨point, wholeFollows, pointFollows⟩ := follows.split
      obtain ⟨decimals, decimalsFollow, placesFollow⟩ := pointFollows.split_cons
      have wholeRead : integerPart cursor = .ok point :=
        integerPart_eq_ok isInt wholeFollows (pointFollows.faces (by decide))
      have stops := ends.mono fun _ => CodeUnit.isDigit_of_endsLiteral
      have taken : decimals.digits = (places, next) :=
        Cursor.takeWhile_eq placesFollow digits stops
      have some : places.isEmpty = false := by simpa using nonempty
      simp [readFloat, wholeRead, Cursor.eat?_eq_some decimalsFollow, taken, some,
        lexemeBetween_eq follows, finite]

/-! ## What the choice finds -/

theorem read_eq_firstOf (room : Nat) :
    ∃ arrays, read room = firstOf (readBool :: readString :: readFloat :: readInt :: arrays) ∧
      ∀ reader ∈ arrays, ∃ item, reader = readArray item := by
  cases room with
  | zero => exact ⟨[], rfl, by simp⟩
  | succ room =>
      exact ⟨[readArray (read room)], rfl,
        fun reader member => ⟨read room, List.mem_singleton.mp member⟩⟩

/-- At an opening bracket only an array can be read. -/
theorem read_succ_eq_ok {room : Nat} {cursor : Cursor} {result : Literal × Cursor}
    (faces : cursor.Faces (· = 0x5B)) (array : readArray (read room) cursor = .ok result) :
    read (room + 1) cursor = .ok result := by
  have noNumber : cursor.Faces fun unit => CodeUnit.startsNumber unit = false :=
    faces.mono fun unit same => by simp [same]; decide
  refine firstOf_eq_ok_of_others (readBool_fails (faces.mono fun unit same => ?_)) ?_
  · simp [same]
  refine firstOf_eq_ok_of_others (readString_fails (faces.mono fun unit same => ?_)) ?_
  · simp [same]; decide
  refine firstOf_eq_ok_of_others (readFloat_fails noNumber) ?_
  refine firstOf_eq_ok_of_others (readInt_fails noNumber) ?_
  exact firstOf_eq_ok_of_first array

mutual

/-- A text that derives a literal is read as that literal, where nothing behind
it goes on with a number. -/
theorem Derives.read_eq_ok {room : Nat} {text : Text} {literal : Literal}
    (derives : Derives room text literal) {cursor next : Cursor}
    (follows : next.Follows cursor text)
    (ends : next.Faces fun unit => CodeUnit.endsLiteral unit) :
    read room cursor = .ok (literal, next) := by
  obtain ⟨arrays, readEq, -⟩ := read_eq_firstOf room
  cases derives with
  | yes =>
      rw [readEq]
      exact firstOf_eq_ok_of_first (readBool_eq_ok_true follows)
  | no =>
      rw [readEq]
      exact firstOf_eq_ok_of_first (readBool_eq_ok_false follows)
  | @string _ value quote inside =>
      rw [readEq]
      refine firstOf_eq_ok_of_others (readBool_fails (follows.faces quote.unit_ne)) ?_
      exact firstOf_eq_ok_of_first (readString_eq_ok follows inside)
  | int isInt safe =>
      obtain ⟨first, others, rfl, starts⟩ := isInt.head
      rw [readEq]
      refine firstOf_eq_ok_of_others
        (readBool_fails (follows.faces (CodeUnit.ne_of_startsNumber starts))) ?_
      refine firstOf_eq_ok_of_others
        (readString_fails (follows.faces (CodeUnit.ofUnit?_of_startsNumber starts))) ?_
      refine firstOf_eq_ok_of_others (readFloat_fails_of_int isInt follows ends) ?_
      exact firstOf_eq_ok_of_first (readInt_eq_ok isInt safe follows ends)
  | float isFloat finite =>
      obtain ⟨first, others, rfl, starts⟩ := isFloat.head
      rw [readEq]
      refine firstOf_eq_ok_of_others
        (readBool_fails (follows.faces (CodeUnit.ne_of_startsNumber starts))) ?_
      refine firstOf_eq_ok_of_others
        (readString_fails (follows.faces (CodeUnit.ofUnit?_of_startsNumber starts))) ?_
      exact firstOf_eq_ok_of_first (readFloat_eq_ok isFloat finite follows ends)
  | @empty room spacing blank =>
      obtain ⟨opened, openedEq, innerFollows⟩ := Cursor.Follows.eat?_cons follows
      have closed : opened.skipSpacing.eat? [0x5D] = some next :=
        Cursor.eat?_eq_some (Cursor.Follows.skipSpacing innerFollows blank rfl)
      refine read_succ_eq_ok (follows.faces rfl) ?_
      simp [readArray, openedEq, closed]
  | @array room before body items blank bodyDerives =>
      obtain ⟨first, others, bodyEq, starts⟩ := bodyDerives.head
      have pieces : next.Follows cursor (0x5B :: (before ++ first :: (others ++ [0x5D]))) := by
        simpa [bodyEq] using follows
      obtain ⟨opened, openedEq, innerFollows⟩ := pieces.eat?_cons
      have atBody := innerFollows.skipSpacing blank
        (CodeUnit.isSpacing_of_startsLiteral starts)
      have notClosed : opened.skipSpacing.eat? [0x5D] = none :=
        atBody.eat?_eq_none (CodeUnit.ne_of_startsLiteral starts).1
      have bodyFollows : next.Follows opened.skipSpacing (body ++ [0x5D]) := by
        simpa [bodyEq] using atBody
      have enough : items.length ≤ opened.skipSpacing.rest.length := by
        have atMost := bodyDerives.length_le
        rw [bodyFollows.1, List.append_assoc, List.length_append]
        omega
      have itemsRead := bodyDerives.readItems_eq_ok enough bodyFollows
      refine read_succ_eq_ok (follows.faces rfl) ?_
      simp [readArray, openedEq, notClosed, itemsRead]

theorem DerivesItems.readItems_eq_ok {room : Nat} {body : Text} {items : List Literal}
    (derives : DerivesItems room body items) {bound : Text} {cursor next : Cursor}
    (enough : items.length ≤ bound.length) (follows : next.Follows cursor (body ++ [0x5D])) :
    readItems (read room) bound cursor = .ok (items, next) := by
  cases bound with
  | nil => exact absurd (derives.length_pos) (by simpa using enough)
  | cons unit bound =>
      cases derives with
      | @last _ text after literal item blank =>
          have pieces : next.Follows cursor (text ++ (after ++ [0x5D])) := by
            simpa using follows
          obtain ⟨afterItem, textFollows, tailFollows⟩ := pieces.split
          have itemRead : read room cursor = .ok (literal, afterItem) :=
            item.read_eq_ok textFollows (tailFollows.faces_endsLiteral blank rfl)
          have closed : afterItem.skipSpacing.eat? [0x5D] = some next :=
            Cursor.eat?_eq_some (tailFollows.skipSpacing blank rfl)
          simp [readItems, itemRead, closed]
      | @lastComma _ text before after literal item beforeBlank afterBlank =>
          have pieces :
              next.Follows cursor (text ++ (before ++ 0x2C :: (after ++ [0x5D]))) := by
            simpa using follows
          obtain ⟨afterItem, textFollows, tailFollows⟩ := pieces.split
          have itemRead : read room cursor = .ok (literal, afterItem) :=
            item.read_eq_ok textFollows (tailFollows.faces_endsLiteral beforeBlank rfl)
          have atComma := tailFollows.skipSpacing beforeBlank rfl
          have notClosed : afterItem.skipSpacing.eat? [0x5D] = none :=
            atComma.eat?_eq_none (by decide)
          obtain ⟨afterComma, comma, restFollows⟩ := atComma.eat?_cons
          have closed : afterComma.skipSpacing.eat? [0x5D] = some next :=
            Cursor.eat?_eq_some (restFollows.skipSpacing afterBlank rfl)
          simp [readItems, itemRead, notClosed, comma, closed]
      | @cons _ text before after rest literal items item beforeBlank afterBlank others =>
          obtain ⟨first, more, restEq, starts⟩ := others.head
          have pieces : next.Follows cursor
              (text ++ (before ++ 0x2C :: (after ++ first :: (more ++ [0x5D])))) := by
            simpa [restEq] using follows
          obtain ⟨afterItem, textFollows, tailFollows⟩ := pieces.split
          have itemRead : read room cursor = .ok (literal, afterItem) :=
            item.read_eq_ok textFollows (tailFollows.faces_endsLiteral beforeBlank rfl)
          have atComma := tailFollows.skipSpacing beforeBlank rfl
          have notClosed : afterItem.skipSpacing.eat? [0x5D] = none :=
            atComma.eat?_eq_none (by decide)
          obtain ⟨afterComma, comma, restFollows⟩ := atComma.eat?_cons
          have atOthers := restFollows.skipSpacing afterBlank
            (CodeUnit.isSpacing_of_startsLiteral starts)
          have notTrailing : afterComma.skipSpacing.eat? [0x5D] = none :=
            atOthers.eat?_eq_none (CodeUnit.ne_of_startsLiteral starts).1
          have othersFollow : next.Follows afterComma.skipSpacing (rest ++ [0x5D]) := by
            simpa [restEq] using atOthers
          have othersRead : readItems (read room) bound afterComma.skipSpacing =
              .ok (items, next) :=
            others.readItems_eq_ok (by simpa using enough) othersFollow
          simp [readItems, itemRead, notClosed, comma, notTrailing, othersRead]

end

end Literal

end Directive
