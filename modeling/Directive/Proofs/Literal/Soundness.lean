import Directive.Proofs.Cursor

/-!
# What the reader of literals accepts

Each alternative of the ordered choice gives only literals that the grammar
derives from the text that was passed, and so does the choice itself, at every
bound on the nesting of arrays.
-/

namespace Directive

theorem Quote.ofUnit?_eq_some_iff {unit : CodeUnit} {quote : Quote} :
    Quote.ofUnit? unit = some quote ↔ unit = quote.unit := by
  cases quote <;> grind [Quote.ofUnit?, Quote.unit]

namespace Literal

theorem mapError_eq_ok_iff {α : Type} {result : Except Failure α}
    {change : Failure → Failure} {value : α} :
    result.mapError change = .ok value ↔ result = .ok value := by
  cases result with
  | ok found => exact Iff.rfl
  | error failure =>
      constructor
      · intro impossible
        cases impossible
      · intro impossible
        cases impossible

/-- Whatever a reader gives is derived from the text that the reader passed. -/
def Truthful (room : Nat) (reader : Reader Literal) : Prop :=
  ∀ {cursor next : Cursor} {literal : Literal}, reader cursor = .ok (literal, next) →
    ∃ text, next.Follows cursor text ∧ Derives room text literal

theorem truthful_firstOf {room : Nat} {readers : List (Reader Literal)}
    (truthful : ∀ reader ∈ readers, Truthful room reader) :
    Truthful room (firstOf readers) := by
  intro cursor next literal result
  induction readers with
  | nil => simp [firstOf] at result
  | cons reader readers ih =>
      cases first : reader cursor with
      | ok pair =>
          simp only [firstOf, first, Except.ok.injEq] at result
          subst result
          exact truthful reader (by simp) first
      | error failure =>
          have later : firstOf readers cursor = .ok (literal, next) := by
            simpa only [firstOf, first, mapError_eq_ok_iff] using result
          exact ih (fun reader member => truthful reader (List.mem_cons_of_mem _ member)) later

theorem truthful_readBool {room : Nat} : Truthful room readBool := by
  intro cursor next literal result
  unfold readBool at result
  cases yes : cursor.eat? (Text.ofString "true") with
  | some after =>
      simp only [yes, Except.ok.injEq, Prod.mk.injEq] at result
      obtain ⟨rfl, rfl⟩ := result
      exact ⟨_, Cursor.eat?_eq_some_iff.mp yes, .yes⟩
  | none =>
      cases no : cursor.eat? (Text.ofString "false") with
      | some after =>
          simp only [yes, no, Except.ok.injEq, Prod.mk.injEq] at result
          obtain ⟨rfl, rfl⟩ := result
          exact ⟨_, Cursor.eat?_eq_some_iff.mp no, .no⟩
      | none => simp [yes, no] at result

/-- Behind an opening mark stands a run without this mark, which is closed or
ends with the text. -/
theorem readString_cases (cursor : Cursor) :
    readString cursor = .error (.noMatch cursor) ∨
      ∃ (quote : Quote) (value : Text) (close : Cursor),
        close.Follows cursor (quote.unit :: value) ∧ quote.unit ∉ value ∧
          (readString cursor = .error (.noMatch close) ∨
            ∃ next : Cursor, next.Follows close [quote.unit] ∧
              readString cursor = .ok (.string value quote, next)) := by
  cases marked : cursor.peek?.bind Quote.ofUnit? with
  | none => exact .inl (by simp [readString, marked])
  | some quote =>
      obtain ⟨unit, peeked, isQuote⟩ := Option.bind_eq_some_iff.mp marked
      obtain rfl := Quote.ofUnit?_eq_some_iff.mp isQuote
      have opened := Cursor.advance_one_follows peeked
      obtain ⟨⟨value, close⟩, taken⟩ :
          ∃ taken, (cursor.advance 1).takeWhile (· != quote.unit) = taken := ⟨_, rfl⟩
      obtain ⟨passed, inside, stops⟩ := Cursor.takeWhile_spec taken
      have absent : quote.unit ∉ value := by
        intro member
        simpa using inside _ member
      refine .inr ⟨quote, value, close, opened.trans passed, absent, ?_⟩
      cases closeEq : close.peek? with
      | none => exact .inl (by simp [readString, marked, taken, Cursor.atEnd_eq_true closeEq])
      | some unit =>
          obtain rfl : unit = quote.unit := by simpa using stops unit closeEq
          refine .inr ⟨close.advance 1, Cursor.advance_one_follows closeEq, ?_⟩
          simp [readString, marked, taken, Cursor.atEnd_eq_false closeEq]

theorem truthful_readString {room : Nat} : Truthful room readString := by
  intro cursor next literal result
  rcases readString_cases cursor with failed | ⟨quote, value, close, inside, absent, ends⟩
  · simp [failed] at result
  · rcases ends with failed | ⟨after, closes, found⟩
    · simp [failed] at result
    · rw [found] at result
      cases result
      exact ⟨_, inside.trans closes, .string absent⟩

/-! ## Numbers -/

theorem lexemeBetween_eq {cursor next : Cursor} {passed : Text}
    (follows : next.Follows cursor passed) : lexemeBetween cursor next = passed := by
  have width : next.offset - cursor.offset = passed.length := by
    rw [follows.2]
    omega
  rw [lexemeBetween, width, follows.1, List.take_left]

/-- What may stand before the digits of a number. -/
theorem sign_follows (cursor : Cursor) :
    ((cursor.eat? [0x2D]).getD cursor).Follows cursor [] ∨
      ((cursor.eat? [0x2D]).getD cursor).Follows cursor [0x2D] := by
  cases signed : cursor.eat? [0x2D] with
  | none => exact .inl (Cursor.Follows.refl cursor)
  | some next => exact .inr (Cursor.eat?_eq_some_iff.mp signed)

theorem integerPart_follows {cursor next : Cursor} (whole : integerPart cursor = .ok next) :
    ∃ lexeme, next.Follows cursor lexeme ∧ IntLexeme lexeme := by
  unfold integerPart at whole
  have signFollows := sign_follows cursor
  generalize (cursor.eat? [0x2D]).getD cursor = unsigned at whole signFollows
  have number : ∃ digits, next.Follows unsigned digits ∧ WholeNumber digits := by
    cases peeked : unsigned.peek? with
    | none => simp [peeked] at whole
    | some unit =>
        by_cases isZero : unit = 0x30
        · subst isZero
          simp only [peeked, beq_self_eq_true, if_true, Except.ok.injEq] at whole
          subst whole
          exact ⟨_, Cursor.advance_one_follows peeked, .zero⟩
        · by_cases isDigit : CodeUnit.isDigit unit = true
          · simp only [peeked, beq_iff_eq, isZero, if_false, isDigit, if_true,
              Except.ok.injEq] at whole
            subst whole
            have passed := Cursor.takeWhile_follows CodeUnit.isDigit unsigned
            have belong := Cursor.takeWhile_belongs CodeUnit.isDigit unsigned
            obtain ⟨others, runEq⟩ := Cursor.takeWhile_eq_cons peeked isDigit
            rw [runEq] at passed belong
            refine ⟨_, passed, .digits isDigit isZero ?_⟩
            intro other member
            exact belong other (List.mem_cons_of_mem unit member)
          · simp [peeked, isZero, isDigit] at whole
  obtain ⟨digits, digitsFollow, isWhole⟩ := number
  rcases signFollows with plain | signed
  · exact ⟨_, plain.trans digitsFollow, .plain isWhole⟩
  · exact ⟨_, signed.trans digitsFollow, .signed isWhole⟩

/-- Either no number stands at the cursor, or an integer part is passed and its
value decides. -/
theorem readInt_cases (cursor : Cursor) :
    (∃ stopped, integerPart cursor = .error stopped ∧
        readInt cursor = .error (.noMatch stopped)) ∨
      ∃ stop lexeme, integerPart cursor = .ok stop ∧ stop.Follows cursor lexeme ∧
        IntLexeme lexeme ∧
        readInt cursor =
          if (Numeral.value lexeme).isSafeInteger then
            .ok (.int (Numeral.value lexeme).withoutZeroSign lexeme, stop)
          else .error ⟨cursor.offset, [⟨.int, lexeme⟩]⟩ := by
  cases wholeEq : integerPart cursor with
  | error stopped => exact .inl ⟨stopped, rfl, by simp [readInt, wholeEq]⟩
  | ok stop =>
      obtain ⟨lexeme, follows, isInt⟩ := integerPart_follows wholeEq
      refine .inr ⟨stop, lexeme, rfl, follows, isInt, ?_⟩
      simp [readInt, wholeEq, lexemeBetween_eq follows]

/-- Where an integer part is passed, either no decimal places stand behind it, or
the value of the whole decides. -/
theorem readFloat_cases {cursor whole : Cursor} {lexeme : Text}
    (wholeEq : integerPart cursor = .ok whole) (follows : whole.Follows cursor lexeme)
    (isInt : IntLexeme lexeme) :
    ((∀ point, whole.eat? [0x2E] = some point → point.digits.1 = []) ∧
        ∃ (passed : Text) (stopped : Cursor), stopped.Follows cursor passed ∧
          readFloat cursor = .error (.noMatch stopped)) ∨
      ∃ point places stop, whole.eat? [0x2E] = some point ∧ point.digits = (places, stop) ∧
        FloatLexeme (lexeme ++ 0x2E :: places) ∧
        stop.Follows cursor (lexeme ++ 0x2E :: places) ∧
        readFloat cursor =
          if (Numeral.value (lexeme ++ 0x2E :: places)).isFinite then
            .ok (.float (Numeral.value (lexeme ++ 0x2E :: places)) (lexeme ++ 0x2E :: places),
              stop)
          else .error ⟨cursor.offset, [⟨.float, lexeme ++ 0x2E :: places⟩]⟩ := by
  cases eaten : whole.eat? [0x2E] with
  | none =>
      refine .inl ⟨by simp, lexeme, whole, follows, ?_⟩
      simp [readFloat, wholeEq, eaten]
  | some point =>
      obtain ⟨⟨places, stop⟩, taken⟩ : ∃ taken, point.digits = taken := ⟨_, rfl⟩
      obtain ⟨placesFollow, belong, -⟩ := Cursor.takeWhile_spec taken
      have passed : stop.Follows cursor (lexeme ++ 0x2E :: places) :=
        follows.trans ((Cursor.eat?_eq_some_iff.mp eaten).trans placesFollow)
      cases places with
      | nil =>
          refine .inl ⟨by simp [taken], _, stop, passed, ?_⟩
          simp [readFloat, wholeEq, eaten, taken]
      | cons first others =>
          have isFloat := FloatLexeme.mk isInt (List.cons_ne_nil first others) belong
          refine .inr ⟨point, first :: others, stop, rfl, taken, isFloat, passed, ?_⟩
          simp [readFloat, wholeEq, eaten, taken, lexemeBetween_eq passed]

theorem truthful_readFloat {room : Nat} : Truthful room readFloat := by
  intro cursor next literal result
  cases wholeEq : integerPart cursor with
  | error stopped => simp [readFloat, wholeEq] at result
  | ok whole =>
      obtain ⟨lexeme, follows, isInt⟩ := integerPart_follows wholeEq
      rcases readFloat_cases wholeEq follows isInt with
        ⟨-, passed, stopped, -, failed⟩ | ⟨point, places, stop, -, -, isFloat, passed, found⟩
      · simp [failed] at result
      · rw [found] at result
        split at result
        · next finite =>
            cases result
            exact ⟨_, passed, .float isFloat finite⟩
        · cases result

theorem truthful_readInt {room : Nat} : Truthful room readInt := by
  intro cursor next literal result
  rcases readInt_cases cursor with
    ⟨stopped, -, failed⟩ | ⟨stop, lexeme, -, follows, isInt, found⟩
  · simp [failed] at result
  · rw [found] at result
    split at result
    · next safe =>
        cases result
        exact ⟨lexeme, follows, .int isInt safe⟩
    · cases result

/-! ## Arrays -/

/-- What reading items comes to, by what stands behind the first of them. -/
inductive ItemsOutcome (room : Nat) (item : Reader Literal) (bound : Text) (cursor : Cursor) :
    Except Failure (List Literal × Cursor) → Prop where
  | failed {failure : Failure} :
      item cursor = .error failure → ItemsOutcome room item bound cursor (.error failure)
  | unseparated {text before : Text} {literal : Literal} {separator : Cursor} :
      Derives room text literal → Spacing before → separator.Follows cursor (text ++ before) →
      ItemsOutcome room item bound cursor (.error (.noMatch separator))
  | last {text before : Text} {literal : Literal} {next : Cursor} :
      Derives room text literal → Spacing before →
      next.Follows cursor (text ++ before ++ [0x5D]) →
      ItemsOutcome room item bound cursor (.ok ([literal], next))
  | lastComma {text before after : Text} {literal : Literal} {next : Cursor} :
      Derives room text literal → Spacing before → Spacing after →
      next.Follows cursor (text ++ before ++ 0x2C :: after ++ [0x5D]) →
      ItemsOutcome room item bound cursor (.ok ([literal], next))
  | later {text before after : Text} {literal : Literal} {following : Cursor}
      {failure : Failure} :
      Derives room text literal → Spacing before → Spacing after →
      following.Follows cursor (text ++ before ++ 0x2C :: after) →
      readItems item bound following = .error failure →
      ItemsOutcome room item bound cursor (.error failure)
  | cons {text before after : Text} {literal : Literal} {following next : Cursor}
      {literals : List Literal} :
      Derives room text literal → Spacing before → Spacing after →
      following.Follows cursor (text ++ before ++ 0x2C :: after) →
      readItems item bound following = .ok (literals, next) →
      ItemsOutcome room item bound cursor (.ok (literal :: literals, next))

theorem readItems_outcome {room : Nat} {item : Reader Literal} (truthful : Truthful room item)
    (unit : CodeUnit) (bound : Text) (cursor : Cursor) :
    ItemsOutcome room item bound cursor (readItems item (unit :: bound) cursor) := by
  rw [readItems]
  cases itemEq : item cursor with
  | error failure => exact .failed itemEq
  | ok pair =>
      obtain ⟨literal, afterItem⟩ := pair
      obtain ⟨text, textFollows, derives⟩ := truthful itemEq
      obtain ⟨before, beforeBlank, beforeFollows⟩ := afterItem.skipSpacing_follows
      have reached := textFollows.trans beforeFollows
      cases closed : afterItem.skipSpacing.eat? [0x5D] with
      | some next =>
          have whole := reached.trans (Cursor.eat?_eq_some_iff.mp closed)
          simpa [closed] using ItemsOutcome.last derives beforeBlank whole
      | none =>
          cases comma : afterItem.skipSpacing.eat? [0x2C] with
          | none => simpa [closed, comma] using .unseparated derives beforeBlank reached
          | some afterComma =>
              obtain ⟨after, afterBlank, afterFollows⟩ := afterComma.skipSpacing_follows
              have further : afterComma.skipSpacing.Follows cursor
                  (text ++ before ++ 0x2C :: after) := by
                simpa using
                  (reached.trans (Cursor.eat?_eq_some_iff.mp comma)).trans afterFollows
              cases trailing : afterComma.skipSpacing.eat? [0x5D] with
              | some next =>
                  have whole := further.trans (Cursor.eat?_eq_some_iff.mp trailing)
                  simpa [closed, comma, trailing] using
                    ItemsOutcome.lastComma derives beforeBlank afterBlank whole
              | none =>
                  cases others : readItems item bound afterComma.skipSpacing with
                  | error failure =>
                      simpa [closed, comma, trailing, others] using
                        .later derives beforeBlank afterBlank further others
                  | ok pair =>
                      simpa [closed, comma, trailing, others] using
                        .cons derives beforeBlank afterBlank further others

theorem readItems_follows {room : Nat} {item : Reader Literal} (truthful : Truthful room item)
    {bound : Text} {cursor next : Cursor} {items : List Literal}
    (result : readItems item bound cursor = .ok (items, next)) :
    ∃ body, next.Follows cursor (body ++ [0x5D]) ∧ DerivesItems room body items := by
  induction bound generalizing cursor next items with
  | nil => simp [readItems] at result
  | cons unit bound ih =>
      have outcome := readItems_outcome truthful unit bound cursor
      rw [result] at outcome
      cases outcome with
      | last derives beforeBlank whole => exact ⟨_, whole, .last derives beforeBlank⟩
      | lastComma derives beforeBlank afterBlank whole =>
          exact ⟨_, whole, .lastComma derives beforeBlank afterBlank⟩
      | cons derives beforeBlank afterBlank further others =>
          obtain ⟨rest, restFollows, restDerives⟩ := ih others
          refine ⟨_, ?_, .cons derives beforeBlank afterBlank restDerives⟩
          rw [List.append_assoc]
          exact further.trans restFollows

/-- Behind an opening bracket stands a closing one, or the items decide. -/
theorem readArray_cases (item : Reader Literal) (cursor : Cursor) :
    readArray item cursor = .error (.noMatch cursor) ∨
      ∃ (before : Text) (first : Cursor), Spacing before ∧
        first.Follows cursor (0x5B :: before) ∧
        ((∃ next : Cursor, next.Follows first [0x5D] ∧
            readArray item cursor = .ok (.array [], next)) ∨
          readArray item cursor =
            (readItems item first.rest first).map fun (items, next) => (.array items, next)) := by
  cases openedEq : cursor.eat? [0x5B] with
  | none => exact .inl (by simp [readArray, openedEq])
  | some opened =>
      obtain ⟨before, blank, beforeFollows⟩ := opened.skipSpacing_follows
      have reached := (Cursor.eat?_eq_some_iff.mp openedEq).trans beforeFollows
      refine .inr ⟨before, opened.skipSpacing, blank, reached, ?_⟩
      cases closed : opened.skipSpacing.eat? [0x5D] with
      | some next =>
          refine .inl ⟨next, Cursor.eat?_eq_some_iff.mp closed, ?_⟩
          simp [readArray, openedEq, closed]
      | none =>
          refine .inr ?_
          simp only [readArray, openedEq, closed]
          cases readItems item opened.skipSpacing.rest opened.skipSpacing <;> rfl

theorem truthful_readArray {room : Nat} {item : Reader Literal}
    (truthful : Truthful room item) : Truthful (room + 1) (readArray item) := by
  intro cursor next literal result
  rcases readArray_cases item cursor with failed | ⟨before, first, blank, reached, ends⟩
  · simp [failed] at result
  · rcases ends with ⟨after, closes, found⟩ | found
    · rw [found] at result
      cases result
      exact ⟨_, reached.trans closes, .empty blank⟩
    · rw [found] at result
      cases itemsEq : readItems item first.rest first with
      | error failure => simp [itemsEq, Except.map] at result
      | ok pair =>
          obtain ⟨items, after⟩ := pair
          obtain ⟨body, bodyFollows, derives⟩ := readItems_follows truthful itemsEq
          simp only [itemsEq, Except.map, Except.ok.injEq, Prod.mk.injEq] at result
          obtain ⟨rfl, rfl⟩ := result
          refine ⟨0x5B :: before ++ body ++ [0x5D], ?_, .array blank derives⟩
          simpa using reached.trans bodyFollows

/-- What is read as a literal is a text that derives it. -/
theorem truthful_read (room : Nat) : Truthful room (read room) := by
  induction room with
  | zero =>
      apply truthful_firstOf
      intro reader member
      simp only [List.mem_cons, List.not_mem_nil, or_false] at member
      rcases member with rfl | rfl | rfl | rfl
      · exact truthful_readBool
      · exact truthful_readString
      · exact truthful_readFloat
      · exact truthful_readInt
  | succ room ih =>
      apply truthful_firstOf
      intro reader member
      simp only [List.mem_cons, List.not_mem_nil, or_false] at member
      rcases member with rfl | rfl | rfl | rfl | rfl
      · exact truthful_readBool
      · exact truthful_readString
      · exact truthful_readFloat
      · exact truthful_readInt
      · exact truthful_readArray ih

end Literal

end Directive
