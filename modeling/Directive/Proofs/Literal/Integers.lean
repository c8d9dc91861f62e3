import Directive.Proofs.Literal.Diagnosis

/-!
# Integers are not rounded

An integer is read with exactly the value that its lexeme denotes, however long
the lexeme is, or it is out of range and reported so.  A minus sign before a
zero is not kept.  This holds of every integer within the arguments of a
document, since all of them are consistent.
-/

namespace Directive

/-- A number is an integer, and the positive zero if the integer is zero. -/
def Binary64.IsExactly (value : Binary64) (integer : Int) : Prop :=
  value.toInt? = some integer ∧ (integer = 0 → value = zero)

theorem Binary64.ofInt_isExactly {integer : Int} (safe : integer.natAbs ≤ maxSafeInteger) :
    (ofInt integer).IsExactly integer := by
  refine ⟨toInt?_ofInt safe, ?_⟩
  rintro rfl
  decide

namespace Literal

variable {room : Nat} {lexeme : Text}

/-! ## Integers within a literal -/

/-- The literals within a literal are itself and those within the items of an
array. -/
inductive Within (inner : Literal) : Literal → Prop where
  | here : Within inner inner
  | item {item : Literal} {items : List Literal} :
      item ∈ items → Within inner item → Within inner (.array items)

theorem ConsistentItems.of_mem {item : Literal} {items : List Literal}
    (consistent : ConsistentItems items) (member : item ∈ items) : item.Consistent := by
  induction items with
  | nil => cases member
  | cons first items ih =>
      obtain ⟨here, later⟩ := consistent
      rcases List.mem_cons.mp member with rfl | among
      · exact here
      · exact ih later among

theorem Consistent.of_within {inner literal : Literal} (consistent : literal.Consistent)
    (within : Within inner literal) : inner.Consistent := by
  induction within with
  | here => exact consistent
  | item member _ ih => exact ih (ConsistentItems.of_mem consistent member)

/-! ## Where their lexemes stand -/

theorem DerivesItems.exists_of_mem {body : Text} {item : Literal} {items : List Literal}
    (derives : DerivesItems room body items) (member : item ∈ items) :
    ∃ text, text <:+: body ∧ Derives room text item := by
  induction items generalizing body with
  | nil => cases member
  | cons first items ih =>
  cases derives with
  | last derives _ =>
      obtain rfl := List.mem_singleton.mp member
      exact ⟨_, List.infix_append [] _ _, derives⟩
  | lastComma derives _ _ =>
      obtain rfl := List.mem_singleton.mp member
      refine ⟨_, ?_, derives⟩
      rw [List.append_assoc]
      exact List.infix_append [] _ _
  | cons derives _ _ others =>
      rcases List.mem_cons.mp member with rfl | among
      · refine ⟨_, ?_, derives⟩
        simp only [List.append_assoc]
        exact List.infix_append [] _ _
      · obtain ⟨text, stands, itemDerives⟩ := ih others among
        exact ⟨text, stands.trans (List.suffix_append _ _).isInfix, itemDerives⟩

/-- The lexeme of an integer within a literal is written within its text. -/
theorem Derives.lexeme_infix {text : Text} {literal : Literal} {value : Binary64}
    (derives : Derives room text literal) (within : Within (.int value lexeme) literal) :
    lexeme <:+: text := by
  generalize innerEq : Literal.int value lexeme = inner at within
  induction within generalizing room text with
  | here =>
      subst innerEq
      cases derives
      exact List.infix_rfl
  | item member _ ih =>
      cases derives with
      | empty => cases member
      | @array room before body items _ itemsDerive =>
          obtain ⟨part, stands, itemDerives⟩ := itemsDerive.exists_of_mem member
          refine (ih itemDerives).trans (stands.trans ?_)
          exact List.infix_append (0x5B :: before) body [0x5D]

end Literal

open Literal (Within)

variable {argument : Argument} {arguments : List Argument} {lexeme : Text} {value : Binary64}

theorem Argument.Derives.lexeme_infix {text : Text} (derives : Derives text argument)
    (within : Within (.int value lexeme) argument.value) : lexeme <:+: text := by
  obtain ⟨-, -, -, valueDerives⟩ := derives
  exact (valueDerives.lexeme_infix within).trans (List.suffix_append _ _).isInfix

theorem Argument.DerivesList.lexeme_infix {text : Text} (derives : DerivesList text arguments)
    (passed : argument ∈ arguments) (within : Within (.int value lexeme) argument.value) :
    lexeme <:+: text := by
  induction derives with
  | last derives _ =>
      obtain rfl := List.mem_singleton.mp passed
      exact (derives.lexeme_infix within).trans (List.prefix_append _ _).isInfix
  | cons derives _ _ _ ih =>
      rcases List.mem_cons.mp passed with rfl | among
      · refine (derives.lexeme_infix within).trans ?_
        simp only [List.append_assoc]
        exact (List.prefix_append _ _).isInfix
      · exact (ih among).trans (List.suffix_append _ _).isInfix

theorem Argument.DerivesAll.lexeme_infix {text : Text} (derives : DerivesAll text arguments)
    (passed : argument ∈ arguments) (within : Within (.int value lexeme) argument.value) :
    lexeme <:+: text := by
  cases derives with
  | none => cases passed
  | some derives => exact derives.lexeme_infix passed within

theorem Invocation.Derives.lexeme_infix {text : Text} {invocation : Invocation}
    (derives : Derives text invocation) (passed : argument ∈ invocation.arguments)
    (within : Within (.int value lexeme) argument.value) : lexeme <:+: text := by
  cases derives with
  | @mk _ beforeName afterName beforeArguments body afterBody _ _ _ _ argumentsDerive _ =>
      refine (argumentsDerive.lexeme_infix passed within).trans ?_
      refine ⟨Call.opener ++ beforeName ++ invocation.name ++ afterName ++
        0x28 :: beforeArguments, 0x29 :: afterBody ++ Call.closer, ?_⟩
      simp

namespace Literal

variable {cursor next : Cursor}

/-! ## Integers out of range -/

theorem readArray_fails {item : Reader Literal} (faces : cursor.Faces (· ≠ 0x5B)) :
    Fails (readArray item) cursor :=
  ⟨.noMatch cursor, by simp [readArray, Cursor.eat?_eq_none faces]⟩

/-- Where every alternative fails, the failure of the choice tells of all numerals
out of range. -/
theorem firstOf_eq_error_of_fails {α : Type} {readers : List (Reader α)}
    (fails : ∀ reader ∈ readers, Fails reader cursor) :
    ∃ failure, firstOf readers cursor = .error failure ∧
      ∀ reader ∈ readers, ∀ inner, reader cursor = .error inner →
        inner.outOfRange ⊆ failure.outOfRange := by
  induction readers with
  | nil => exact ⟨_, rfl, by simp⟩
  | cons reader readers ih =>
      obtain ⟨here, later⟩ := List.forall_mem_cons.mp fails
      obtain ⟨first, firstEq⟩ := here
      obtain ⟨others, othersEq, tellOthers⟩ := ih later
      refine ⟨first.merge others, by simp [firstOf, firstEq, othersEq, Except.mapError], ?_⟩
      rw [List.forall_mem_cons]
      constructor
      · intro inner innerEq
        obtain rfl := Except.error.inj (firstEq.symm.trans innerEq)
        exact List.subset_append_left _ _
      · intro among member inner innerEq
        exact List.Subset.trans (tellOthers among member inner innerEq)
          (List.subset_append_right _ _)

theorem read_overflows (room : Nat) (isInt : IntLexeme lexeme)
    (tooGreat : Binary64.maxSafeInteger < (Numeral.integer lexeme).natAbs)
    (follows : next.Follows cursor lexeme)
    (ends : next.Faces fun unit => CodeUnit.endsLiteral unit) :
    ∃ failure, read room cursor = .error failure ∧ failure.kind = .numericOverflow := by
  obtain ⟨arrays, readEq, areArrays⟩ := read_eq_firstOf room
  obtain ⟨first, others, lexemeEq, starts⟩ := isInt.head
  have stops := ends.mono fun _ => CodeUnit.isDigit_of_endsLiteral
  have notSafe : (Numeral.value lexeme).isSafeInteger = false := by
    rw [← Bool.not_eq_true, Numeral.isSafeInteger_value_iff isInt]
    omega
  have overflow : readInt cursor = .error ⟨cursor.offset, [⟨.int, lexeme⟩]⟩ := by
    simp [readInt, integerPart_eq_ok isInt follows stops, lexemeBetween_eq follows, notSafe]
  have faces {kind : CodeUnit → Prop} (isKind : kind first) : cursor.Faces kind := by
    rw [lexemeEq] at follows
    exact follows.faces isKind
  have bool : Fails readBool cursor := readBool_fails (faces (CodeUnit.ne_of_startsNumber starts))
  have string : Fails readString cursor :=
    readString_fails (faces (CodeUnit.ofUnit?_of_startsNumber starts))
  have float : Fails readFloat cursor := readFloat_fails_of_int isInt follows ends
  have allFail : ∀ reader ∈ readBool :: readString :: readFloat :: readInt :: arrays,
      Fails reader cursor := by
    simp only [List.forall_mem_cons]
    refine ⟨bool, string, float, ⟨_, overflow⟩, ?_⟩
    intro reader member
    obtain ⟨item, rfl⟩ := areArrays reader member
    exact readArray_fails (faces (CodeUnit.ne_bracket_of_startsNumber starts))
  obtain ⟨failure, failed, tells⟩ := firstOf_eq_error_of_fails allFail
  refine ⟨failure, by rw [readEq, failed], Failure.kind_eq_numericOverflow_iff.mpr ?_⟩
  exact List.ne_nil_of_mem (tells readInt (by simp) _ overflow List.mem_cons_self)

theorem parse_overflows (isInt : IntLexeme lexeme)
    (tooGreat : Binary64.maxSafeInteger < (Numeral.integer lexeme).natAbs) :
    ∃ error, parse lexeme = .error error ∧ error.kind = .numericOverflow := by
  obtain ⟨first, others, rfl, starts⟩ := isInt.head
  have startsLiteral : CodeUnit.startsLiteral first := by simp [CodeUnit.startsLiteral, starts]
  have unspaced : (Cursor.start (first :: others)).skipSpacing = Cursor.start (first :: others) :=
    Cursor.skipSpacing_eq (.refl _) Spacing.nil (by
      intro unit stands
      obtain rfl : first = unit := by simpa [Cursor.start, Cursor.peek?] using stands
      exact CodeUnit.isSpacing_of_startsLiteral startsLiteral)
  have follows : Cursor.Follows ⟨(first :: others).length, []⟩ (Cursor.start (first :: others))
      (first :: others) := by
    simp [Cursor.Follows, Cursor.start]
  obtain ⟨failure, failed, kind⟩ :=
    read_overflows maxNesting isInt tooGreat follows (by simp [Cursor.Faces])
  have unread : readAt 0 (Cursor.start (first :: others)) = .error failure := failed
  exact ⟨.unread failure, by simp [parse, unspaced, unread], kind⟩

/-! ## Integers in range -/

theorem parse_eq_ok_ofInt (isInt : IntLexeme lexeme)
    (safe : (Numeral.integer lexeme).natAbs ≤ Binary64.maxSafeInteger) :
    parse lexeme = .ok (.int (.ofInt (Numeral.integer lexeme)) lexeme) := by
  have consistent : (Literal.int (.ofInt (Numeral.integer lexeme)) lexeme).Consistent :=
    consistent_int_iff.mpr ⟨isInt, safe, Binary64.toInt?_ofInt safe, rfl⟩
  exact WellFormed.parse_format ⟨consistent, Nat.zero_le _⟩

/-- A lexeme of any length is read as an integer exactly if the integer that it
denotes is in the safe range; then the literal has exactly this value and the
lexeme, and otherwise an overflow is reported.  Every integer within an argument
of a parsed document has the value of its lexeme and is in the range too, and
its lexeme is written within the call. -/
theorem parse_integer :
    (∀ lexeme, IntLexeme lexeme →
      ((∃ value raw, parse lexeme = .ok (.int value raw)) ↔
        (Numeral.integer lexeme).natAbs ≤ 2 ^ 53 - 1) ∧
      (∀ literal, parse lexeme = .ok literal →
        ∃ value, literal = .int value lexeme ∧ value.IsExactly (Numeral.integer lexeme)) ∧
      (2 ^ 53 - 1 < (Numeral.integer lexeme).natAbs →
        ∃ error, parse lexeme = .error error ∧ error.kind = .numericOverflow)) ∧
    ∀ source, ∀ call ∈ (Document.parse source).calls, ∀ argument ∈ call.arguments,
      ∀ value lexeme, Within (.int value lexeme) argument.value →
        IntLexeme lexeme ∧ (Numeral.integer lexeme).natAbs ≤ 2 ^ 53 - 1 ∧
          value.IsExactly (Numeral.integer lexeme) ∧
          parse lexeme = .ok (.int value lexeme) ∧ lexeme <:+: call.raw := by
  have range : 2 ^ 53 - 1 = Binary64.maxSafeInteger := rfl
  rw [range]
  constructor
  · intro lexeme isInt
    rcases Nat.lt_or_ge Binary64.maxSafeInteger (Numeral.integer lexeme).natAbs with
      tooGreat | safe
    · obtain ⟨error, failed, kind⟩ := parse_overflows isInt tooGreat
      refine ⟨?_, ?_, fun _ => ⟨error, failed, kind⟩⟩
      · simp only [failed, reduceCtorEq, exists_false, false_iff]
        exact Nat.not_le.mpr tooGreat
      · intro literal parsed
        simp [failed] at parsed
    · have parsed := parse_eq_ok_ofInt isInt safe
      refine ⟨⟨fun _ => safe, fun _ => ⟨_, _, parsed⟩⟩, ?_, fun tooGreat => by omega⟩
      intro literal again
      obtain rfl := Except.ok.inj (parsed.symm.trans again)
      exact ⟨_, rfl, Binary64.ofInt_isExactly safe⟩
  · intro source call member argument passed value lexeme within
    have wellFormed := wellFormed_of_mem_calls member passed
    obtain ⟨derives, -⟩ :=
      (Document.parse_reads source).derives_of_mem [] rfl (Document.mem_calls_iff.mp member)
    have written := derives.lexeme_infix passed within
    obtain ⟨isInt, safe, -, rfl⟩ := consistent_int_iff.mp (wellFormed.1.of_within within)
    exact ⟨isInt, safe, Binary64.ofInt_isExactly safe, parse_eq_ok_ofInt isInt safe, written⟩

/-- The nearest binary value is the even integer before, which is out of range too. -/
example : (parse (Text.ofString "9007199254740993")).toOption = none := by
  decide +kernel

end Literal

end Directive
