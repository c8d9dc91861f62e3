import Directive.Proofs.Call.Format
import Directive.Proofs.Document.Tiling
import Directive.Proofs.Numeral

/-!
# Literals that are written and read again

A text is one literal exactly if the grammar derives the literal from it, apart
from spacing around it.  So a literal is read again from the text that it is
written as exactly if it is well formed, and only well-formed literals are read
from any text.
-/

namespace Directive

theorem Spacing.faces_endsLiteral {cursor : Cursor} (spacing : Spacing cursor.rest) :
    cursor.Faces fun unit => CodeUnit.endsLiteral unit := by
  intro unit stands
  exact CodeUnit.endsLiteral_of_isSpacing (spacing unit (List.mem_of_mem_head? stands))

namespace Literal

/-- Either no literal is read behind the first spacing, or what stands behind the
literal and more spacing decides. -/
theorem parse_cases (text : Text) :
    (∃ (before : Text) (first : Cursor) (failure : Failure), Spacing before ∧
        first.Follows (Cursor.start text) before ∧ read maxNesting first = .error failure ∧
        parse text = .error (.unread failure)) ∨
      ∃ (before body after : Text) (literal : Literal) (next : Cursor), Spacing before ∧
        Derives maxNesting body literal ∧ Spacing after ∧
        next.Follows (Cursor.start text) (before ++ body ++ after) ∧
        (next.Faces fun unit => CodeUnit.isSpacing unit = false) ∧
        parse text =
          if next.atEnd then .ok literal else .error (.trailingInput next.offset) := by
  obtain ⟨before, beforeBlank, beforeFollows⟩ := (Cursor.start text).skipSpacing_follows
  cases itemRead : readAt 0 (Cursor.start text).skipSpacing with
  | error failure =>
      exact .inl ⟨before, _, failure, beforeBlank, beforeFollows, itemRead,
        by simp [parse, itemRead]⟩
  | ok pair =>
      obtain ⟨literal, next⟩ := pair
      obtain ⟨body, bodyFollows, derives⟩ := truthful_read maxNesting itemRead
      obtain ⟨after, afterBlank, afterFollows⟩ := next.skipSpacing_follows
      have passed := (beforeFollows.trans bodyFollows).trans afterFollows
      exact .inr ⟨before, body, after, literal, next.skipSpacing, beforeBlank, derives,
        afterBlank, passed, Cursor.takeWhile_stops _ next, by simp [parse, itemRead]⟩

/-- The texts that are read as a literal are those that derive it, with spacing
around them. -/
theorem parse_eq_ok_iff {text : Text} {literal : Literal} :
    parse text = .ok literal ↔
      ∃ before body after, text = before ++ body ++ after ∧ Spacing before ∧
        Derives maxNesting body literal ∧ Spacing after := by
  constructor
  · intro result
    rcases parse_cases text with
      ⟨_, _, failure, -, -, -, failed⟩ |
        ⟨before, body, after, found, next, beforeBlank, derives, afterBlank, passed, -, parsed⟩
    · simp [failed] at result
    · rw [parsed] at result
      split at result
      · next ended =>
          cases result
          have nothing : next.rest = [] := by simpa [Cursor.atEnd] using ended
          have textEq := passed.1
          rw [nothing, List.append_nil] at textEq
          exact ⟨before, body, after, textEq, beforeBlank, derives, afterBlank⟩
      · cases result
  · intro parts
    obtain ⟨before, body, after, rfl, beforeBlank, derives, afterBlank⟩ := parts
    obtain ⟨first, others, bodyEq, starts⟩ := derives.head
    have whole : Cursor.Follows ⟨(before ++ (body ++ after)).length, []⟩
        (Cursor.start (before ++ (body ++ after))) (before ++ (body ++ after)) := by
      simp [Cursor.Follows, Cursor.start]
    have atBody := whole.skipSpacing_of_head beforeBlank
      ⟨first, others ++ after, by rw [bodyEq]; rfl, CodeUnit.isSpacing_of_startsLiteral starts⟩
    obtain ⟨next, bodyFollows, afterFollows⟩ := atBody.split
    have restEq : next.rest = after := by simpa using afterFollows.1
    have itemRead : readAt 0 (Cursor.start (before ++ (body ++ after))).skipSpacing =
        .ok (literal, next) :=
      derives.read_eq_ok bodyFollows (Spacing.faces_endsLiteral (restEq ▸ afterBlank))
    have ended : next.skipSpacing.atEnd = true := by
      rw [Cursor.skipSpacing_eq afterFollows afterBlank (by simp [Cursor.Faces])]
      rfl
    rw [List.append_assoc, parse, itemRead]
    simp [ended]

theorem WellFormed.parse_format {literal : Literal} (wellFormed : literal.WellFormed) :
    parse literal.format = .ok literal := by
  obtain ⟨consistent, fits⟩ := wellFormed
  exact parse_eq_ok_iff.mpr
    ⟨[], literal.format, [], by simp, Spacing.nil, consistent.derives_format fits, Spacing.nil⟩

theorem wellFormed_of_parse {text : Text} {literal : Literal}
    (result : parse text = .ok literal) : literal.WellFormed := by
  obtain ⟨_, _, _, _, _, derives, _⟩ := parse_eq_ok_iff.mp result
  exact derives.wellFormed

/-- The integers that fit together are the safe ones, each with the number that
its lexeme denotes, a zero without a sign. -/
theorem consistent_int_iff {value : Binary64} {lexeme : Text} :
    (Literal.int value lexeme).Consistent ↔
      IntLexeme lexeme ∧ (Numeral.integer lexeme).natAbs ≤ Binary64.maxSafeInteger ∧
        value.toInt? = some (Numeral.integer lexeme) ∧
        value = .ofInt (Numeral.integer lexeme) := by
  constructor
  · intro consistent
    obtain ⟨isInt, isSafe, rfl⟩ := consistent
    have safe := (Numeral.isSafeInteger_value_iff isInt).mp isSafe
    rw [Numeral.withoutZeroSign_value isInt]
    exact ⟨isInt, safe, Binary64.toInt?_ofInt safe, rfl⟩
  · intro exactly
    obtain ⟨isInt, safe, -, rfl⟩ := exactly
    rw [← Numeral.withoutZeroSign_value isInt]
    exact ⟨isInt, (Numeral.isSafeInteger_value_iff isInt).mpr safe, rfl⟩

theorem wellFormed_of_mem_calls {source : Text} {call : Call} {argument : Argument}
    (member : call ∈ (Document.parse source).calls) (passed : argument ∈ call.arguments) :
    argument.value.WellFormed :=
  ((Document.wellFormed_of_mem_calls member).2 argument passed).2

/-- A literal is read again from the text that it is written as exactly if it is
well formed, and all literals that are read from any text, or as an argument in
any source, are. -/
theorem parse_format_iff :
    (∀ literal : Literal, parse literal.format = .ok literal ↔ literal.WellFormed) ∧
      (∀ value lexeme, (Literal.int value lexeme).Consistent ↔
        IntLexeme lexeme ∧ (Numeral.integer lexeme).natAbs ≤ Binary64.maxSafeInteger ∧
          value.toInt? = some (Numeral.integer lexeme) ∧
          value = .ofInt (Numeral.integer lexeme)) ∧
      (∀ text literal, parse text = .ok literal → literal.WellFormed) ∧
      ∀ source, ∀ call ∈ (Document.parse source).calls, ∀ argument ∈ call.arguments,
        argument.value.WellFormed := by
  refine ⟨?_, fun _ _ => consistent_int_iff, fun _ _ => wellFormed_of_parse, ?_⟩
  · intro literal
    exact ⟨wellFormed_of_parse, WellFormed.parse_format⟩
  · intro source call member argument passed
    exact wellFormed_of_mem_calls member passed

end Literal

end Directive
