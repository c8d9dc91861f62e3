import Directive.Literal.Grammar
import Directive.Proofs.Binary64.Integers

/-!
# Integers as they are written

The digits of an integer and its minus sign denote an integer, of any length.
The binary64 number that they are read as is this integer if it is safe, and is
not safe otherwise.
-/

namespace Directive

theorem WholeNumber.isDigit_of_mem {whole : Text} (isWhole : WholeNumber whole) :
    ∀ unit ∈ whole, CodeUnit.isDigit unit := by
  cases isWhole with
  | zero =>
      intro unit member
      obtain rfl := List.mem_singleton.mp member
      rfl
  | digits first _ rest => exact List.forall_mem_cons.mpr ⟨first, rest⟩

namespace Numeral

/-- The integer that a numeral without a decimal point denotes. -/
def integer (lexeme : Text) : Int :=
  if isNegative lexeme then -(ofDigits (magnitude lexeme) : Int) else ofDigits (magnitude lexeme)

theorem natAbs_integer (lexeme : Text) :
    (integer lexeme).natAbs = ofDigits (magnitude lexeme) := by
  rw [integer]
  split <;> simp

theorem wholeNumber_magnitude {lexeme : Text} (isInt : IntLexeme lexeme) :
    WholeNumber (magnitude lexeme) := by
  cases isInt with
  | signed isWhole => simpa [magnitude, isNegative] using isWhole
  | plain isWhole =>
      have noSign : isNegative lexeme = false := by
        rw [isNegative]
        cases isWhole with
        | zero => rfl
        | @digits first rest isDigit _ _ =>
            have different : first ≠ 0x2D := by
              intro same
              subst same
              exact absurd isDigit (by decide)
            simp [different]
      simpa [magnitude, noSign] using isWhole

variable {lexeme : Text}

theorem value_eq (isInt : IntLexeme lexeme) :
    value lexeme =
      Binary64.ofQuotient (isNegative lexeme) (ofDigits (magnitude lexeme)) 1 := by
  have belong : ∀ unit ∈ magnitude lexeme, (unit != 0x2E) = true := by
    intro unit member
    have isDigit := (wholeNumber_magnitude isInt).isDigit_of_mem unit member
    have different : unit ≠ 0x2E := by
      intro same
      subst same
      exact absurd isDigit (by decide)
    simpa using different
  have noPoint : (magnitude lexeme).takeWhile (· != 0x2E) = magnitude lexeme := by
    have taken := @List.takeWhile_append_of_pos _ _ _ [] belong
    simpa using taken
  have noPlaces : (magnitude lexeme).drop ((magnitude lexeme).length + 1) = [] :=
    List.drop_of_length_le (Nat.le_succ _)
  simp [value, noPoint, noPlaces, Binary64.ofDecimal, Binary64.powerOfTen]

/-- A numeral is read as a safe integer exactly if it denotes one. -/
theorem isSafeInteger_value_iff (isInt : IntLexeme lexeme) :
    (value lexeme).isSafeInteger ↔ (integer lexeme).natAbs ≤ Binary64.maxSafeInteger := by
  rw [value_eq isInt, Binary64.isSafeInteger_ofQuotient_iff, natAbs_integer]

theorem withoutZeroSign_value (isInt : IntLexeme lexeme) :
    (value lexeme).withoutZeroSign = Binary64.ofInt (integer lexeme) := by
  rw [value_eq isInt, Binary64.withoutZeroSign_ofQuotient, integer]

end Numeral

end Directive
