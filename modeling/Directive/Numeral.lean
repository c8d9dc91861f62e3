import Directive.Binary64.Rounding
import Directive.Identifier

/-!
# Decimal numerals

The number that a written numeral denotes: the exact decimal value, rounded
once to the nearest binary64 number.
-/

namespace Directive.Numeral

/-- The number that a run of digits counts. -/
def ofDigits (digits : Text) : Nat :=
  digits.foldl (fun number digit => 10 * number + (digit.toNat - 0x30)) 0

/-- Whether the numeral begins with a minus sign. -/
def isNegative (lexeme : Text) : Bool :=
  lexeme.head? == some 0x2D

/-- The numeral without its minus sign. -/
def magnitude (lexeme : Text) : Text :=
  if isNegative lexeme then lexeme.drop 1 else lexeme

/-- The value of an optional minus sign, digits, and optionally a decimal point
with more digits. -/
def value (lexeme : Text) : Binary64 :=
  let whole := (magnitude lexeme).takeWhile (· != 0x2E)
  let places := (magnitude lexeme).drop (whole.length + 1)
  Binary64.ofDecimal (isNegative lexeme) (ofDigits (whole ++ places)) (-places.length)

end Directive.Numeral
