import Directive.Binary64

/-!
# Rounding to the nearest binary64 number

A positive quotient is rounded to the nearest binary64 number, a tie to the one
of even rank, and beyond the largest finite number to infinity.  All steps but
the last are exact.
-/

namespace Directive

/-- The quotient, rounded to the nearest integer, a tie to the even one. -/
def divideToEven (numerator denominator : Nat) : Nat :=
  let quotient := numerator / denominator
  let twice := 2 * (numerator % denominator)
  if twice < denominator then quotient
  else if denominator < twice then quotient + 1
  else quotient + quotient % 2

namespace Binary64

/-- The number with a sign and rank; a rank beyond the last is infinity. -/
def ofRank (negative : Bool) (rank : Nat) : Binary64 :=
  .signed negative ⟨min rank infiniteRank, by omega⟩

/-- The rank nearest to a quotient that is measured in units of the least
positive number.  The shift leaves 53 significant bits where the quotient has
more. -/
def nearestRank (numerator denominator : Nat) : Nat :=
  let shift := (numerator / denominator).log2 - 52
  fractionCount * shift + divideToEven numerator (denominator <<< shift)

/-- The number nearest to `numerator / denominator`. -/
def ofQuotient (negative : Bool) (numerator denominator : Nat) : Binary64 :=
  ofRank negative (nearestRank (numerator * unitsPerOne) denominator)

def ofNat (number : Nat) : Binary64 :=
  ofQuotient false number 1

def ofInt (number : Int) : Binary64 :=
  ofQuotient (number < 0) number.natAbs 1

def powerOfTen (exponent : Nat) : Nat :=
  Nat.pow 10 exponent

/-- Past this power of ten every decimal whose coefficient has `bits` binary
digits is zero or infinite. -/
def exponentLimit (bits : Nat) : Nat :=
  bits + 400

/-- The number nearest to a coefficient times a power of ten.  Exponents past the
limit are cut to it, which changes no result and bounds the work. -/
def ofDecimal (negative : Bool) (coefficient : Nat) (exponent : Int) : Binary64 :=
  let limit := exponentLimit (coefficient.log2 + 1)
  let power := min exponent.natAbs limit
  if exponent < 0 then ofQuotient negative coefficient (powerOfTen power)
  else ofQuotient negative (coefficient * powerOfTen power) 1

/-- A finite number in units of the least positive one. -/
def signedUnits (negative : Bool) (rank : Nat) : Int :=
  if negative then -(units rank : Int) else units rank

/-- The difference, rounded once. -/
def sub : Binary64 → Binary64 → Binary64
  | .nan, _ | _, .nan => .nan
  | .signed leftNegative left, .signed rightNegative right =>
      if left.val = infiniteRank then
        if right.val = infiniteRank && leftNegative == rightNegative then .nan
        else .signed leftNegative left
      else if right.val = infiniteRank then .signed (!rightNegative) right
      else
        let difference :=
          signedUnits leftNegative left.val - signedUnits rightNegative right.val
        let negative :=
          if difference = 0 then leftNegative && !rightNegative else difference < 0
        ofRank negative (nearestRank difference.natAbs 1)

end Binary64

end Directive
