import Directive.Binary64.Rounding

/-!
# Decimal text of binary64 numbers

A number is written with the fewest digits that read back as the same number,
and among those with the digits nearest to it.  `coarsest` finds them: the
reals that round to a number form an interval, and the shortest decimals in it
are the multiples of the greatest power of ten that has one there.
-/

namespace Directive.Binary64

/-- Digits times a power of ten. -/
structure Decimal where
  digits : Nat
  exponent : Int
deriving DecidableEq

/-- The reals around a positive number that round to it, from `lower` to
`upper` about `centre`, all three in units of `unit`.  Both ends round to the
number when its significand is even. -/
structure RoundingInterval where
  lower : Nat
  centre : Nat
  upper : Nat
  unit : Nat
  closed : Bool

/-- The interval around a number, over the multiples of a power of ten.  Its
ends lie half a last place away; below a power of two the numbers are twice as
close, so the lower end is nearer there. -/
def roundingInterval (rank : Nat) (power : Int) : RoundingInterval :=
  let quarter := powerOfTen (-power).toNat <<< scale rank
  let centre := 4 * significand rank
  let nearBelow := rank % fractionCount == 0 && 0 < scale rank
  { lower := (centre - if nearBelow then 1 else 2) * quarter
    centre := centre * quarter
    upper := (centre + 2) * quarter
    unit := 4 * unitsPerOne * powerOfTen power.toNat
    closed := significand rank % 2 == 0 }

def RoundingInterval.contains (interval : RoundingInterval) (multiple : Nat) : Bool :=
  let point := multiple * interval.unit
  if interval.closed then interval.lower ≤ point && point ≤ interval.upper
  else interval.lower < point && point < interval.upper

/-- The multiple of the unit inside the interval that is nearest to the centre. -/
def RoundingInterval.nearest? (interval : RoundingInterval) : Option Nat :=
  let below := interval.centre / interval.unit
  let twice := 2 * (interval.centre % interval.unit)
  match interval.contains below, interval.contains (below + 1) with
  | true, false => some below
  | false, true => some (below + 1)
  | true, true =>
      if twice < interval.unit || (twice == interval.unit && below % 2 == 0) then some below
      else some (below + 1)
  | false, false => none

/-- Tries the powers of ten downwards, the first with the exponent `steps - 331`. -/
def coarsest (rank : Nat) : (steps : Nat) → Decimal
  | 0 => ⟨0, 0⟩
  | steps + 1 =>
      let power : Int := steps - 330
      match (roundingInterval rank power).nearest? with
      | some digits => ⟨digits, power⟩
      | none => coarsest rank steps

/-- The shortest decimal of a positive finite number.  The search starts above
the greatest number, at the exponent 309; the least one needs the exponent
-324. -/
def shortest (rank : Nat) : Decimal :=
  coarsest rank 640

/-- Digits without an exponent where the decimal point falls within 21 digits
or at most six places before them, otherwise with one. -/
def Decimal.toText (decimal : Decimal) : Text :=
  let digits := Text.ofNat decimal.digits
  let point : Int := digits.length + decimal.exponent
  if digits.length ≤ point ∧ point ≤ 21 then
    digits ++ List.replicate (point - digits.length).toNat 0x30
  else if 0 < point ∧ point ≤ 21 then
    digits.take point.toNat ++ 0x2E :: digits.drop point.toNat
  else if -6 < point ∧ point ≤ 0 then
    Text.ofString "0." ++ List.replicate (-point).toNat 0x30 ++ digits
  else
    let fraction := digits.drop 1
    let mantissa := digits.take 1 ++ if fraction.isEmpty then [] else 0x2E :: fraction
    let sign : Text := if point - 1 < 0 then [0x2D] else [0x2B]
    mantissa ++ 0x65 :: sign ++ Text.ofNat (point - 1).natAbs

/-- The shortest text of a number; both zeros are written alike. -/
def toText : Binary64 → Text
  | .nan => Text.ofString "NaN"
  | .signed negative rank =>
      if rank.val = 0 then Text.ofString "0"
      else
        let sign : Text := if negative then [0x2D] else []
        if rank.val = infiniteRank then sign ++ Text.ofString "Infinity"
        else sign ++ (shortest rank.val).toText

/-- Text with two decimal places: the nearest multiple of a hundredth, a tie
away from zero.  From the number with 22 digits on, the shortest text. -/
def toHundredths : Binary64 → Text
  | .nan => Text.ofString "NaN"
  | .signed negative rank =>
      if powerOfTen 21 * unitsPerOne ≤ units rank.val then toText (.signed negative rank)
      else
        let hundredths := (200 * units rank.val + unitsPerOne) / (2 * unitsPerOne)
        let sign : Text := if negative && rank.val != 0 then [0x2D] else []
        let places := hundredths % 100
        sign ++ Text.ofNat (hundredths / 100) ++
          0x2E :: Text.ofNat (places / 10) ++ Text.ofNat (places % 10)

end Directive.Binary64
