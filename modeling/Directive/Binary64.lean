import Directive.Text

/-!
# Binary64 numbers

The nonnegative binary64 numbers are numbered in increasing order: rank 0 is
zero, rank 1 the least positive number, and the last rank is infinity.  A
number is a sign and a rank, or the one not-a-number.  A rank is also the bit
pattern of its number: an exponent field above a fraction of 52 bits.
-/

namespace Directive

/-- The number of ranks that share an exponent field. -/
def fractionCount : Nat :=
  1 <<< 52

/-- The rank of infinity. -/
def infiniteRank : Nat :=
  0x7FF * fractionCount

inductive Binary64 where
  | nan
  | signed (negative : Bool) (rank : Fin (infiniteRank + 1))
deriving DecidableEq

namespace Binary64

/-- The fraction of a rank, with the leading bit that only the least numbers
lack. -/
def significand (rank : Nat) : Nat :=
  if rank < fractionCount then rank else fractionCount + rank % fractionCount

/-- The binary exponent of a rank, counted from the least one. -/
def scale (rank : Nat) : Nat :=
  rank / fractionCount - 1

/-- The number of a rank in units of the least positive number. -/
def units (rank : Nat) : Nat :=
  significand rank <<< scale rank

/-- The number one in units of the least positive number. -/
def unitsPerOne : Nat :=
  1 <<< 1074

def zero : Binary64 :=
  .signed false 0

def isFinite : Binary64 → Bool
  | .nan => false
  | .signed _ rank => rank.val < infiniteRank

/-- The integer that a number is, if it is one. -/
def toInt? : Binary64 → Option Int
  | .nan => none
  | .signed negative rank =>
      if rank.val < infiniteRank && units rank.val % unitsPerOne == 0 then
        let magnitude : Int := (units rank.val / unitsPerOne : Nat)
        some (if negative then -magnitude else magnitude)
      else none

/-- The greatest integer to which, and to all below it, no other integer is
rounded. -/
def maxSafeInteger : Nat :=
  0x1FFFFFFFFFFFFF

/-- Whether a number is an integer of the safe range. -/
def isSafeInteger (number : Binary64) : Bool :=
  match number.toInt? with
  | none => false
  | some integer => integer.natAbs ≤ maxSafeInteger

/-- Both zeros become the positive one. -/
def withoutZeroSign : Binary64 → Binary64
  | .nan => .nan
  | .signed negative rank => if rank.val = 0 then zero else .signed negative rank

/-- Reads the sign bit, exponent field and fraction of a bit pattern. -/
def ofBits (bits : UInt64) : Binary64 :=
  let rank := bits.toNat % 0x8000000000000000
  if bound : rank < infiniteRank + 1 then
    .signed (0x8000000000000000 ≤ bits.toNat) ⟨rank, bound⟩
  else .nan

def toBits : Binary64 → UInt64
  | .nan => 0x7FF8000000000000
  | .signed negative rank => UInt64.ofNat (rank.val + if negative then 0x8000000000000000 else 0)

end Binary64

end Directive
