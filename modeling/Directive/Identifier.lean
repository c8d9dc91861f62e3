import Directive.Text

/-!
# Character classes and identifiers

The classes of the directive grammar are ASCII classes: a letter or digit of
another script is ordinary text.
-/

namespace Directive

namespace CodeUnit

def isDigit (unit : CodeUnit) : Bool :=
  0x30 ≤ unit && unit ≤ 0x39

/-- Space, tab, carriage return and line feed: all that may stand between the
tokens of a directive. -/
def isSpacing (unit : CodeUnit) : Bool :=
  unit == 0x20 || unit == 0x09 || unit == 0x0D || unit == 0x0A

/-- An ASCII letter or the underscore. -/
def startsIdentifier (unit : CodeUnit) : Bool :=
  (0x61 ≤ unit && unit ≤ 0x7A) || (0x41 ≤ unit && unit ≤ 0x5A) || unit == 0x5F

def continuesIdentifier (unit : CodeUnit) : Bool :=
  startsIdentifier unit || isDigit unit

end CodeUnit

namespace Text

/-- Whether a unit lies in one of the ranges, whose ends belong to them. -/
def inRanges (ranges : List (CodeUnit × CodeUnit)) (unit : CodeUnit) : Bool :=
  ranges.any fun range => range.1 ≤ unit && unit ≤ range.2

/-- The class `[A-Za-z_]`. -/
def identifierStart : List (CodeUnit × CodeUnit) :=
  [(0x41, 0x5A), (0x61, 0x7A), (0x5F, 0x5F)]

/-- The class `[A-Za-z0-9_]`. -/
def identifierPart : List (CodeUnit × CodeUnit) :=
  [(0x41, 0x5A), (0x61, 0x7A), (0x30, 0x39), (0x5F, 0x5F)]

/-- Whether the whole text is an identifier: one unit of the first class, then
any number of the second. -/
def isIdentifier : Text → Bool
  | [] => false
  | first :: rest => inRanges identifierStart first && rest.all (inRanges identifierPart)

theorem decide_le_and_decide_le (bound unit : CodeUnit) :
    (decide (bound ≤ unit) && decide (unit ≤ bound)) = (unit == bound) := by
  rw [Bool.eq_iff_iff]
  simp only [Bool.and_eq_true, decide_eq_true_eq, beq_iff_eq]
  constructor
  · intro bounds
    exact UInt16.le_antisymm bounds.2 bounds.1
  · rintro rfl
    exact ⟨UInt16.le_refl _, UInt16.le_refl _⟩

theorem inRanges_identifierStart (unit : CodeUnit) :
    inRanges identifierStart unit = CodeUnit.startsIdentifier unit := by
  simp only [inRanges, identifierStart, List.any_cons, List.any_nil, Bool.or_false,
    decide_le_and_decide_le, CodeUnit.startsIdentifier]
  ac_rfl

theorem inRanges_identifierPart (unit : CodeUnit) :
    inRanges identifierPart unit = CodeUnit.continuesIdentifier unit := by
  simp only [inRanges, identifierPart, List.any_cons, List.any_nil, Bool.or_false,
    decide_le_and_decide_le, CodeUnit.continuesIdentifier, CodeUnit.startsIdentifier, CodeUnit.isDigit]
  ac_rfl

/-- The check of a whole text admits the units that the grammar admits one by
one. -/
theorem isIdentifier_cons (first : CodeUnit) (rest : Text) :
    isIdentifier (first :: rest) =
      (CodeUnit.startsIdentifier first && rest.all CodeUnit.continuesIdentifier) := by
  rw [isIdentifier, inRanges_identifierStart, funext inRanges_identifierPart]

end Text

end Directive
