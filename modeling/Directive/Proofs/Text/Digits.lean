import Mathlib.Data.List.Basic
import Directive.Identifier

/-!
# Decimal digits

A number is written with a unit for each of its digits, and no two numbers are
written alike.
-/

namespace Directive.Text

theorem toNat_le_of_mem_toDigits {number : Nat} {digit : Char}
    (member : digit ∈ Nat.toDigits 10 number) : 0x30 ≤ digit.toNat ∧ digit.toNat ≤ 0x39 :=
  Char.isDigit_iff_toNat.mp (Nat.isDigit_of_mem_toDigits (by decide) (Nat.le_refl 10) member)

/-- A number has one unit for each digit. -/
theorem ofNat_eq_map (number : Nat) :
    Text.ofNat number = (Nat.toDigits 10 number).map fun digit => UInt16.ofNat digit.toNat := by
  rw [Text.ofNat, Text.ofChars, List.map_eq_flatMap]
  apply List.flatMap_congr
  intro digit member
  have atMost := (toNat_le_of_mem_toDigits member).2
  rw [Text.encodeChar, if_pos (by omega)]

theorem isDigit_of_mem_ofNat {number : Nat} {unit : CodeUnit} (member : unit ∈ Text.ofNat number) :
    CodeUnit.isDigit unit := by
  rw [ofNat_eq_map] at member
  obtain ⟨digit, isDigit, rfl⟩ := List.mem_map.mp member
  obtain ⟨atLeast, atMost⟩ := toNat_le_of_mem_toDigits isDigit
  have small : digit.toNat < UInt16.size := Nat.lt_of_le_of_lt atMost (by decide)
  simp only [CodeUnit.isDigit, Bool.and_eq_true, decide_eq_true_eq, UInt16.le_iff_toNat_le,
    UInt16.toNat_ofNat_of_lt' small]
  exact ⟨atLeast, atMost⟩

theorem ofNat_injective {number other : Nat} (same : Text.ofNat number = Text.ofNat other) :
    number = other := by
  have readBack : ∀ number : Nat,
      (Text.ofNat number).map (fun unit => Char.ofNat unit.toNat) = Nat.toDigits 10 number := by
    intro number
    rw [ofNat_eq_map, List.map_map]
    refine (List.map_congr_left ?_).trans (List.map_id _)
    intro digit member
    have atMost := (toNat_le_of_mem_toDigits member).2
    have small : digit.toNat < UInt16.size := Nat.lt_of_le_of_lt atMost (by decide)
    rw [Function.comp, UInt16.toNat_ofNat_of_lt' small, Char.ofNat_toNat, id]
  have sameDigits : Nat.toDigits 10 number = Nat.toDigits 10 other := by
    rw [← readBack, ← readBack, same]
  have sameValue := congrArg (fun digits => Nat.ofDigitChars 10 digits 0) sameDigits
  simpa using sameValue

end Directive.Text
