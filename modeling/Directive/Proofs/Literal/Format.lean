import Directive.Literal.Grammar

/-!
# Literals as they are written

A literal that is derived from any text is consistent and no deeper than the
room it was given, and every literal of that kind is derived again from the
text that it is written as.
-/

namespace Directive

theorem Spacing.nil : Spacing [] := by
  simp [Spacing]

theorem Spacing.blank : Spacing [0x20] := by
  simp [Spacing, CodeUnit.isSpacing]

namespace Literal

/-! ## What is derived fits together -/

mutual

theorem Derives.consistent {room : Nat} {text : Text} {literal : Literal}
    (derives : Derives room text literal) : Consistent literal := by
  cases derives with
  | yes => simp [Consistent]
  | no => simp [Consistent]
  | string inside => simpa [Consistent] using inside
  | int isInt safe => exact ⟨isInt, safe, rfl⟩
  | float isFloat finite => exact ⟨isFloat, finite, rfl⟩
  | empty _ => simp [Consistent, ConsistentItems]
  | array _ items =>
      have itemsConsistent := items.consistent
      simpa [Consistent] using itemsConsistent

theorem DerivesItems.consistent {room : Nat} {body : Text} {items : List Literal}
    (derives : DerivesItems room body items) : ConsistentItems items := by
  cases derives with
  | last item _ => exact ⟨item.consistent, trivial⟩
  | lastComma item _ _ => exact ⟨item.consistent, trivial⟩
  | cons item _ _ others => exact ⟨item.consistent, others.consistent⟩

end

mutual

theorem Derives.nesting_le {room : Nat} {text : Text} {literal : Literal}
    (derives : Derives room text literal) : literal.nesting ≤ room := by
  cases derives with
  | array _ items =>
      have atMost := items.nesting_le
      simp only [nesting]
      omega
  | _ => simp [nesting, nestingList]

theorem DerivesItems.nesting_le {room : Nat} {body : Text} {items : List Literal}
    (derives : DerivesItems room body items) : nestingList items ≤ room := by
  cases derives with
  | last item _ => simpa [nestingList] using item.nesting_le
  | lastComma item _ _ => simpa [nestingList] using item.nesting_le
  | cons item _ _ others =>
      have here := item.nesting_le
      have later := others.nesting_le
      simp only [nestingList]
      omega

end

theorem Derives.wellFormed {text : Text} {literal : Literal}
    (derives : Derives maxNesting text literal) : literal.WellFormed :=
  ⟨derives.consistent, derives.nesting_le⟩

/-! ## What fits together is derived -/

mutual

theorem Consistent.derives_format {literal : Literal} (consistent : Consistent literal)
    {room : Nat} (fits : literal.nesting ≤ room) : Derives room literal.format literal := by
  match literal with
  | .bool true => exact .yes
  | .bool false => exact .no
  | .string value quote =>
      rw [format]
      exact .string (by simpa [Consistent] using consistent)
  | .int value lexeme =>
      obtain ⟨isInt, safe, rfl⟩ := consistent
      exact .int isInt safe
  | .float value lexeme =>
      obtain ⟨isFloat, finite, rfl⟩ := consistent
      exact .float isFloat finite
  | .array [] =>
      obtain ⟨room, rfl⟩ := Nat.exists_eq_add_one_of_ne_zero (show room ≠ 0 by
        simp only [nesting] at fits
        omega)
      exact .empty Spacing.nil
  | .array (item :: items) =>
      obtain ⟨room, rfl⟩ := Nat.exists_eq_add_one_of_ne_zero (show room ≠ 0 by
        simp only [nesting] at fits
        omega)
      have itemsFit : nestingList (item :: items) ≤ room := by
        simp only [nesting] at fits
        omega
      have body : DerivesItems room (formatItems (item :: items)) (item :: items) :=
        ConsistentItems.derivesItems_format consistent (by simp) itemsFit
      rw [format]
      exact .array Spacing.nil body

theorem ConsistentItems.derivesItems_format {items : List Literal}
    (consistent : ConsistentItems items) (nonempty : items ≠ []) {room : Nat}
    (fits : nestingList items ≤ room) : DerivesItems room (formatItems items) items := by
  match items with
  | [] => exact absurd rfl nonempty
  | [item] =>
      obtain ⟨here, -⟩ := consistent
      have itemDerives : Derives room item.format item :=
        here.derives_format (by simpa [nestingList] using fits)
      have only := DerivesItems.last itemDerives Spacing.nil
      simpa [formatItems] using only
  | item :: next :: items =>
      obtain ⟨here, later⟩ := consistent
      obtain ⟨itemFits, othersFit⟩ :
          item.nesting ≤ room ∧ nestingList (next :: items) ≤ room := by
        rw [nestingList] at fits
        omega
      have itemDerives := here.derives_format itemFits
      have othersDerive := ConsistentItems.derivesItems_format later (by simp) othersFit
      have all := DerivesItems.cons itemDerives Spacing.nil Spacing.blank othersDerive
      simpa [formatItems] using all

end

end Literal

end Directive
