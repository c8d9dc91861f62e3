import Directive.Call.Grammar
import Directive.Proofs.Literal.Format

/-!
# Calls as they are written

A derived call is well formed, and a well-formed call is derived again from its
canonical form.
-/

namespace Directive

namespace Argument

theorem Derives.wellFormed {text : Text} {argument : Argument}
    (derives : Derives text argument) : argument.WellFormed := by
  cases derives with
  | mk identifier _ _ value => exact ⟨identifier, value.wellFormed⟩

theorem DerivesList.wellFormed {text : Text} {arguments : List Argument}
    (derives : DerivesList text arguments) :
    ∀ argument ∈ arguments, argument.WellFormed := by
  induction derives with
  | last argument _ => simpa using argument.wellFormed
  | cons argument _ _ _ ih => exact List.forall_mem_cons.mpr ⟨argument.wellFormed, ih⟩

theorem DerivesAll.wellFormed {text : Text} {arguments : List Argument}
    (derives : DerivesAll text arguments) : ∀ argument ∈ arguments, argument.WellFormed := by
  cases derives with
  | none => simp
  | some list => exact list.wellFormed

theorem WellFormed.derives_format {argument : Argument} (wellFormed : argument.WellFormed) :
    Derives argument.format argument := by
  obtain ⟨identifier, consistent, fits⟩ := wellFormed
  have derives : Derives (argument.name ++ [] ++ 0x3D :: [] ++ argument.value.format) argument :=
    .mk identifier Spacing.nil Spacing.nil (consistent.derives_format fits)
  simpa [Argument.format] using derives

theorem derivesList_join {arguments : List Argument} (nonempty : arguments ≠ [])
    (wellFormed : ∀ argument ∈ arguments, argument.WellFormed) :
    DerivesList (Text.join (Text.ofString ", ") (arguments.map Argument.format)) arguments := by
  induction arguments with
  | nil => exact absurd rfl nonempty
  | cons argument arguments ih =>
      obtain ⟨here, later⟩ := List.forall_mem_cons.mp wellFormed
      cases arguments with
      | nil =>
          have only := DerivesList.last here.derives_format Spacing.nil
          simpa [Text.join] using only
      | cons next arguments =>
          have others := ih (by simp) later
          have all := DerivesList.cons here.derives_format Spacing.nil Spacing.blank others
          have separator : Text.ofString ", " = [0x2C, 0x20] := rfl
          simpa [Text.join, separator] using all

theorem derivesAll_join {arguments : List Argument}
    (wellFormed : ∀ argument ∈ arguments, argument.WellFormed) :
    DerivesAll (Text.join (Text.ofString ", ") (arguments.map Argument.format)) arguments := by
  cases arguments with
  | nil => exact .none
  | cons argument arguments => exact .some (derivesList_join (by simp) wellFormed)

end Argument

namespace Invocation

theorem Derives.wellFormed {text : Text} {invocation : Invocation}
    (derives : Derives text invocation) : invocation.WellFormed := by
  cases derives with
  | mk _ identifier _ _ arguments _ => exact ⟨identifier, arguments.wellFormed⟩

theorem WellFormed.derives_format {invocation : Invocation}
    (wellFormed : invocation.WellFormed) : Derives invocation.format invocation := by
  obtain ⟨identifier, arguments⟩ := wellFormed
  have derives := Derives.mk Spacing.blank identifier Spacing.nil Spacing.nil
    (Argument.derivesAll_join arguments) Spacing.blank
  have opening : Text.ofString "\x7b\x7b " = Call.opener ++ [0x20] := rfl
  have closing : Text.ofString ") \x7d\x7d" = 0x29 :: 0x20 :: Call.closer := rfl
  simpa [Invocation.format, opening, closing] using derives

end Invocation

end Directive
