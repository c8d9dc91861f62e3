import Directive.Proofs.Text.Occurrences

/-!
# Pieces between single units

A separator of one unit cannot overlap itself, so splitting at it is splitting
the list of units.  The pieces are the lists without the unit that make the text
when they are joined.
-/

namespace Directive.Text

variable {unit : CodeUnit} {text : Text} {pieces : List Text}

theorem startsWith_singleton (unit first : CodeUnit) (rest : Text) :
    startsWith (first :: rest) [unit] = (first == unit) := by
  simp [startsWith, List.isPrefixOf, BEq.comm]

theorem piecesFrom_singleton (unit : CodeUnit) (piece text : Text) :
    piecesFrom [unit] 0 piece text = List.splitOnPPrepend (· == unit) text piece := by
  induction text generalizing piece with
  | nil => rfl
  | cons first text ih =>
      rw [piecesFrom, startsWith_singleton, List.splitOnPPrepend_cons_eq_if]
      by_cases found : (first == unit) = true
      · rw [if_pos found, if_pos found]
        exact congrArg _ (ih [])
      · rw [if_neg found, if_neg found, ih]

theorem split_singleton (unit : CodeUnit) (text : Text) :
    split [unit] text = text.splitOn unit := by
  rw [split, List.splitOn_eq_splitOnP, List.splitOnP_eq_splitOnPPrepend]
  exact piecesFrom_singleton unit [] text

theorem join_eq_intercalate (separator : Text) (pieces : List Text) :
    join separator pieces = separator.intercalate pieces := by
  fun_induction join separator pieces with
  | case1 => rfl
  | case2 piece => simp
  | case3 piece next pieces ih => rw [ih, List.intercalate_cons_cons]

theorem join_append_singleton (nonempty : pieces ≠ []) (separator last : Text) :
    join separator (pieces ++ [last]) = join separator pieces ++ separator ++ last := by
  induction pieces with
  | nil => exact absurd rfl nonempty
  | cons piece pieces ih =>
      cases pieces with
      | nil => simp [join]
      | cons next pieces =>
          have more := List.cons_ne_nil next pieces
          rw [List.cons_append, join_cons (List.append_ne_nil_of_left_ne_nil more _), ih more,
            join_cons more]
          simp only [List.append_assoc]

theorem join_ne_nil (nonempty : pieces ≠ []) (filled : ∀ piece ∈ pieces, piece ≠ [])
    (separator : Text) : join separator pieces ≠ [] := by
  cases pieces with
  | nil => exact absurd rfl nonempty
  | cons piece pieces =>
      have pieceFilled := filled piece List.mem_cons_self
      cases pieces with
      | nil => exact pieceFilled
      | cons next pieces => simp [join, pieceFilled]

theorem notMem_of_mem_splitOn {piece : Text} (member : piece ∈ text.splitOn unit) :
    unit ∉ piece := by
  induction text generalizing piece with
  | nil => simp_all
  | cons first text ih =>
      rw [List.splitOn_cons_eq_if_modifyHead] at member
      split at member
      · rcases List.mem_cons.mp member with rfl | later
        · exact List.not_mem_nil
        · exact ih later
      · next other =>
          cases piecesEq : text.splitOn unit with
          | nil => exact absurd piecesEq (List.splitOn_ne_nil unit text)
          | cons head others =>
              rw [piecesEq] at member ih
              rcases List.mem_cons.mp member with rfl | later
              · have different : unit ≠ first := by
                  rintro rfl
                  simp at other
                simp [different, ih List.mem_cons_self]
              · exact ih (List.mem_cons_of_mem head later)

/-- A text is split into the pieces without the unit of which it is joined. -/
theorem split_singleton_eq_iff :
    split [unit] text = pieces ↔
      pieces ≠ [] ∧ join [unit] pieces = text ∧ ∀ piece ∈ pieces, unit ∉ piece := by
  rw [split_singleton, join_eq_intercalate]
  constructor
  · rintro rfl
    exact ⟨List.splitOn_ne_nil unit text, List.intercalate_splitOn unit,
      fun _ => notMem_of_mem_splitOn⟩
  · rintro ⟨nonempty, rfl, absent⟩
    exact List.splitOn_intercalate unit absent nonempty

end Directive.Text
