import Directive.Text.Search

/-!
# The first occurrence and the pieces

Splitting a text cuts it where searching from left to right finds the
separator: the first piece ends at the first occurrence, and the other pieces
are those of the text behind it.
-/

namespace Directive.Text

variable {needle text : Text}

theorem startsWith_eq_true_iff : startsWith text needle = true ↔ ∃ rest, text = needle ++ rest := by
  rw [startsWith, List.isPrefixOf_iff_prefix]
  constructor
  · intro leads
    obtain ⟨rest, same⟩ := leads
    exact ⟨rest, same.symm⟩
  · intro leads
    obtain ⟨rest, same⟩ := leads
    exact ⟨rest, same.symm⟩

/-- While an occurrence is passed over nothing is added to the pieces. -/
theorem piecesFrom_skip (skip : Nat) (piece : Text) (enough : skip ≤ text.length) :
    piecesFrom needle skip piece text = piecesFrom needle 0 piece (text.drop skip) := by
  induction skip generalizing text with
  | zero => simp
  | succ skip ih =>
      cases text with
      | nil => simp at enough
      | cons unit text =>
          rw [piecesFrom, List.drop_succ_cons]
          exact ih (by simpa using enough)

theorem piecesFrom_of_absent {offset : Nat} (piece : Text)
    (absent : findFrom needle offset text = none) :
    piecesFrom needle 0 piece text = [piece.reverse ++ text] := by
  induction text generalizing offset piece with
  | nil => simp [piecesFrom]
  | cons unit text ih =>
      rw [findFrom] at absent
      by_cases found : startsWith (unit :: text) needle = true
      · simp [found] at absent
      · have later : findFrom needle (offset + 1) text = none := by
          simpa only [found, Bool.false_eq_true, if_false] using absent
        simp [piecesFrom, found, ih (unit :: piece) later]

theorem piecesFrom_of_found {offset start : Nat} (piece : Text) (proper : needle ≠ [])
    (found : findFrom needle offset text = some start) :
    ∃ before after, text = before ++ (needle ++ after) ∧ start = offset + before.length ∧
      piecesFrom needle 0 piece text =
        (piece.reverse ++ before) :: piecesFrom needle 0 [] after := by
  induction text generalizing offset piece with
  | nil =>
      have nonempty : needle.isEmpty = false := by simpa using proper
      simp [findFrom, nonempty] at found
  | cons unit text ih =>
      rw [findFrom] at found
      by_cases here : startsWith (unit :: text) needle = true
      · obtain ⟨after, textEq⟩ := startsWith_eq_true_iff.mp here
        have startEq : offset = start := by simpa [here] using found
        refine ⟨[], after, textEq, by simp [startEq], ?_⟩
        cases needle with
        | nil => exact absurd rfl proper
        | cons first others =>
            obtain ⟨rfl, rfl⟩ := List.cons.inj textEq
            have passed : piecesFrom (unit :: others) others.length [] (others ++ after) = _ :=
              piecesFrom_skip others.length [] (by simp)
            rw [List.drop_left] at passed
            rw [piecesFrom, if_pos here, List.append_nil]
            exact congrArg _ passed
      · have later : findFrom needle (offset + 1) text = some start := by
          simpa only [here, Bool.false_eq_true, if_false] using found
        obtain ⟨before, after, rfl, startEq, pieces⟩ := ih (unit :: piece) later
        refine ⟨unit :: before, after, rfl, by simp [startEq]; omega, ?_⟩
        rw [piecesFrom, if_neg here, pieces]
        simp

theorem startsWith_nil (proper : needle ≠ []) : startsWith [] needle = false := by
  cases needle with
  | nil => exact absurd rfl proper
  | cons first others => rfl

theorem startsWith_append (more : Text) (enough : needle.length ≤ text.length) :
    startsWith (text ++ more) needle = startsWith text needle := by
  rw [Bool.eq_iff_iff, startsWith, startsWith, List.isPrefixOf_iff_prefix,
    List.isPrefixOf_iff_prefix]
  constructor
  · intro leads
    exact List.prefix_of_prefix_length_le leads (List.prefix_append text more) enough
  · intro leads
    exact leads.trans (List.prefix_append text more)

/-- The search finds nothing exactly if the needle begins nowhere. -/
theorem findFrom_eq_none_iff (proper : needle ≠ []) {offset : Nat} :
    findFrom needle offset text = none ↔
      ∀ place, startsWith (text.drop place) needle = false := by
  induction text generalizing offset with
  | nil =>
      have nonempty : needle.isEmpty = false := by simpa using proper
      simp [findFrom, nonempty, startsWith_nil proper]
  | cons unit text ih =>
      rw [findFrom]
      by_cases here : startsWith (unit :: text) needle = true
      · simp only [here, if_true, reduceCtorEq, false_iff]
        intro absent
        simpa [here] using absent 0
      · rw [if_neg here, ih]
        constructor
        · intro later place
          cases place with
          | zero => simpa using here
          | succ place => exact later place
        · intro absent place
          exact absent (place + 1)

/-- The search finds the first place at which the needle begins. -/
theorem findFrom_eq_some_iff (proper : needle ≠ []) {offset start : Nat} :
    findFrom needle offset text = some start ↔
      ∃ place, start = offset + place ∧ startsWith (text.drop place) needle = true ∧
        ∀ earlier < place, startsWith (text.drop earlier) needle = false := by
  induction text generalizing offset with
  | nil =>
      have nonempty : needle.isEmpty = false := by simpa using proper
      simp [findFrom, nonempty, startsWith_nil proper]
  | cons unit text ih =>
      rw [findFrom]
      by_cases here : startsWith (unit :: text) needle = true
      · simp only [here, if_true, Option.some.injEq]
        constructor
        · intro same
          exact ⟨0, same.symm, here, fun earlier before => absurd before (Nat.not_lt_zero _)⟩
        · intro found
          obtain ⟨place, startEq, -, first⟩ := found
          cases place with
          | zero => exact startEq.symm
          | succ place =>
              have missed := first 0 (Nat.succ_pos place)
              simp [here] at missed
      · rw [if_neg here, ih]
        constructor
        · intro found
          obtain ⟨place, startEq, begins, first⟩ := found
          refine ⟨place + 1, by omega, begins, ?_⟩
          intro earlier before
          cases earlier with
          | zero => simpa using here
          | succ earlier => exact first earlier (Nat.lt_of_succ_lt_succ before)
        · intro found
          obtain ⟨place, startEq, begins, first⟩ := found
          cases place with
          | zero => exact absurd begins here
          | succ place =>
              exact ⟨place, by omega, begins,
                fun earlier before => first (earlier + 1) (Nat.succ_lt_succ before)⟩

/-! ## Blank texts -/

theorem forall_mem_of_dropWhile_eq_nil {belongs : CodeUnit → Bool}
    (nothing : text.dropWhile belongs = []) : ∀ unit ∈ text, belongs unit := by
  have parts : text.takeWhile belongs ++ text.dropWhile belongs = text :=
    List.takeWhile_append_dropWhile
  rw [nothing, List.append_nil] at parts
  rw [← parts]
  exact List.all_eq_true.mp List.all_takeWhile

theorem isBlank_eq_true_iff : text.isBlank = true ↔ ∀ unit ∈ text, isTrimmable unit := by
  constructor
  · intro blank
    have behind : ∀ unit ∈ (text.dropWhile isTrimmable).reverse, isTrimmable unit := by
      apply forall_mem_of_dropWhile_eq_nil
      simpa [isBlank, trim] using blank
    apply forall_mem_of_dropWhile_eq_nil
    cases restEq : text.dropWhile isTrimmable with
    | nil => rfl
    | cons first others =>
        have kept := List.head?_dropWhile_not isTrimmable text
        have trimmed := behind first (by simp [restEq])
        simp [restEq, trimmed] at kept
  · intro blank
    have dropped : (text ++ []).dropWhile isTrimmable = List.dropWhile isTrimmable [] :=
      List.dropWhile_append_of_pos blank
    have nothing : text.dropWhile isTrimmable = [] := by simpa using dropped
    simp [isBlank, trim, nothing]

theorem ne_nil_of_isBlank (shown : text.isBlank = false) : text ≠ [] := by
  intro empty
  simp [empty, isBlank, trim] at shown

/-- A text that goes on behind one that is not blank is not blank either. -/
theorem isBlank_append {tail : Text} (shown : text.isBlank = false) :
    (text ++ tail).isBlank = false := by
  apply Bool.eq_false_iff.mpr
  intro blank
  have textBlank : text.isBlank = true := by
    apply isBlank_eq_true_iff.mpr
    intro unit member
    exact isBlank_eq_true_iff.mp blank unit (List.mem_append_left tail member)
  simp [shown] at textBlank

end Directive.Text
