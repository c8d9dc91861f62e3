import Directive.LineIndex

/-!
# Lines and columns by counting

`Text.endPosition` finds a line and a column by passing over a text unit by
unit.  The search in the index of a whole text finds the same, and a position
in a text that follows another one is found from the positions in the two.
-/

namespace Directive

/-! ## Counting -/

namespace Position

/-- The position behind one more unit. -/
def advance (position : Position) (unit : CodeUnit) : Position :=
  if unit = 0x0A then ⟨position.line + 1, 1⟩ else { position with column := position.column + 1 }

/-- A position of a text that itself begins at `origin`. -/
def behind (origin position : Position) : Position :=
  ⟨origin.line + position.line - 1,
    if position.line = 1 then origin.column + position.column - 1 else position.column⟩

theorem behind_start (origin : Position) : origin.behind ⟨1, 1⟩ = origin := by
  simp [behind]

theorem start_behind (position : Position) : behind ⟨1, 1⟩ position = position := by
  obtain ⟨line, column⟩ := position
  simp only [behind, Position.mk.injEq]
  split <;> omega

theorem advance_behind {origin position : Position} (proper : 1 ≤ position.line)
    (unit : CodeUnit) :
    (origin.behind position).advance unit = origin.behind (position.advance unit) := by
  unfold advance behind
  by_cases feed : unit = 0x0A
  · have later : position.line + 1 ≠ 1 := by omega
    simp only [feed, if_true, later, if_false, Position.mk.injEq, and_true]
    omega
  · by_cases first : position.line = 1
    · simp only [feed, first, if_true, if_false, Position.mk.injEq, true_and]
      omega
    · simp only [feed, first, if_false]

theorem line_le_advance (position : Position) (unit : CodeUnit) :
    position.line ≤ (position.advance unit).line := by
  unfold advance
  split
  · exact Int.le_of_lt (Int.lt_succ _)
  · exact Int.le_refl _

theorem foldl_advance_behind {origin position : Position} (proper : 1 ≤ position.line)
    (text : Text) :
    text.foldl advance (origin.behind position) = origin.behind (text.foldl advance position) := by
  induction text generalizing position with
  | nil => rfl
  | cons unit text ih =>
      rw [List.foldl_cons, List.foldl_cons, advance_behind proper]
      exact ih (Int.le_trans proper (line_le_advance position unit))

end Position

/-- The position behind a text that begins at the first column of the first
line. -/
def Text.endPosition (text : Text) : Position :=
  text.foldl Position.advance ⟨1, 1⟩

theorem Text.endPosition_append (first second : Text) :
    (first ++ second).endPosition = first.endPosition.behind second.endPosition := by
  have moved : second.foldl Position.advance (first.endPosition.behind ⟨1, 1⟩) =
      first.endPosition.behind second.endPosition :=
    Position.foldl_advance_behind (Int.le_refl 1) second
  rw [Position.behind_start] at moved
  rw [endPosition, List.foldl_append]
  exact moved

/-! ## The starts of lines -/

theorem lineStartsFrom_append (offset : Nat) (starts : Array Nat) (first second : Text) :
    lineStartsFrom offset starts (first ++ second) =
      lineStartsFrom (offset + first.length) (lineStartsFrom offset starts first) second := by
  induction first generalizing offset starts with
  | nil => rfl
  | cons unit first ih =>
      have start : offset + (unit :: first).length = offset + 1 + first.length := by
        simp only [List.length_cons]
        omega
      rw [List.cons_append, lineStartsFrom, lineStartsFrom, start]
      exact ih _ _

/-- The starts that a text adds lie behind its own start, and not behind its
end. -/
theorem lineStartsFrom_toList (offset : Nat) (starts : Array Nat) (text : Text) :
    ∃ added, (lineStartsFrom offset starts text).toList = starts.toList ++ added ∧
      ∀ start ∈ added, offset < start ∧ start ≤ offset + text.length := by
  induction text generalizing offset starts with
  | nil => exact ⟨[], by simp [lineStartsFrom]⟩
  | cons unit text ih =>
      have widen : ∀ start, offset + 1 < start ∧ start ≤ offset + 1 + text.length →
          offset < start ∧ start ≤ offset + (unit :: text).length := by
        intro start both
        simp only [List.length_cons]
        omega
      rw [lineStartsFrom]
      by_cases feed : unit = 0x0A
      · obtain ⟨added, addedEq, within⟩ := ih (offset + 1) (starts.push (offset + 1))
        refine ⟨(offset + 1) :: added, by simp [addedEq, feed], ?_⟩
        rw [List.forall_mem_cons]
        refine ⟨?_, fun start member => widen start (within start member)⟩
        simp only [List.length_cons]
        omega
      · obtain ⟨added, addedEq, within⟩ := ih (offset + 1) starts
        refine ⟨added, by simp [addedEq, feed], ?_⟩
        exact fun start member => widen start (within start member)

namespace LineIndex

/-- The position of an offset on the last line. -/
def onLastLine (index : LineIndex) (offset : Int) : Position :=
  ⟨index.starts.size, offset - index.startOf (index.starts.size - 1) + 1⟩

/-- Passing over a text one stays on the last line that began in it. -/
theorem foldl_advance_onLastLine (offset : Nat) (starts : Array Nat) (text : Text) :
    text.foldl Position.advance (onLastLine ⟨starts⟩ offset) =
      onLastLine ⟨lineStartsFrom offset starts text⟩ (offset + text.length) := by
  induction text generalizing offset starts with
  | nil => simp [lineStartsFrom]
  | cons unit text ih =>
      have step : (onLastLine ⟨starts⟩ offset).advance unit =
          onLastLine ⟨if unit = 0x0A then starts.push (offset + 1) else starts⟩
            (offset + 1 : Nat) := by
        unfold Position.advance
        by_cases feed : unit = 0x0A
        · simp [feed, onLastLine, startOf]
        · simp only [feed, if_false, onLastLine, Position.mk.injEq, true_and]
          omega
      rw [List.foldl_cons, step, ih, lineStartsFrom]
      congr 1
      simp only [List.length_cons]
      omega

theorem endPosition_eq (text : Text) :
    text.endPosition = (ofText text).onLastLine text.length := by
  have counted := foldl_advance_onLastLine 0 #[0] text
  simpa [Text.endPosition, onLastLine, startOf, ofText] using counted

/-! ## The search -/

/-- The line that is found begins at or before the offset, and the next line,
if there is one, behind it. -/
theorem search_spec {index : LineIndex} {offset : Int} {low high : Nat} (proper : low ≤ high)
    (begun : index.startOf low ≤ offset)
    (ahead : high + 1 < index.starts.size → offset < index.startOf (high + 1)) :
    index.search offset low high ≤ high ∧
      index.startOf (index.search offset low high) ≤ offset ∧
      (index.search offset low high + 1 < index.starts.size →
        offset < index.startOf (index.search offset low high + 1)) := by
  fun_induction search index offset low high with
  | case1 low high more middle reached ih =>
      exact ih (by omega) reached ahead
  | case2 low high more middle missed ih =>
      have before : middle - 1 + 1 = middle := by omega
      have found := ih (by omega) begun (by rw [before]; omega)
      exact ⟨by omega, found.2⟩
  | case3 low high done =>
      obtain rfl : low = high := by omega
      exact ⟨Nat.le_refl low, begun, ahead⟩

theorem startOf_eq (index : LineIndex) (line : Nat) :
    index.startOf line = index.starts.toList[line]?.getD 0 := by
  simp [startOf, Array.getD_eq_getD_getElem?]

/-- Before an offset the starts are those of the text before it. -/
theorem ofText_take (text : Text) (offset : Nat) :
    ∃ later, (ofText text).starts.toList =
        (ofText (text.take offset)).starts.toList ++ later ∧
      (∀ start ∈ (ofText (text.take offset)).starts.toList, start ≤ offset) ∧
      ∀ start ∈ later, offset < start := by
  obtain ⟨added, addedEq, addedWithin⟩ := lineStartsFrom_toList 0 #[0] (text.take offset)
  obtain ⟨later, laterEq, laterWithin⟩ :=
    lineStartsFrom_toList (text.take offset).length (ofText (text.take offset)).starts
      (text.drop offset)
  refine ⟨later, ?_, ?_, ?_⟩
  · have parts := lineStartsFrom_append 0 #[0] (text.take offset) (text.drop offset)
    rw [List.take_append_drop, Nat.zero_add] at parts
    rw [ofText, parts]
    exact laterEq
  · intro start member
    rw [ofText, addedEq] at member
    rcases List.mem_append.mp member with first | more
    · obtain rfl : start = 0 := by simpa using first
      exact Nat.zero_le offset
    · have both := addedWithin start more
      rw [List.length_take] at both
      omega
  · intro start member
    have both := laterWithin start member
    rw [List.length_take, List.length_drop] at both
    omega

/-- An offset is on the line on which the text before it ends. -/
theorem locate_eq_onLastLine (text : Text) (offset : Nat) :
    (ofText text).locate offset = (ofText (text.take offset)).onLastLine offset := by
  obtain ⟨later, startsEq, before, behind⟩ := ofText_take text offset
  obtain ⟨more, passedEq, -⟩ := lineStartsFrom_toList 0 #[0] (text.take offset)
  change (ofText (text.take offset)).starts.toList = [0] ++ more at passedEq
  generalize ofText (text.take offset) = passed at startsEq before passedEq ⊢
  generalize ofText text = index at startsEq ⊢
  have positive : 0 < passed.starts.size := by simp [← Array.length_toList, passedEq]
  have sizeEq : index.starts.size = passed.starts.size + later.length := by
    simp [← Array.length_toList, startsEq]
  have passedStart : ∀ line < passed.starts.size, index.startOf line = passed.startOf line := by
    intro line within
    rw [startOf_eq, startOf_eq, startsEq, List.getElem?_append_left (by simpa using within)]
  have begun : index.startOf 0 ≤ (offset : Int) := by
    rw [passedStart 0 positive, startOf_eq, passedEq]
    exact Int.natCast_nonneg offset
  have found := @search_spec index offset 0 (index.starts.size - 1) (Nat.zero_le _) begun
    (by omega)
  rw [locate]
  generalize index.search offset 0 (index.starts.size - 1) = line at found ⊢
  obtain ⟨atMost, reached, ahead⟩ := found
  have notBeyond : ¬ passed.starts.size ≤ line := by
    intro beyond
    have isLater : line - passed.starts.size < later.length := by omega
    have start : index.startOf line = later[line - passed.starts.size] := by
      rw [startOf_eq, startsEq, List.getElem?_append_right (by simpa using beyond)]
      simp [isLater]
    have behindOffset := behind _ (List.getElem_mem isLater)
    omega
  have notBefore : ¬ line + 1 < passed.starts.size := by
    intro within
    have start : index.startOf (line + 1) = passed.starts.toList[line + 1] := by
      rw [passedStart _ within, startOf_eq]
      simp [within]
    have atOffset := before _ (List.getElem_mem (by simpa using within))
    have behindOffset := ahead (by omega)
    omega
  obtain rfl : line = passed.starts.size - 1 := by omega
  rw [onLastLine, passedStart _ (by omega)]
  simp only [Position.mk.injEq, and_true]
  omega

/-- Within a text a position is found by counting up to it. -/
theorem locate_eq_endPosition {text : Text} {offset : Nat} (within : offset ≤ text.length) :
    (ofText text).locate offset = Text.endPosition (text.take offset) := by
  rw [locate_eq_onLastLine, endPosition_eq, List.length_take, Nat.min_eq_left within]

end LineIndex

end Directive
