import Directive.Call.Grammar

/-!
# What a cursor passes over

A reader that succeeds moves its cursor over a text, and `Cursor.Follows` says
over which.  The lemmas below go both ways for the elementary readers: from the
reading to the text that was passed, and from a text that stands at the cursor
to the reading.  A run ends where it does because of the unit behind it, so the
second direction needs to know what the next cursor faces.
-/

namespace Directive

namespace Cursor

/-- The unit at the cursor, if one remains, is of a kind. -/
def Faces (kind : CodeUnit → Prop) (cursor : Cursor) : Prop :=
  ∀ unit ∈ cursor.rest.head?, kind unit

theorem Faces.mono {kind wider : CodeUnit → Prop} {cursor : Cursor}
    (faces : cursor.Faces kind) (within : ∀ unit, kind unit → wider unit) :
    cursor.Faces wider := by
  intro unit stands
  exact within unit (faces unit stands)

namespace Follows

variable {cursor next : Cursor} {passed : Text}

theorem refl (cursor : Cursor) : cursor.Follows cursor [] :=
  ⟨rfl, rfl⟩

theorem unique {other : Cursor} (follows : next.Follows cursor passed)
    (otherFollows : other.Follows cursor passed) : other = next := by
  obtain ⟨restEq, offsetEq⟩ := follows
  obtain ⟨otherRestEq, otherOffsetEq⟩ := otherFollows
  have sameRest : other.rest = next.rest :=
    List.append_cancel_left (otherRestEq.symm.trans restEq)
  have sameOffset : other.offset = next.offset := otherOffsetEq.trans offsetEq.symm
  cases other
  cases next
  simp_all

/-- A text that was passed in one go could have been passed in two. -/
theorem split {before after : Text} (follows : next.Follows cursor (before ++ after)) :
    ∃ middle : Cursor, middle.Follows cursor before ∧ next.Follows middle after := by
  obtain ⟨restEq, offsetEq⟩ := follows
  refine ⟨⟨cursor.offset + before.length, after ++ next.rest⟩, ⟨?_, rfl⟩, rfl, ?_⟩
  · rw [restEq, List.append_assoc]
  · rw [offsetEq, List.length_append, Nat.add_assoc]

theorem split_cons {unit : CodeUnit} (follows : next.Follows cursor (unit :: passed)) :
    ∃ middle : Cursor, middle.Follows cursor [unit] ∧ next.Follows middle passed := by
  have pieces : next.Follows cursor ([unit] ++ passed) := follows
  exact pieces.split

theorem peek? {unit : CodeUnit} (follows : next.Follows cursor (unit :: passed)) :
    cursor.peek? = some unit := by
  simp [Cursor.peek?, follows.1]

theorem faces {kind : CodeUnit → Prop} {unit : CodeUnit}
    (follows : next.Follows cursor (unit :: passed)) (fits : kind unit) : cursor.Faces kind := by
  intro other stands
  have same : unit = other := by simpa [follows.1] using stands
  exact same ▸ fits

theorem faces_spacing {kind : CodeUnit → Prop} {spacing : Text} {unit : CodeUnit}
    (follows : next.Follows cursor (spacing ++ unit :: passed)) (blank : Spacing spacing)
    (spacingFits : ∀ unit, CodeUnit.isSpacing unit → kind unit) (fits : kind unit) :
    cursor.Faces kind := by
  cases spacing with
  | nil => exact faces follows fits
  | cons first others => exact faces follows (spacingFits first (blank first (by simp)))

end Follows

theorem advance_one_follows {cursor : Cursor} {unit : CodeUnit}
    (peeked : cursor.peek? = some unit) : (cursor.advance 1).Follows cursor [unit] := by
  cases restEq : cursor.rest with
  | nil => simp [peek?, restEq] at peeked
  | cons head rest =>
      have same : head = unit := by simpa [peek?, restEq] using peeked
      simp [Follows, advance, restEq, same]

theorem atEnd_eq_false {cursor : Cursor} {unit : CodeUnit} (peeked : cursor.peek? = some unit) :
    cursor.atEnd = false := by
  cases restEq : cursor.rest with
  | nil => simp [peek?, restEq] at peeked
  | cons head rest => simp [atEnd, restEq]

theorem atEnd_eq_true {cursor : Cursor} (peeked : cursor.peek? = none) : cursor.atEnd = true := by
  simpa [peek?, atEnd] using peeked

/-! ## Runs -/

theorem takeWhile_belongs (belongs : CodeUnit → Bool) (cursor : Cursor) :
    ∀ unit ∈ (cursor.takeWhile belongs).1, belongs unit := by
  intro unit member
  exact List.all_eq_true.mp List.all_takeWhile unit member

theorem takeWhile_stops (belongs : CodeUnit → Bool) (cursor : Cursor) :
    (cursor.takeWhile belongs).2.Faces fun unit => belongs unit = false := by
  intro unit stands
  have stops := List.head?_dropWhile_not belongs cursor.rest
  have same : (cursor.rest.dropWhile belongs).head? = some unit := stands
  simpa [same] using stops

theorem takeWhile_spec {belongs : CodeUnit → Bool} {cursor next : Cursor} {run : Text}
    (taken : cursor.takeWhile belongs = (run, next)) :
    next.Follows cursor run ∧ (∀ unit ∈ run, belongs unit) ∧
      next.Faces fun unit => belongs unit = false := by
  have follows := takeWhile_follows belongs cursor
  have belong := takeWhile_belongs belongs cursor
  have stops := takeWhile_stops belongs cursor
  rw [taken] at follows belong stops
  exact ⟨follows, belong, stops⟩

theorem takeWhile_eq_cons {belongs : CodeUnit → Bool} {cursor : Cursor} {unit : CodeUnit}
    (peeked : cursor.peek? = some unit) (belong : belongs unit) :
    ∃ others, (cursor.takeWhile belongs).1 = unit :: others := by
  cases restEq : cursor.rest with
  | nil => simp [peek?, restEq] at peeked
  | cons head rest =>
      have same : head = unit := by simpa [peek?, restEq] using peeked
      subst same
      exact ⟨rest.takeWhile belongs, by simp [takeWhile, restEq, belong]⟩

/-- A run that begins with units of its class goes on behind them. -/
theorem takeWhile_eq_append {belongs : CodeUnit → Bool} {cursor middle : Cursor} {run : Text}
    (follows : middle.Follows cursor run) (belong : ∀ unit ∈ run, belongs unit) :
    cursor.takeWhile belongs =
      (run ++ (middle.takeWhile belongs).1, (middle.takeWhile belongs).2) := by
  obtain ⟨restEq, offsetEq⟩ := follows
  simp [takeWhile, restEq, offsetEq, List.takeWhile_append_of_pos belong,
    List.dropWhile_append_of_pos belong, Nat.add_assoc]

theorem takeWhile_eq_nil {belongs : CodeUnit → Bool} {cursor : Cursor}
    (stops : cursor.Faces fun unit => belongs unit = false) :
    cursor.takeWhile belongs = ([], cursor) := by
  obtain ⟨offset, rest⟩ := cursor
  cases rest with
  | nil => rfl
  | cons unit rest => simp [takeWhile, stops unit rfl]

theorem takeWhile_eq {belongs : CodeUnit → Bool} {cursor next : Cursor} {run : Text}
    (follows : next.Follows cursor run) (belong : ∀ unit ∈ run, belongs unit)
    (stops : next.Faces fun unit => belongs unit = false) :
    cursor.takeWhile belongs = (run, next) := by
  simp [takeWhile_eq_append follows belong, takeWhile_eq_nil stops]

theorem skipSpacing_follows (cursor : Cursor) :
    ∃ spacing, Spacing spacing ∧ cursor.skipSpacing.Follows cursor spacing :=
  ⟨_, takeWhile_belongs CodeUnit.isSpacing cursor, takeWhile_follows CodeUnit.isSpacing cursor⟩

theorem skipSpacing_eq {cursor next : Cursor} {spacing : Text}
    (follows : next.Follows cursor spacing) (blank : Spacing spacing)
    (stops : next.Faces fun unit => CodeUnit.isSpacing unit = false) :
    cursor.skipSpacing = next := by
  rw [skipSpacing, takeWhile_eq follows blank stops]

/-! ## Fixed texts -/

theorem eat?_eq_some {cursor next : Cursor} {text : Text} (follows : next.Follows cursor text) :
    cursor.eat? text = some next :=
  eat?_eq_some_iff.mpr follows

/-- A fixed text is not eaten where another unit stands than its first. -/
theorem eat?_eq_none {cursor : Cursor} {first : CodeUnit} {others : Text}
    (other : cursor.Faces (· ≠ first)) : cursor.eat? (first :: others) = none := by
  cases eaten : cursor.eat? (first :: others) with
  | none => rfl
  | some next =>
      have follows := eat?_eq_some_iff.mp eaten
      exact absurd rfl (other first (by simp [follows.1]))

/-! ## From the text at a cursor to the reading -/

namespace Follows

variable {cursor next : Cursor} {unit : CodeUnit} {tail : Text}

theorem skipSpacing {spacing : Text} (follows : next.Follows cursor (spacing ++ unit :: tail))
    (blank : Spacing spacing) (other : CodeUnit.isSpacing unit = false) :
    next.Follows cursor.skipSpacing (unit :: tail) := by
  obtain ⟨middle, passed, ahead⟩ := follows.split
  rw [skipSpacing_eq passed blank (ahead.faces other)]
  exact ahead

theorem skipSpacing_of_head {spacing rest : Text} (follows : next.Follows cursor (spacing ++ rest))
    (blank : Spacing spacing)
    (head : ∃ first others, rest = first :: others ∧ CodeUnit.isSpacing first = false) :
    next.Follows cursor.skipSpacing rest := by
  obtain ⟨first, others, rfl, other⟩ := head
  exact follows.skipSpacing blank other

theorem eat? {text : Text} (follows : next.Follows cursor (text ++ tail)) :
    ∃ after, cursor.eat? text = some after ∧ next.Follows after tail := by
  obtain ⟨after, passed, ahead⟩ := follows.split
  exact ⟨after, eat?_eq_some passed, ahead⟩

theorem eat?_cons (follows : next.Follows cursor (unit :: tail)) :
    ∃ after, cursor.eat? [unit] = some after ∧ next.Follows after tail := by
  obtain ⟨after, passed, ahead⟩ := follows.split_cons
  exact ⟨after, eat?_eq_some passed, ahead⟩

theorem eat?_eq_none {first : CodeUnit} {others : Text}
    (follows : next.Follows cursor (unit :: tail)) (different : unit ≠ first) :
    cursor.eat? (first :: others) = none :=
  Cursor.eat?_eq_none (follows.faces different)

end Follows

/-! ## Identifiers -/

theorem identifier?_follows {cursor next : Cursor} {name : Text}
    (found : cursor.identifier? = some (name, next)) :
    next.Follows cursor name ∧ name.isIdentifier := by
  unfold identifier? at found
  cases peeked : cursor.peek? with
  | none => simp [peeked] at found
  | some unit =>
      simp only [peeked, Option.ite_none_right_eq_some, Option.some.injEq] at found
      obtain ⟨starts, taken⟩ := found
      have follows := takeWhile_follows CodeUnit.continuesIdentifier cursor
      have belong := takeWhile_belongs CodeUnit.continuesIdentifier cursor
      have continues : CodeUnit.continuesIdentifier unit = true := by
        simp [CodeUnit.continuesIdentifier, starts]
      obtain ⟨others, runEq⟩ := takeWhile_eq_cons peeked continues
      rw [taken] at runEq follows belong
      obtain rfl : name = unit :: others := runEq
      have rest : ∀ unit ∈ others, CodeUnit.continuesIdentifier unit = true := by
        intro other member
        exact belong other (List.mem_cons_of_mem unit member)
      exact ⟨follows, by simp [Text.isIdentifier_cons, starts, List.all_eq_true.mpr rest]⟩

theorem identifier?_eq_some {cursor next : Cursor} {name : Text}
    (follows : next.Follows cursor name) (identifier : name.isIdentifier)
    (stops : next.Faces fun unit => CodeUnit.continuesIdentifier unit = false) :
    cursor.identifier? = some (name, next) := by
  cases name with
  | nil => simp [Text.isIdentifier] at identifier
  | cons first others =>
      simp only [Text.isIdentifier_cons, Bool.and_eq_true, List.all_eq_true] at identifier
      obtain ⟨starts, continues⟩ := identifier
      have belong : ∀ unit ∈ first :: others, CodeUnit.continuesIdentifier unit = true := by
        intro unit member
        rcases List.mem_cons.mp member with rfl | later
        · simp [CodeUnit.continuesIdentifier, starts]
        · exact continues unit later
      simp [identifier?, follows.peek?, starts, takeWhile_eq follows belong stops]

end Cursor

end Directive
