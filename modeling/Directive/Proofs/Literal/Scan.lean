import Directive.Proofs.Literal.Diagnosis
import Directive.Proofs.Literal.Moving
import Directive.Proofs.Literal.Nesting

/-!
# Discipline of the cursor and of the depth

A scan that fails leaves the cursor where it started, and one that succeeds moves
it on.  The depth decides only whether the literal that stands there is not too
deep.  Inside a source this is what the pure reader does; before its start, where
fixed texts are compared with the beginning, only a boolean can be read.
-/

namespace Directive

namespace Literal

/-- At this depth the literal is not nested too deeply; only arrays are nested. -/
def Fits (literal : Literal) (depth : Int) : Prop :=
  literal.nesting = 0 ∨ literal.nesting + depth ≤ maxNesting

theorem fits_iff {literal : Literal} {depth : Int} :
    literal.Fits depth ↔ literal.nesting ≤ (maxNesting - depth).toNat := by
  rw [Fits]
  omega

/-- What a scan at an offset and a depth may come to. -/
inductive Disciplined (source : Text) (start depth : Int) : Except Failure Literal × Int → Prop where
  | failed {failure : Failure} : start ≤ failure.offset → failure.offset ≤ source.length →
      Disciplined source start depth (.error failure, start)
  | read {literal : Literal} {stop : Int} : start < stop → stop ≤ source.length →
      literal.Fits depth →
      (∀ other, literal.Fits other → scan source start other = (.ok literal, stop)) →
      (∀ other, ¬ literal.Fits other →
        ∃ failure, scan source start other = (.error failure, start)) →
      Disciplined source start depth (.ok literal, stop)

namespace Mover

variable {place : FreeCursor} {source : Text} {cursor : Cursor} {room : Nat}

/-- What reading from a place within some room comes to. -/
inductive Reads (place : FreeCursor) (room : Nat) : Except Failure Literal × FreeCursor → Prop where
  | failed {failure : Failure} : place.offset ≤ failure.offset →
      failure.offset ≤ place.source.length → Reads place room (.error failure, place)
  | read {literal : Literal} {after : FreeCursor} : place.offset < after.offset →
      after.offset ≤ place.source.length → literal.nesting ≤ room →
      (∀ other, literal.nesting ≤ other → (read other).perform place = (.ok literal, after)) →
      (∀ other < literal.nesting, ∃ failure, (read other).perform place = (.error failure, place)) →
      Reads place room (.ok literal, after)

/-! ## Inside a source -/

theorem reads_free (stands : cursor.StandsIn source) (within : cursor.offset ≤ source.length)
    (room : Nat) : Reads (cursor.free source) room ((read room).perform (cursor.free source)) := by
  have remaining : cursor.offset + cursor.rest.length = source.length := by
    rw [stands, List.length_drop]
    omega
  cases outcome : Literal.read room cursor with
  | error failure =>
      have justified := diagnoses_read room outcome
      have atMost := justified.within
      rw [remaining] at atMost
      rw [perform_read stands, outcome]
      exact .failed justified.offset_le atMost
  | ok pair =>
      obtain ⟨literal, next⟩ := pair
      obtain ⟨text, ⟨restEq, offsetEq⟩, derives⟩ := truthful_read room outcome
      obtain ⟨first, others, rfl, -⟩ := derives.head
      obtain ⟨fits, everywhere⟩ := read_of_read_eq_ok outcome
      rw [restEq, List.length_append] at remaining
      rw [List.length_cons] at remaining offsetEq
      have further : cursor.offset < next.offset := by omega
      have inside : next.offset ≤ source.length := by omega
      rw [perform_read stands, outcome]
      refine .read (Int.ofNat_lt.mpr further) (Int.ofNat_le.mpr inside) fits ?_ ?_
      · intro other fitsOther
        rw [perform_read stands, (everywhere other).1 fitsOther]
      · intro other tooDeep
        obtain ⟨failure, failed⟩ := (everywhere other).2 tooDeep
        exact ⟨failure, by rw [perform_read stands, failed]⟩

/-! ## Before the start of a source -/

/-- The mover fails at the place, or at the place behind it. -/
def FailsNear (place : FreeCursor) (mover : Mover Literal) : Prop :=
  ∃ failure stop, mover.perform place = (.error failure, stop) ∧
    place.offset ≤ failure.offset ∧ failure.offset ≤ place.offset + 1

theorem failsNear_noMatch (place : FreeCursor) : FailsNear place noMatch :=
  ⟨_, place, rfl, Int.le_refl _, Int.le_add_of_nonneg_right (by decide)⟩

theorem failsNear_firstOf {movers : List (Mover Literal)}
    (near : ∀ mover ∈ movers, FailsNear place mover) : FailsNear place (firstOf movers) := by
  induction movers with
  | nil => exact failsNear_noMatch place
  | cons mover movers ih =>
      obtain ⟨first, afterFirst, firstEq, firstLower, firstUpper⟩ := near mover List.mem_cons_self
      obtain ⟨others, afterOthers, othersEq, othersLower, othersUpper⟩ :=
        ih fun mover member => near mover (List.mem_cons_of_mem _ member)
      refine ⟨first.merge others, afterOthers, ?_, ?_, ?_⟩
      · rw [perform_firstOf_cons, firstEq, othersEq]
      · exact Int.le_trans firstLower (Int.le_max_left _ _)
      · exact Int.max_le.mpr ⟨firstUpper, othersUpper⟩

theorem peek?_of_neg (before : place.offset < 0) : place.peek? = none :=
  if_pos before

/-- What is eaten before the start is what the source begins with. -/
theorem eat?_of_neg {text : Text} {after : FreeCursor} (before : place.offset < 0)
    (eaten : place.eat? text = some after) :
    after = place.advance text.length ∧ text <+: place.source := by
  obtain ⟨leads, same⟩ := Option.ite_none_right_eq_some.mp eaten
  have atStart : place.cursor.rest = place.source := by
    rw [FreeCursor.cursor, Int.toNat_of_nonpos (Int.le_of_lt before)]
    rfl
  refine ⟨(Option.some.inj same).symm, ?_⟩
  rw [← atStart]
  exact List.isPrefixOf_iff_prefix.mp leads

theorem perform_readBool_of_neg (before : place.offset < 0) :
    (∃ value after, readBool.perform place = (.ok (.bool value), after) ∧
        place.offset < after.offset ∧ after.offset ≤ place.source.length) ∨
      FailsNear place readBool := by
  have moved : ∀ {text after}, text ≠ [] → place.eat? text = some after →
      place.offset < after.offset ∧ after.offset ≤ place.source.length := by
    intro text after nonempty eaten
    obtain ⟨rfl, leads⟩ := eat?_of_neg before eaten
    have shorter := leads.length_le
    have positive := List.length_pos_iff.mpr nonempty
    simp only [FreeCursor.advance]
    omega
  cases yes : place.eat? (Text.ofString "true") with
  | some after =>
      refine .inl ⟨true, after, ?_, moved (by decide) yes⟩
      rw [readBool, perform_eat_bind, yes]
      rfl
  | none =>
      cases no : place.eat? (Text.ofString "false") with
      | some after =>
          refine .inl ⟨false, after, ?_, moved (by decide) no⟩
          rw [readBool, perform_eat_bind, yes]
          dsimp only
          rw [if_neg Bool.false_ne_true, perform_eat_bind, no]
          rfl
      | none =>
          have performed : readBool.perform place = noMatch.perform place := by
            rw [readBool, perform_eat_bind, yes]
            dsimp only
            rw [if_neg Bool.false_ne_true, perform_eat_bind, no]
            rfl
          obtain ⟨failure, stop, failed, near⟩ := failsNear_noMatch place
          exact .inr ⟨failure, stop, performed.trans failed, near⟩

theorem perform_wholeNumber_of_peek? (unread : place.peek? = none ∨ place.peek? = some 0x2D) :
    wholeNumber.perform place = (.ok false, place) := by
  rw [wholeNumber, perform_get_bind]
  rcases unread with nothing | sign
  · rw [nothing]
    rfl
  · rw [sign]
    rfl

/-- At most a minus sign is passed, and no digit stands behind it. -/
theorem perform_integerPart_of_neg (before : place.offset < 0) :
    ∃ stop, integerPart.perform place = (.ok false, stop) ∧
      place.offset ≤ stop.offset ∧ stop.offset ≤ place.offset + 1 := by
  rw [integerPart, perform_eat_bind]
  cases signed : place.eat? [0x2D] with
  | none =>
      have performed := perform_wholeNumber_of_peek? (.inl (peek?_of_neg before))
      exact ⟨place, performed, Int.le_refl _, Int.le_add_of_nonneg_right (by decide)⟩
  | some after =>
      obtain ⟨afterEq, rest, sourceEq⟩ := eat?_of_neg before signed
      have offsetEq : after.offset = place.offset + 1 := by
        rw [afterEq]
        rfl
      have unread : after.peek? = none ∨ after.peek? = some 0x2D := by
        by_cases further : after.offset < 0
        · exact .inl (peek?_of_neg further)
        · -- The start itself is reached, and the sign stands there.
          have atStart : after.offset = 0 := by omega
          refine .inr ?_
          rw [FreeCursor.peek?, if_neg further, FreeCursor.cursor, atStart, afterEq]
          simp [Cursor.ofOffset, Cursor.peek?, FreeCursor.advance, ← sourceEq]
      refine ⟨after, perform_wholeNumber_of_peek? unread, ?_, Int.le_of_eq offsetEq⟩
      omega

/-- Only a boolean can be read, and only it does not fail near. -/
theorem read_eq_firstOf_of_neg (before : place.offset < 0) (room : Nat) :
    ∃ others, read room = firstOf (readBool :: others) ∧
      ∀ mover ∈ others, FailsNear place mover := by
  have unread := peek?_of_neg before
  have string : FailsNear place readString := by
    rw [FailsNear, readString, perform_get_bind, unread]
    exact failsNear_noMatch place
  have array : ∀ item, FailsNear place (readArray item) := by
    intro item
    rw [FailsNear, readArray, perform_get_bind, unread]
    exact failsNear_noMatch place
  obtain ⟨stop, passed, lower, upper⟩ := perform_integerPart_of_neg before
  have float : FailsNear place readFloat := by
    rw [FailsNear, readFloat, perform_get_bind, perform_bind, passed]
    exact ⟨_, stop, rfl, lower, upper⟩
  have int : FailsNear place readInt := by
    rw [FailsNear, readInt, perform_get_bind, perform_bind, passed]
    exact ⟨_, stop, rfl, lower, upper⟩
  cases room with
  | zero => exact ⟨_, rfl, by simp [string, float, int, failsNear_noMatch place]⟩
  | succ room => exact ⟨_, rfl, by simp [string, float, int, array]⟩

theorem reads_of_neg (before : place.offset < 0) (room : Nat) :
    Reads place room ((read room).perform place) := by
  rcases perform_readBool_of_neg before with ⟨value, after, found, further, inside⟩ | near
  · have everywhere : ∀ room, (read room).perform place = (.ok (.bool value), after) := by
      intro room
      obtain ⟨others, readEq, -⟩ := read_eq_firstOf_of_neg before room
      rw [readEq, perform_firstOf_cons, found]
    rw [everywhere room]
    refine .read further inside (Nat.zero_le _) (fun other _ => everywhere other) ?_
    intro other tooDeep
    exact absurd tooDeep (Nat.not_lt_zero other)
  · obtain ⟨others, readEq, othersNear⟩ := read_eq_firstOf_of_neg before room
    obtain ⟨failure, stop, failed, lower, upper⟩ : FailsNear place (read room) := by
      rw [readEq]
      exact failsNear_firstOf (List.forall_mem_cons.mpr ⟨near, othersNear⟩)
    obtain rfl := stop_eq_of_read failed
    rw [failed]
    exact .failed lower (by omega)

theorem reads_of_le (place : FreeCursor) (within : place.offset ≤ place.source.length) (room : Nat) :
    Reads place room ((read room).perform place) := by
  by_cases before : place.offset < 0
  · exact reads_of_neg before room
  · obtain ⟨source, offset⟩ := place
    obtain ⟨offset, rfl⟩ := Int.eq_ofNat_of_zero_le (Int.not_lt.mp before)
    have stands : (Cursor.ofOffset source offset).StandsIn source := rfl
    exact reads_free stands (Int.ofNat_le.mp within) room

end Mover

theorem scan_eq {source : Text} {start depth : Int} {outcome : Except Failure Literal}
    {after : FreeCursor}
    (performed : (Mover.read (maxNesting - depth).toNat).perform ⟨source, start⟩ =
      (outcome, after)) : scan source start depth = (outcome, after.offset) := by
  rw [scan, performed]

/-- From the start of a source on, the scan reads what the reader reads. -/
theorem scan_ofNat (source : Text) (offset : Nat) (depth : Int) :
    scan source offset depth =
      match readAt depth (Cursor.ofOffset source offset) with
      | .ok (literal, next) => (.ok literal, next.offset)
      | .error failure => (.error failure, offset) := by
  have stands : (Cursor.ofOffset source offset).StandsIn source := rfl
  have performed := perform_read stands (maxNesting - depth).toNat
  rw [readAt]
  cases outcome : read (maxNesting - depth).toNat (Cursor.ofOffset source offset) with
  | ok pair =>
      rw [outcome] at performed
      exact scan_eq performed
  | error failure =>
      rw [outcome] at performed
      exact scan_eq performed

theorem disciplined_of_reads {source : Text} {start : Int}
    (reads : ∀ room, Mover.Reads ⟨source, start⟩ room
      ((Mover.read room).perform ⟨source, start⟩)) (depth : Int) :
    Disciplined source start depth (scan source start depth) := by
  obtain ⟨⟨outcome, after⟩, performed⟩ :
      ∃ performed, (Mover.read (maxNesting - depth).toNat).perform ⟨source, start⟩ = performed :=
    ⟨_, rfl⟩
  have here := reads (maxNesting - depth).toNat
  rw [performed] at here
  rw [scan_eq performed]
  cases here with
  | failed lower upper => exact .failed lower upper
  | read further inside fits same refused =>
      refine .read further inside (fits_iff.mpr fits) ?_ ?_
      · intro other fitsOther
        exact scan_eq (same _ (fits_iff.mp fitsOther))
      · intro other tooDeep
        obtain ⟨failure, failed⟩ := refused _ (Nat.not_le.mp (mt fits_iff.mpr tooDeep))
        exact ⟨failure, scan_eq failed⟩

/-- From every start up to the end of the source and at every depth, a scan that
fails stays where it started and tells an offset from there on, and one that
succeeds moves on within the source.  It succeeds with the same literal exactly
at the depths at which this literal fits.  From the start of the source on it
reads what the reader of the grammar reads. -/
theorem scan_disciplined (source : Text) (start depth : Int) (within : start ≤ source.length) :
    Disciplined source start depth (scan source start depth) ∧
      ∀ offset : Nat, start = offset →
        scan source start depth =
          match readAt depth (Cursor.ofOffset source offset) with
          | .ok (literal, next) => (.ok literal, next.offset)
          | .error failure => (.error failure, start) := by
  refine ⟨disciplined_of_reads (Mover.reads_of_le ⟨source, start⟩ within) depth, ?_⟩
  rintro offset rfl
  exact scan_ofNat source offset depth

/-- Two nested arrays have the greatest depth at which they fit. -/
theorem scan_nested_arrays :
    (0 : Int) ≤ (Text.ofString "[[]]").length ∧
      scan (Text.ofString "[[]]") 0 254 = (.ok (.array [.array []]), 4) ∧
      ∃ failure, scan (Text.ofString "[[]]") 0 255 = (.error failure, 0) := by
  have within : (0 : Int) ≤ (Text.ofString "[[]]").length := by decide
  obtain ⟨disciplined, -⟩ := scan_disciplined (Text.ofString "[[]]") 0 254 within
  have found : scan (Text.ofString "[[]]") 0 254 = (.ok (.array [.array []]), 4) := by rfl
  rw [found] at disciplined
  refine ⟨within, found, ?_⟩
  cases disciplined with
  | read _ _ _ _ refused => exact refused 255 (by simp [Fits, nesting, nestingList, maxNesting])

end Literal

end Directive
