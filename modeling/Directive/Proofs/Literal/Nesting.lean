import Directive.Proofs.Literal.Completeness
import Directive.Proofs.Literal.Format

/-!
# Room for nested arrays

How deeply arrays may still be nested decides whether a literal is read, and not
which one.  What is read within some room is read within every room that holds
it, and nothing is read in its place where it does not fit.
-/

namespace Directive

namespace Literal

/-- The alternatives that do not depend on the room for arrays. -/
def simpleReaders : List (Reader Literal) :=
  [readBool, readString, readFloat, readInt]

/-- What one reader reads another reads too, if it fits into the room. -/
def ReadsWithin (room : Nat) (reader other : Reader Literal) : Prop :=
  ∀ {cursor next : Cursor} {literal : Literal}, reader cursor = .ok (literal, next) →
    literal.nesting ≤ room → other cursor = .ok (literal, next)

variable {room : Nat} {cursor next : Cursor} {literal : Literal} {result : Literal × Cursor}
  {item other : Reader Literal}

/-! ## Ordered choice -/

theorem fails_iff {α : Type} {reader : Reader α} :
    Fails reader cursor ↔ ∀ result, reader cursor ≠ .ok result := by
  cases outcome : reader cursor with
  | ok result => simp [Fails, outcome]
  | error failure => simp [Fails, outcome]

theorem firstOf_append_eq_ok_iff {α : Type} {readers others : List (Reader α)}
    {result : α × Cursor} :
    firstOf (readers ++ others) cursor = .ok result ↔
      firstOf readers cursor = .ok result ∨
        Fails (firstOf readers) cursor ∧ firstOf others cursor = .ok result := by
  induction readers with
  | nil =>
      constructor
      · intro found
        exact .inr ⟨⟨_, rfl⟩, found⟩
      · rintro (impossible | ⟨-, found⟩)
        · cases impossible
        · exact found
  | cons reader readers ih =>
      cases first : reader cursor with
      | ok pair =>
          have whole : firstOf (reader :: readers) cursor = .ok pair :=
            firstOf_eq_ok_of_first first
          rw [List.cons_append, firstOf_eq_ok_of_first first, whole]
          constructor
          · exact Or.inl
          · rintro (same | ⟨⟨failure, impossible⟩, -⟩)
            · exact same
            · rw [whole] at impossible
              cases impossible
      | error failure =>
          have behind : ∀ more, firstOf (reader :: more) cursor =
              (firstOf more cursor).mapError failure.merge := by
            intro more
            simp only [firstOf, first]
          have fails : Fails (firstOf (reader :: readers)) cursor ↔
              Fails (firstOf readers) cursor := by
            simp only [fails_iff, behind, ne_eq, mapError_eq_ok_iff]
          rw [List.cons_append, behind, behind, mapError_eq_ok_iff, mapError_eq_ok_iff, fails, ih]

theorem read_succ_eq_ok_iff : read (room + 1) cursor = .ok result ↔
    firstOf simpleReaders cursor = .ok result ∨
      Fails (firstOf simpleReaders) cursor ∧ readArray (read room) cursor = .ok result := by
  have single : firstOf [readArray (read room)] cursor = .ok result ↔
      readArray (read room) cursor = .ok result := by
    rw [firstOf]
    cases readArray (read room) cursor with
    | ok pair => exact Iff.rfl
    | error failure => simp only [mapError_eq_ok_iff, firstOf, reduceCtorEq]
  have choice : read (room + 1) = firstOf (simpleReaders ++ [readArray (read room)]) := rfl
  rw [choice, firstOf_append_eq_ok_iff, single]

theorem read_eq_ok_of_simple (room : Nat) (found : firstOf simpleReaders cursor = .ok result) :
    read room cursor = .ok result := by
  cases room with
  | zero => exact found
  | succ room => exact read_succ_eq_ok_iff.mpr (.inl found)

/-! ## Arrays -/

theorem readItems_of_nestingList_le (within : ReadsWithin room item other) {bound : Text}
    {items : List Literal} (found : readItems item bound cursor = .ok (items, next))
    (fits : nestingList items ≤ room) : readItems other bound cursor = .ok (items, next) := by
  induction bound generalizing cursor next items with
  | nil => cases found
  | cons unit bound ih =>
      cases itemEq : item cursor with
      | error failure => simp [readItems, itemEq] at found
      | ok pair =>
          obtain ⟨literal, afterItem⟩ := pair
          -- The first item is the one that was read, whatever stands behind it.
          have otherEq : literal.nesting ≤ room → other cursor = .ok (literal, afterItem) :=
            within itemEq
          cases closed : afterItem.skipSpacing.eat? [0x5D] with
          | some after =>
              simp only [readItems, itemEq, closed, Except.ok.injEq, Prod.mk.injEq] at found
              obtain ⟨rfl, rfl⟩ := found
              simp [readItems, otherEq (by simpa [nestingList] using fits), closed]
          | none =>
              cases comma : afterItem.skipSpacing.eat? [0x2C] with
              | none => simp [readItems, itemEq, closed, comma] at found
              | some afterComma =>
                  cases trailing : afterComma.skipSpacing.eat? [0x5D] with
                  | some after =>
                      simp only [readItems, itemEq, closed, comma, trailing, Except.ok.injEq,
                        Prod.mk.injEq] at found
                      obtain ⟨rfl, rfl⟩ := found
                      simp [readItems, otherEq (by simpa [nestingList] using fits), closed,
                        comma, trailing]
                  | none =>
                      cases others : readItems item bound afterComma.skipSpacing with
                      | error failure =>
                          simp [readItems, itemEq, closed, comma, trailing, others] at found
                      | ok pair =>
                          obtain ⟨literals, after⟩ := pair
                          simp only [readItems, itemEq, closed, comma, trailing, others,
                            Except.ok.injEq, Prod.mk.injEq] at found
                          obtain ⟨rfl, rfl⟩ := found
                          obtain ⟨here, later⟩ := Nat.max_le.mp fits
                          simp [readItems, otherEq here, closed, comma, trailing, ih others later]

/-- An array takes room of its own besides the room of its items. -/
theorem readArray_of_nesting_le (within : ReadsWithin room item other)
    (found : readArray item cursor = .ok (literal, next)) :
    0 < literal.nesting ∧
      (literal.nesting ≤ room + 1 → readArray other cursor = .ok (literal, next)) := by
  cases opened : cursor.eat? [0x5B] with
  | none => simp [readArray, opened] at found
  | some inside =>
      cases closed : inside.skipSpacing.eat? [0x5D] with
      | some after =>
          simp only [readArray, opened, closed, Except.ok.injEq, Prod.mk.injEq] at found
          obtain ⟨rfl, rfl⟩ := found
          refine ⟨Nat.succ_pos _, ?_⟩
          intro _
          simp [readArray, opened, closed]
      | none =>
          cases itemsEq : readItems item inside.skipSpacing.rest inside.skipSpacing with
          | error failure => simp [readArray, opened, closed, itemsEq] at found
          | ok pair =>
              obtain ⟨items, after⟩ := pair
              simp only [readArray, opened, closed, itemsEq, Except.ok.injEq,
                Prod.mk.injEq] at found
              obtain ⟨rfl, rfl⟩ := found
              refine ⟨Nat.succ_pos _, ?_⟩
              intro fits
              have othersEq :=
                readItems_of_nestingList_le within itemsEq (Nat.le_of_succ_le_succ fits)
              simp [readArray, opened, closed, othersEq]

/-! ## Literals -/

theorem readsWithin_read (room otherRoom : Nat) :
    ReadsWithin otherRoom (read room) (read otherRoom) := by
  induction room generalizing otherRoom with
  | zero =>
      intro cursor next literal found _
      exact read_eq_ok_of_simple otherRoom found
  | succ room ih =>
      intro cursor next literal found fits
      rcases read_succ_eq_ok_iff.mp found with simple | ⟨fails, array⟩
      · exact read_eq_ok_of_simple otherRoom simple
      · cases otherRoom with
        | zero =>
            obtain ⟨positive, -⟩ := readArray_of_nesting_le (ih 0) array
            omega
        | succ otherRoom =>
            obtain ⟨-, sameArray⟩ := readArray_of_nesting_le (ih otherRoom) array
            exact read_succ_eq_ok_iff.mpr (.inr ⟨fails, sameArray fits⟩)

/-- What is read within some room is read exactly within the rooms that hold it,
and within the others nothing is. -/
theorem read_of_read_eq_ok (found : read room cursor = .ok (literal, next)) :
    literal.nesting ≤ room ∧
      ∀ otherRoom, (literal.nesting ≤ otherRoom → read otherRoom cursor = .ok (literal, next)) ∧
        (otherRoom < literal.nesting → Fails (read otherRoom) cursor) := by
  obtain ⟨text, -, derives⟩ := truthful_read room found
  have fits := derives.nesting_le
  refine ⟨fits, ?_⟩
  intro otherRoom
  refine ⟨readsWithin_read room otherRoom found, ?_⟩
  intro tooDeep
  cases otherFound : read otherRoom cursor with
  | error failure => exact ⟨failure, otherFound⟩
  | ok pair =>
      -- Otherwise this literal, which is less deep, would have been read before.
      obtain ⟨shallow, after⟩ := pair
      obtain ⟨otherText, -, otherDerives⟩ := truthful_read otherRoom otherFound
      have shallowFits := otherDerives.nesting_le
      have again := readsWithin_read otherRoom room otherFound (by omega)
      rw [found] at again
      cases again
      omega

end Literal

end Directive
