import Mathlib.Data.List.Sort
import Directive.Proofs.Text.Occurrences

/-!
# Occurrences from left to right

A needle may occur at places where its occurrences overlap.  Reading from left
to right takes the first of them and goes on behind it.  The places that are
taken this way are described without a search, and there is one such list of
places for every text: the places at which the pieces of the split text meet.
-/

namespace Directive.Text

/-- Places at which a needle occurs without overlap, so that every occurrence is
reached by one of them that does not begin behind it. -/
structure Leftmost (needle text : Text) (places : List Nat) : Prop where
  occurs : ∀ place ∈ places, startsWith (text.drop place) needle
  apart : places.Pairwise fun place next => place + needle.length ≤ next
  reached : ∀ place, startsWith (text.drop place) needle →
    ∃ found ∈ places, found ≤ place ∧ place < found + needle.length

/-- The places of the separators in a joined text that itself begins at an
offset. -/
def joints (width offset : Nat) : List Text → List Nat
  | [] | [_] => []
  | piece :: next :: pieces =>
      (offset + piece.length) ::
        joints width (offset + piece.length + width) (next :: pieces)

variable {needle text before after piece : Text} {places others : List Nat}
  {pieces : List Text}

/-! ## One list of places -/

namespace Leftmost

theorem sorted (proper : needle ≠ []) (leftmost : Leftmost needle text places) :
    places.SortedLT := by
  have positive := List.length_pos_of_ne_nil proper
  refine (leftmost.apart.imp ?_).sortedLT
  intro place next apart
  omega

theorem add_length_le (leftmost : Leftmost needle text places) {place next : Nat}
    (isPlace : place ∈ places) (isNext : next ∈ places) (before : place < next) :
    place + needle.length ≤ next := by
  have apart := leftmost.apart
  clear leftmost
  induction places with
  | nil => cases isPlace
  | cons head places ih =>
      obtain ⟨first, later⟩ := List.pairwise_cons.mp apart
      rcases List.mem_cons.mp isPlace with rfl | placeLater
      · rcases List.mem_cons.mp isNext with rfl | nextLater
        · exact absurd before (Nat.lt_irrefl _)
        · exact first next nextLater
      · rcases List.mem_cons.mp isNext with rfl | nextLater
        · have behind := first place placeLater
          omega
        · exact ih placeLater nextLater later

/-- A place of one list belongs to the other, if the earlier places of the other
belong to the first: the place that reaches it there can only be itself. -/
theorem mem_of_mem (leftmost : Leftmost needle text places)
    (other : Leftmost needle text others) {place : Nat} (isPlace : place ∈ places)
    (shared : ∀ earlier < place, earlier ∈ others → earlier ∈ places) : place ∈ others := by
  obtain ⟨found, isFound, atMost, within⟩ := other.reached place (leftmost.occurs place isPlace)
  rcases Nat.eq_or_lt_of_le atMost with rfl | earlier
  · exact isFound
  · have apart := leftmost.add_length_le (shared found earlier isFound) isPlace earlier
    exact absurd within (Nat.not_lt.mpr apart)

/-- A text has one list of places that are found from left to right. -/
theorem unique (proper : needle ≠ []) (leftmost : Leftmost needle text places)
    (other : Leftmost needle text others) : places = others := by
  refine (leftmost.sorted proper).eq_of_mem_iff (other.sorted proper) ?_
  intro place
  induction place using Nat.strong_induction_on with
  | _ place ih =>
      constructor
      · intro isPlace
        exact leftmost.mem_of_mem other isPlace fun earlier before => (ih earlier before).mpr
      · intro isPlace
        exact other.mem_of_mem leftmost isPlace fun earlier before => (ih earlier before).mp

end Leftmost

/-! ## Reading on behind an occurrence -/

theorem leftmost_nil_iff :
    Leftmost needle text [] ↔ ∀ place, startsWith (text.drop place) needle = false := by
  constructor
  · intro leftmost place
    apply Bool.eq_false_iff.mpr
    intro occurs
    obtain ⟨found, isFound, -⟩ := leftmost.reached place occurs
    cases isFound
  · intro absent
    refine ⟨by simp, .nil, ?_⟩
    intro place occurs
    simp [absent place] at occurs

theorem drop_behind (place : Nat) :
    (before ++ (needle ++ after)).drop (before.length + needle.length + place) =
      after.drop place := by
  rw [← List.append_assoc, ← List.length_append, List.drop_length_add_append]

namespace Leftmost

/-- Behind the first place, the others are found in the text that is left. -/
theorem behind
    (leftmost : Leftmost needle (before ++ (needle ++ after))
      (before.length :: places.map (before.length + needle.length + ·))) :
    Leftmost needle after places := by
  obtain ⟨-, apart⟩ := List.pairwise_cons.mp leftmost.apart
  refine ⟨?_, ?_, ?_⟩
  · intro place isPlace
    rw [← drop_behind]
    exact leftmost.occurs _ (List.mem_cons_of_mem _ (List.mem_map_of_mem isPlace))
  · refine (List.pairwise_map.mp apart).imp ?_
    intro place next further
    omega
  · intro place occurs
    rw [← @drop_behind needle before after] at occurs
    obtain ⟨found, isFound, atMost, within⟩ := leftmost.reached _ occurs
    rcases List.mem_cons.mp isFound with rfl | later
    · omega
    · obtain ⟨behind, isBehind, rfl⟩ := List.mem_map.mp later
      exact ⟨behind, isBehind, by omega, by omega⟩

/-- The needle does not occur before the first place. -/
theorem absent_before {place first : Nat} (leftmost : Leftmost needle text (first :: places))
    (further : ∀ next ∈ places, first ≤ next) (early : place < first) :
    startsWith (text.drop place) needle = false := by
  apply Bool.eq_false_iff.mpr
  intro occurs
  obtain ⟨found, isFound, atMost, -⟩ := leftmost.reached place occurs
  rcases List.mem_cons.mp isFound with rfl | later
  · omega
  · have ordered := further found later
    omega

/-- The first occurrence comes in front of the places that are found behind it. -/
theorem cons
    (first : ∀ place < before.length,
      startsWith ((before ++ (needle ++ after)).drop place) needle = false)
    (leftmost : Leftmost needle after places) :
    Leftmost needle (before ++ (needle ++ after))
      (before.length :: places.map (before.length + needle.length + ·)) := by
  refine ⟨?_, List.pairwise_cons.mpr ⟨?_, List.pairwise_map.mpr (leftmost.apart.imp ?_)⟩, ?_⟩
  · rw [List.forall_mem_cons, List.drop_left]
    refine ⟨startsWith_eq_true_iff.mpr ⟨after, rfl⟩, ?_⟩
    intro place isPlace
    obtain ⟨behind, isBehind, rfl⟩ := List.mem_map.mp isPlace
    rw [drop_behind]
    exact leftmost.occurs behind isBehind
  · intro place isPlace
    obtain ⟨behind, -, rfl⟩ := List.mem_map.mp isPlace
    omega
  · intro place next further
    omega
  · intro place occurs
    -- before the first place nothing occurs, within its occurrence it reaches
    by_cases early : place < before.length
    · simp [first place early] at occurs
    · by_cases within : place < before.length + needle.length
      · exact ⟨before.length, List.mem_cons_self, by omega, within⟩
      · obtain ⟨behind, rfl⟩ := Nat.exists_eq_add_of_le (Nat.le_of_not_lt within)
        rw [drop_behind] at occurs
        obtain ⟨found, isFound, atMost, reaches⟩ := leftmost.reached behind occurs
        exact ⟨before.length + needle.length + found,
          List.mem_cons_of_mem _ (List.mem_map_of_mem isFound), by omega, by omega⟩

end Leftmost

/-- The first place is that of the first occurrence, and the others are found in
the text behind it. -/
theorem leftmost_cons_iff :
    Leftmost needle (before ++ (needle ++ after))
        (before.length :: places.map (before.length + needle.length + ·)) ↔
      (∀ place < before.length,
        startsWith ((before ++ (needle ++ after)).drop place) needle = false) ∧
        Leftmost needle after places := by
  constructor
  · intro leftmost
    refine ⟨fun place early => leftmost.absent_before ?_ early, leftmost.behind⟩
    intro next later
    obtain ⟨behind, -, rfl⟩ := List.mem_map.mp later
    omega
  · intro both
    exact .cons both.1 both.2

/-! ## The pieces of a text -/

theorem joints_cons {width offset : Nat} (more : pieces ≠ []) :
    joints width offset (piece :: pieces) =
      (offset + piece.length) :: joints width (offset + piece.length + width) pieces := by
  cases pieces with
  | nil => contradiction
  | cons next pieces => rfl

theorem joints_add (width shift offset : Nat) (pieces : List Text) :
    joints width (shift + offset) pieces = (joints width offset pieces).map (shift + ·) := by
  fun_induction joints width offset pieces with
  | case1 => rfl
  | case2 => rfl
  | case3 offset piece next pieces ih =>
      have behind : shift + offset + piece.length + width =
          shift + (offset + piece.length + width) := by omega
      rw [joints, behind, ih, List.map_cons, Nat.add_assoc]

theorem joints_zero_cons {width : Nat} (more : pieces ≠ []) :
    joints width 0 (piece :: pieces) =
      piece.length :: (joints width 0 pieces).map (piece.length + width + ·) := by
  rw [joints_cons more, Nat.zero_add, ← joints_add, Nat.add_zero]

theorem length_joints (width offset : Nat) (pieces : List Text) :
    (joints width offset pieces).length = pieces.length - 1 := by
  fun_induction joints width offset pieces with
  | case1 => rfl
  | case2 => rfl
  | case3 offset piece next pieces ih => simpa using ih

theorem leftmost_piecesFrom (proper : needle ≠ []) (text : Text) :
    Leftmost needle text (joints needle.length 0 (piecesFrom needle 0 [] text)) := by
  induction sizeEq : text.length using Nat.strong_induction_on generalizing text with
  | _ size ih =>
      cases found : findFrom needle 0 text with
      | none =>
          rw [piecesFrom_of_absent [] found]
          exact leftmost_nil_iff.mpr ((findFrom_eq_none_iff proper).mp found)
      | some start =>
          obtain ⟨before, after, rfl, startEq, pieces⟩ := piecesFrom_of_found [] proper found
          obtain ⟨place, placeEq, -, first⟩ := (findFrom_eq_some_iff proper).mp found
          obtain rfl : before.length = place := by omega
          have positive := List.length_pos_of_ne_nil proper
          have shorter : after.length < size := by
            rw [← sizeEq, List.length_append, List.length_append]
            omega
          rw [pieces, List.reverse_nil, List.nil_append,
            joints_zero_cons (piecesFrom_ne_nil _ _ _ _)]
          exact .cons first (ih _ shorter after rfl)

theorem split_eq_piecesFrom (proper : needle ≠ []) (text : Text) :
    split needle text = piecesFrom needle 0 [] text := by
  have nonempty : needle.isEmpty = false := by simpa using proper
  simp [split, nonempty]

theorem split_ne_nil (needle text : Text) : split needle text ≠ [] := by
  rw [split]
  split
  · simp
  · exact piecesFrom_ne_nil _ _ _ _

/-- Splitting cuts at the places that are found from left to right. -/
theorem leftmost_iff (proper : needle ≠ []) :
    Leftmost needle text places ↔ places = joints needle.length 0 (split needle text) := by
  have found := leftmost_piecesFrom proper text
  rw [split_eq_piecesFrom proper]
  constructor
  · intro leftmost
    exact leftmost.unique proper found
  · intro same
    rw [same]
    exact found

end Directive.Text
