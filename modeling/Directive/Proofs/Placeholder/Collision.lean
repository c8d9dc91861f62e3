import Directive.Proofs.Placeholder.Extraction

/-!
# Free tokens

A token collides where a search finds it in a text between the calls, also if
it runs on into the token behind that text.  An extraction is exact if its
token collides nowhere, so extraction takes the first such token of those that
it tries, and fails only if there is none.
-/

namespace Directive.Placeholder

/-! ## Collisions -/

/-- The places in a gap at which a search finds the token, if `tail` stands
behind the gap. -/
def strays (token gap tail : Text) : List Nat :=
  (List.range gap.length).filter fun place => Text.startsWith ((gap ++ tail).drop place) token

/-- What a search finds of a token in gaps: the number of places at which the
token begins, if it stands behind every gap but the last. -/
def collisions (token : Text) : List Text → Nat
  | [] => 0
  | gap :: gaps =>
      (strays token gap (if gaps.isEmpty then [] else token)).length + collisions token gaps

variable {token gap tail placeholder : Text} {gaps : List Text} {nodes : List Node}

theorem mem_strays_iff {place : Nat} :
    place ∈ strays token gap tail ↔
      place < gap.length ∧ Text.startsWith ((gap ++ tail).drop place) token = true := by
  rw [strays, List.mem_filter, List.mem_range]

theorem strays_eq_nil_iff :
    strays token gap tail = [] ↔
      ∀ place < gap.length, Text.startsWith ((gap ++ tail).drop place) token = false := by
  simp [strays, List.filter_eq_nil_iff]

theorem gaps_ne_nil (gap : Text) (nodes : List Node) : Node.gaps gap nodes ≠ [] := by
  induction nodes generalizing gap with
  | nil => simp [Node.gaps]
  | cons node nodes ih =>
      cases node with
      | text value span => exact ih (gap ++ value)
      | call directive => simp [Node.gaps]

/-- Whether a token begins in a gap does not depend on what stands behind the
token that follows the gap. -/
theorem startsWith_drop_gap (behind : Text) {place : Nat} (within : place ≤ gap.length) :
    Text.startsWith ((gap ++ (token ++ behind)).drop place) token =
      Text.startsWith ((gap ++ token).drop place) token := by
  rw [← List.append_assoc, List.drop_append_of_le_length (by rw [List.length_append]; omega)]
  apply Text.startsWith_append
  rw [List.length_drop, List.length_append]
  omega

/-- A search from the beginning of a gap finds the token behind the gap first,
if there are no strays in the gap. -/
theorem findFrom_eq_some_iff_strays (proper : token ≠ []) (offset : Nat) (gap behind : Text) :
    Text.findFrom token offset (gap ++ (token ++ behind)) = some (offset + gap.length) ↔
      strays token gap token = [] := by
  rw [Text.findFrom_eq_some_iff proper, strays_eq_nil_iff]
  constructor
  · intro found place within
    obtain ⟨first, startEq, -, none⟩ := found
    obtain rfl : gap.length = first := by omega
    rw [← startsWith_drop_gap behind (Nat.le_of_lt within)]
    exact none place within
  · intro none
    refine ⟨gap.length, rfl, ?_, ?_⟩
    · rw [List.drop_left]
      exact Text.startsWith_eq_true_iff.mpr ⟨behind, rfl⟩
    · intro earlier before
      rw [startsWith_drop_gap behind (Nat.le_of_lt before)]
      exact none earlier before

theorem findFrom_eq_none_iff_strays (proper : token ≠ []) (offset : Nat) (gap : Text) :
    Text.findFrom token offset gap = none ↔ strays token gap [] = [] := by
  rw [Text.findFrom_eq_none_iff proper, strays_eq_nil_iff, List.append_nil]
  constructor
  · intro absent place _
    exact absent place
  · intro absent place
    by_cases within : place < gap.length
    · exact absent place within
    · rw [List.drop_of_length_le (by omega)]
      exact Text.startsWith_nil proper

/-- The induction carries the text since the last call, which the search has not
passed yet. -/
theorem foundExactlyAt_iff (proper : token ≠ []) (offset : Nat) (gap : Text)
    (nodes : List Node) :
    foundExactlyAt token offset
        (gap ++ (substituteFrom token (offset + gap.length) nodes).1)
        ((substituteFrom token (offset + gap.length) nodes).2.map PlacedCall.span) = true ↔
      collisions token (Node.gaps gap nodes) = 0 := by
  induction nodes generalizing offset gap with
  | nil =>
      simp [substituteFrom, foundExactlyAt, Node.gaps, collisions,
        findFrom_eq_none_iff_strays proper]
  | cons node nodes ih =>
      cases node with
      | text value span =>
          have start : offset + gap.length + value.length = offset + (gap ++ value).length := by
            rw [List.length_append, Nat.add_assoc]
          simp only [substituteFrom, start, ← List.append_assoc]
          exact ih offset (gap ++ value)
      | call directive =>
          have more : (Node.gaps [] nodes).isEmpty = false := by
            simpa using gaps_ne_nil [] nodes
          have others := ih (offset + gap.length + token.length) []
          rw [List.nil_append, List.length_nil, Nat.add_zero] at others
          simp only [substituteFrom, List.map_cons, Node.gaps, collisions, more,
            Bool.false_eq_true, if_false]
          rw [foundExactlyAt_cons_iff, findFrom_eq_some_iff_strays proper, others,
            Nat.add_eq_zero_iff, List.length_eq_zero_iff]

/-- An extraction is exact if its token collides with nothing. -/
theorem isExact_substitute_iff (proper : token ≠ []) (document : Document) :
    isExact (substitute token document) = true ↔
      collisions token (Node.gaps [] document.nodes) = 0 := by
  have found := foundExactlyAt_iff proper 0 [] document.nodes
  simpa [isExact, substitute] using found

/-- Extraction fails only if every token collides. -/
theorem extract_eq_error_iff {document : Document} {fault : Fault}
    (shown : placeholder.isBlank = false) :
    extract document placeholder = .error fault ↔
      (∀ attempt ≤ maxAttempts,
        collisions (Placeholder.token placeholder attempt) (Node.gaps [] document.nodes) ≠ 0) ∧
      .noFreePlaceholder placeholder = fault := by
  have collide : ∀ attempt,
      isExact (substitute (Placeholder.token placeholder attempt) document) = false ↔
        collisions (Placeholder.token placeholder attempt) (Node.gaps [] document.nodes) ≠ 0 := by
    intro attempt
    rw [← Bool.not_eq_true, isExact_substitute_iff (token_ne_nil shown attempt)]
  simp only [extract, findSome?_ite, shown, Bool.false_eq_true, if_false]
  constructor
  · intro failed
    split at failed
    · cases failed
    · next nothing =>
        cases failed
        refine ⟨?_, rfl⟩
        intro attempt within
        have missed := List.find?_eq_none.mp (Option.map_eq_none_iff.mp nothing) attempt
          (List.mem_range.mpr (Nat.lt_succ_of_le within))
        exact (collide attempt).mp (by simpa using missed)
  · intro failed
    obtain ⟨allCollide, rfl⟩ := failed
    have nothing : (List.range (maxAttempts + 1)).find? (fun attempt =>
        isExact (substitute (Placeholder.token placeholder attempt) document)) = none := by
      apply List.find?_eq_none.mpr
      intro attempt member
      have within := Nat.le_of_lt_succ (List.mem_range.mp member)
      simpa using (collide attempt).mpr (allCollide attempt within)
    rw [nothing]
    rfl

/-- Extraction returns exactly if the placeholder is free or one of its numbered
variants is. -/
theorem exists_extract_eq_ok_iff {document : Document} (shown : placeholder.isBlank = false) :
    (∃ extraction, extract document placeholder = .ok extraction) ↔
      collisions placeholder (Node.gaps [] document.nodes) = 0 ∨
        ∃ number, 1 ≤ number ∧ number ≤ 1000 ∧
          collisions (placeholder ++ Text.ofNat number) (Node.gaps [] document.nodes) = 0 := by
  rw [← @exists_token_iff placeholder fun token =>
    collisions token (Node.gaps [] document.nodes) = 0]
  constructor
  · intro returned
    obtain ⟨extraction, extracted⟩ := returned
    obtain ⟨-, attempt, within, exact, -, -⟩ := extract_eq_ok_iff.mp extracted
    exact ⟨attempt, within,
      (isExact_substitute_iff (token_ne_nil shown attempt) document).mp exact⟩
  · intro free
    obtain ⟨attempt, within, isFree⟩ := free
    cases result : extract document placeholder with
    | ok extraction => exact ⟨extraction, rfl⟩
    | error fault =>
        exact absurd isFree (((extract_eq_error_iff shown).mp result).1 attempt within)

end Directive.Placeholder
