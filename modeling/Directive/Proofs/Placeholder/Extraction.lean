import Directive.Placeholder
import Directive.Proofs.Render.Sequence
import Directive.Proofs.Text.Occurrences

/-!
# What an extraction holds

An extraction has the calls of its document.  Since a search finds its token at
the calls and nowhere else, splitting its text at the token gives the texts
between the calls.
-/

namespace Directive

/-- The texts of nodes between their calls, when the first is preceded by `gap`. -/
def Node.gaps (gap : Text) : List Node → List Text
  | [] => [gap]
  | .text value _ :: nodes => gaps (gap ++ value) nodes
  | .call _ :: nodes => gap :: gaps [] nodes

namespace Placeholder

variable {token : Text}

theorem calls_substituteFrom (token : Text) (offset : Nat) (nodes : List Node) :
    (substituteFrom token offset nodes).2.map PlacedCall.call = nodes.filterMap Node.call? := by
  induction nodes generalizing offset with
  | nil => rfl
  | cons node nodes ih =>
      cases node with
      | text value span => exact ih (offset + value.length)
      | call directive => exact congrArg (directive :: ·) (ih (offset + token.length))

/-- The search finds the first token at its place and goes on behind it. -/
theorem foundExactlyAt_cons_iff (token : Text) (offset : Nat) (gap behind : Text)
    (spans : List Span) :
    foundExactlyAt token offset (gap ++ (token ++ behind))
        (⟨(offset + gap.length : Nat), (offset + gap.length + token.length : Nat)⟩ :: spans) =
          true ↔
      Text.findFrom token offset (gap ++ (token ++ behind)) = some (offset + gap.length) ∧
        foundExactlyAt token (offset + gap.length + token.length) behind spans = true := by
  have passed : offset + gap.length + token.length - offset = (gap ++ token).length := by
    rw [List.length_append]
    omega
  have rest : (gap ++ (token ++ behind)).drop (gap ++ token).length = behind := by
    rw [← List.append_assoc, List.drop_left]
  rw [foundExactlyAt, Int.toNat_natCast, passed, rest]
  cases Text.findFrom token offset (gap ++ (token ++ behind)) with
  | none => simp
  | some start => simp only [Bool.and_eq_true, beq_iff_eq, Int.ofNat_inj, Option.some.injEq]

/-- Where a search finds the token at its place, splitting cuts. -/
theorem pieces_of_found {offset : Nat} {gap behind : Text} (proper : token ≠ [])
    (found :
      Text.findFrom token offset (gap ++ (token ++ behind)) = some (offset + gap.length)) :
    Text.piecesFrom token 0 [] (gap ++ (token ++ behind)) =
      gap :: Text.piecesFrom token 0 [] behind := by
  obtain ⟨before, after, textEq, startEq, pieces⟩ := Text.piecesFrom_of_found [] proper found
  have sameLength : gap.length = before.length := by omega
  obtain ⟨rfl, tailEq⟩ := List.append_inj textEq sameLength
  obtain rfl : behind = after := List.append_cancel_left tailEq
  exact pieces

/-- The induction carries the text since the last call, which the search has not
passed yet. -/
theorem pieces_of_foundExactlyAt (proper : token ≠ []) (offset : Nat) (gap : Text)
    (nodes : List Node)
    (found : foundExactlyAt token offset
      (gap ++ (substituteFrom token (offset + gap.length) nodes).1)
      ((substituteFrom token (offset + gap.length) nodes).2.map PlacedCall.span) = true) :
    Text.piecesFrom token 0 []
      (gap ++ (substituteFrom token (offset + gap.length) nodes).1) = Node.gaps gap nodes := by
  induction nodes generalizing offset gap with
  | nil =>
      have absent : Text.findFrom token offset (gap ++ []) = none := by
        simpa [substituteFrom, foundExactlyAt] using found
      simpa [substituteFrom, Node.gaps] using Text.piecesFrom_of_absent [] absent
  | cons node nodes ih =>
      cases node with
      | text value span =>
          have start : offset + gap.length + value.length = offset + (gap ++ value).length := by
            rw [List.length_append, Nat.add_assoc]
          simp only [substituteFrom, start, ← List.append_assoc] at found ⊢
          exact ih offset (gap ++ value) found
      | call directive =>
          simp only [substituteFrom, List.map_cons] at found ⊢
          obtain ⟨foundHere, foundBehind⟩ :=
            (foundExactlyAt_cons_iff token offset gap _ _).mp found
          rw [pieces_of_found proper foundHere, Node.gaps]
          exact congrArg (gap :: ·) (ih (offset + gap.length + token.length) [] foundBehind)

/-! ## The tokens that are tried -/

theorem token_zero (placeholder : Text) : Placeholder.token placeholder 0 = placeholder :=
  if_pos rfl

theorem token_of_pos (placeholder : Text) {number : Nat} (positive : 1 ≤ number) :
    Placeholder.token placeholder number = placeholder ++ Text.ofNat number :=
  if_neg (Nat.ne_of_gt positive)

/-- The attempts are the placeholder, and the placeholder with a number behind it. -/
theorem exists_token_iff {placeholder : Text} {holds : Text → Prop} :
    (∃ attempt ≤ maxAttempts, holds (Placeholder.token placeholder attempt)) ↔
      holds placeholder ∨
        ∃ number, 1 ≤ number ∧ number ≤ 1000 ∧ holds (placeholder ++ Text.ofNat number) := by
  constructor
  · rintro ⟨attempt, within, held⟩
    rcases Nat.eq_zero_or_pos attempt with rfl | positive
    · rw [token_zero] at held
      exact .inl held
    · rw [token_of_pos placeholder positive] at held
      exact .inr ⟨attempt, positive, within, held⟩
  · rintro (held | ⟨number, positive, within, held⟩)
    · refine ⟨0, Nat.zero_le _, ?_⟩
      rwa [token_zero]
    · refine ⟨number, within, ?_⟩
      rwa [token_of_pos placeholder positive]

theorem token_isBlank {placeholder : Text} (shown : placeholder.isBlank = false) (attempt : Nat) :
    (Placeholder.token placeholder attempt).isBlank = false := by
  rw [Placeholder.token]
  split
  · exact shown
  · exact Text.isBlank_append shown

theorem token_ne_nil {placeholder : Text} (shown : placeholder.isBlank = false) (attempt : Nat) :
    Placeholder.token placeholder attempt ≠ [] :=
  Text.ne_nil_of_isBlank (token_isBlank shown attempt)

theorem findSome?_ite {α β : Type} (holds : α → Bool) (value : α → β) (list : List α) :
    list.findSome? (fun item => if holds item then some (value item) else none) =
      (list.find? holds).map value := by
  induction list with
  | nil => rfl
  | cons item list ih => by_cases here : holds item = true <;> simp [here, ih]

/-- The token is the first that a search finds exactly at the calls. -/
theorem extract_eq_ok_iff {document : Document} {placeholder : Text} {extraction : Extraction} :
    extract document placeholder = .ok extraction ↔
      placeholder.isBlank = false ∧ ∃ attempt ≤ maxAttempts,
        isExact (substitute (Placeholder.token placeholder attempt) document) = true ∧
          (∀ earlier < attempt,
            isExact (substitute (Placeholder.token placeholder earlier) document) = false) ∧
          substitute (Placeholder.token placeholder attempt) document = extraction := by
  simp only [extract, findSome?_ite]
  cases shown : placeholder.isBlank with
  | true => simp
  | false =>
      simp only [Bool.false_eq_true, if_false, true_and]
      constructor
      · intro extracted
        split at extracted
        · next chosen found =>
            cases extracted
            obtain ⟨attempt, isFirst, rfl⟩ := Option.map_eq_some_iff.mp found
            obtain ⟨isExact, within, earlierFail⟩ := List.find?_range_eq_some.mp isFirst
            refine ⟨attempt, Nat.le_of_lt_succ (List.mem_range.mp within), isExact, ?_, rfl⟩
            intro earlier before
            simpa using earlierFail earlier before
        · cases extracted
      · intro chosen
        obtain ⟨attempt, within, isExact, earlierFail, rfl⟩ := chosen
        have isFirst := List.find?_range_eq_some.mpr ⟨isExact,
          List.mem_range.mpr (Nat.lt_succ_of_le within), by simpa using earlierFail⟩
        simp [isFirst]

/-- An extraction has the calls of the document in order, and splitting its text
at its token gives the texts between them. -/
theorem extract_spec {document : Document} {placeholder : Text} {extraction : Extraction}
    (extracted : extract document placeholder = .ok extraction) :
    extraction.placeholder.isBlank = false ∧
      extraction.calls.map PlacedCall.call = document.callNodes ∧
      Text.split extraction.placeholder extraction.text = Node.gaps [] document.nodes := by
  obtain ⟨shown, attempt, -, exact, -, rfl⟩ := extract_eq_ok_iff.mp extracted
  have proper := token_ne_nil shown attempt
  have nonempty : (Placeholder.token placeholder attempt).isEmpty = false := by
    simpa using proper
  refine ⟨token_isBlank shown attempt, calls_substituteFrom _ _ _, ?_⟩
  have pieces := pieces_of_foundExactlyAt proper 0 [] document.nodes
    (by simpa [isExact, substitute] using exact)
  simpa [substitute, Text.split, nonempty] using pieces

end Placeholder

end Directive
