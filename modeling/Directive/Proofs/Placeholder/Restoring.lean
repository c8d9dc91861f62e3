import Directive.Placeholder
import Directive.Proofs.Document.Splice
import Directive.Proofs.Text.Leftmost

/-!
# Putting texts back

Texts are put back at the places of the placeholder that are found from left to
right, one at each of them, whatever stands between these places.  What is put
back is not searched again.
-/

namespace Directive

/-- The span of an occurrence at a place. -/
def Span.wide (width place : Nat) : Span :=
  ⟨place, (place + width : Nat)⟩

namespace Text

/-- The texts that take the place of occurrences, in order. -/
def replacements (width : Nat) (places : List Nat) (texts : List Text) : List (Span × Text) :=
  (places.map (Span.wide width)).zip texts

theorem spliceFrom_cons_middle (front piece behind replacement : Text) (stop : Nat)
    (edits : List (Span × Text)) :
    spliceFrom (front ++ (piece ++ behind)) front.length
        ((⟨(front.length + piece.length : Nat), stop⟩, replacement) :: edits) =
      piece ++ replacement ++ spliceFrom (front ++ (piece ++ behind)) stop edits := by
  have first := slice_middle front piece behind
  rw [← Int.natCast_add] at first
  rw [spliceFrom, first]

end Text

namespace Placeholder

variable {needle placeholder text : Text} {pieces texts : List Text}

/-- To replace the separators of a joined text is to put the replacements between
the pieces.  The induction carries the text in front of the pieces. -/
theorem spliceFrom_join (front needle : Text) (enough : texts.length + 1 = pieces.length) :
    Text.spliceFrom (front ++ Text.join needle pieces) front.length
        (Text.replacements needle.length (Text.joints needle.length front.length pieces) texts) =
      interleave pieces texts := by
  induction pieces generalizing front texts with
  | nil => simp at enough
  | cons piece pieces ih =>
      cases pieces with
      | nil =>
          obtain rfl : texts = [] := by simpa using enough
          have last := Text.slice_length (front ++ piece) front.length
          rw [List.drop_left] at last
          simpa [Text.replacements, Text.joints, Text.join, Text.spliceFrom, interleave] using last
      | cons next pieces =>
          cases texts with
          | nil => simp at enough
          | cons replacement texts =>
              have behind := @ih texts (front ++ (piece ++ needle)) (by simpa using enough)
              have width : (front ++ (piece ++ needle)).length =
                  front.length + piece.length + needle.length := by
                rw [List.length_append, List.length_append, Nat.add_assoc]
              have textEq : front ++ (piece ++ needle) ++ Text.join needle (next :: pieces) =
                  front ++ (piece ++ (needle ++ Text.join needle (next :: pieces))) := by
                simp only [List.append_assoc]
              rw [width, textEq] at behind
              have joinEq : Text.join needle (piece :: next :: pieces) =
                  piece ++ (needle ++ Text.join needle (next :: pieces)) :=
                List.append_assoc _ _ _
              rw [joinEq, Text.joints, interleave, ← behind]
              exact Text.spliceFrom_cons_middle front piece _ replacement _ _

theorem splice_join (needle : Text) (enough : texts.length + 1 = pieces.length) :
    (Text.join needle pieces).splice
        (Text.replacements needle.length (Text.joints needle.length 0 pieces) texts) =
      interleave pieces texts :=
  spliceFrom_join [] needle enough

theorem interleave_replicate (needle : Text) (nonempty : pieces ≠ []) :
    interleave pieces (List.replicate (pieces.length - 1) needle) = Text.join needle pieces := by
  induction pieces with
  | nil => contradiction
  | cons piece pieces ih =>
      cases pieces with
      | nil => simp [interleave, Text.join]
      | cons next pieces =>
          have others := ih (by simp)
          rw [List.length_cons, Nat.add_sub_cancel] at others
          rw [List.length_cons, List.length_cons, Nat.add_sub_cancel, List.replicate_succ,
            interleave, others]
          rfl

/-- The pieces of a text are one more than the texts that take the place of the
placeholders. -/
theorem restore_eq (shown : placeholder.isBlank = false) (text : Text) (texts : List Text) :
    restore text texts placeholder =
      if texts.length + 1 = (Text.split placeholder text).length then
        .ok (interleave (Text.split placeholder text) texts)
      else .error (.placeholderMismatch texts.length ((Text.split placeholder text).length - 1)) := by
  have positive := List.length_pos_of_ne_nil (Text.split_ne_nil placeholder text)
  have same : (Text.split placeholder text).length - 1 = texts.length ↔
      texts.length + 1 = (Text.split placeholder text).length := by omega
  simp only [restore, shown, Bool.false_eq_true, if_false, same]

/-- Every text has one list of places at which the placeholder is found from left
to right.  If there are as many texts as places, each takes the place of one
placeholder and all else stays; otherwise the two numbers are reported.  So
copies of the placeholder give the text back, and pieces that were joined by
placeholders, if these are the ones that are found, are put together with the
texts between them. -/
theorem restore_leftmost (shown : placeholder.isBlank = false) :
    (∀ text, ∃ places, Text.Leftmost placeholder text places ∧
      (∀ others, Text.Leftmost placeholder text others → others = places) ∧
      (∀ rendered : List Text, rendered.length = places.length →
        restore text rendered placeholder =
          .ok (text.splice (Text.replacements placeholder.length places rendered))) ∧
      (∀ rendered : List Text, rendered.length ≠ places.length →
        restore text rendered placeholder =
          .error (.placeholderMismatch rendered.length places.length)) ∧
      restore text (List.replicate places.length placeholder) placeholder = .ok text) ∧
    ∀ pieces : List Text,
      Text.Leftmost placeholder (Text.join placeholder pieces)
        (Text.joints placeholder.length 0 pieces) →
      ∀ rendered : List Text, rendered.length + 1 = pieces.length →
        restore (Text.join placeholder pieces) rendered placeholder =
          .ok (interleave pieces rendered) := by
  have proper := Text.ne_nil_of_isBlank shown
  constructor
  · intro text
    have nonempty := Text.split_ne_nil placeholder text
    have positive := List.length_pos_of_ne_nil nonempty
    have found := (@Text.leftmost_iff placeholder text _ proper).mpr rfl
    have count := Text.length_joints placeholder.length 0 (Text.split placeholder text)
    have joined := Text.join_split proper text
    refine ⟨_, found, fun others other => other.unique proper found, ?_, ?_, ?_⟩
    · intro rendered enough
      have pieces : rendered.length + 1 = (Text.split placeholder text).length := by omega
      have spliced := splice_join placeholder pieces
      rw [joined] at spliced
      rw [restore_eq shown, if_pos pieces, spliced]
    · intro rendered other
      rw [restore_eq shown, if_neg (by omega), count]
    · have pieces := interleave_replicate placeholder nonempty
      rw [restore_eq shown, List.length_replicate, if_pos (by omega), count, pieces, joined]
  · intro pieces leftmost rendered enough
    have found := (Text.leftmost_iff proper).mp leftmost
    have sameLength := congrArg List.length found
    have positive := List.length_pos_of_ne_nil
      (Text.split_ne_nil placeholder (Text.join placeholder pieces))
    rw [Text.length_joints, Text.length_joints] at sameLength
    have enoughSplit : rendered.length + 1 =
        (Text.split placeholder (Text.join placeholder pieces)).length := by omega
    have spliced := splice_join placeholder enoughSplit
    rw [Text.join_split proper, ← found, splice_join placeholder enough] at spliced
    rw [restore_eq shown, if_pos enoughSplit, spliced]

/-- The placeholder overlaps itself, the text ends with half of it, and it is
among the texts that are put back. -/
theorem restore_leftmost_overlapping :
    Text.isBlank (Text.ofString "aa") = false ∧
      Text.Leftmost (Text.ofString "aa") (Text.ofString "aaaaa") [0, 2] ∧
      restore (Text.ofString "aaaaa") [Text.ofString "aa", Text.ofString "b"]
        (Text.ofString "aa") = .ok (Text.ofString "aaba") ∧
      restore (Text.ofString "aaaaa") [Text.ofString "b"] (Text.ofString "aa") =
        .error (.placeholderMismatch 1 2) ∧
      restore (Text.join (Text.ofString "aa") [Text.ofString "b", [], Text.ofString "a"])
        [[], Text.ofString "aa"] (Text.ofString "aa") = .ok (Text.ofString "baaa") := by
  have shown : Text.isBlank (Text.ofString "aa") = false := by decide
  have proper : Text.ofString "aa" ≠ [] := by decide
  have leftmost : Text.Leftmost (Text.ofString "aa") (Text.ofString "aaaaa") [0, 2] :=
    (Text.leftmost_iff proper).mpr (by decide)
  obtain ⟨texts, pieces⟩ := restore_leftmost shown
  obtain ⟨places, -, unique, fits, differs, -⟩ := texts (Text.ofString "aaaaa")
  obtain rfl : [0, 2] = places := unique _ leftmost
  have joined := pieces [Text.ofString "b", [], Text.ofString "a"]
    ((Text.leftmost_iff proper).mpr (by decide)) [[], Text.ofString "aa"] rfl
  exact ⟨shown, leftmost, fits _ rfl, differs _ (by decide), joined⟩

end Placeholder

end Directive
