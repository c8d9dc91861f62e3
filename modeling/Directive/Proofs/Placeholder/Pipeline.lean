import Directive.Proofs.Placeholder.Extraction

/-!
# Rendering apart from the text

Lifting the calls out of a document, rendering them and putting the results
back gives what rendering the document gives.  If a call throws, the two ways
throw the same value from the same state.
-/

namespace Directive.Placeholder

theorem length_gaps (gap : Text) (nodes : List Node) :
    (Node.gaps gap nodes).length = (nodes.filterMap Node.call?).length + 1 := by
  induction nodes generalizing gap with
  | nil => rfl
  | cons node nodes ih =>
      cases node with
      | text value span => exact ih (gap ++ value)
      | call directive => exact congrArg (· + 1) (ih [])

theorem interleave_gaps (gap : Text) (nodes : List Node) (rendered : List Text)
    (enough : rendered.length = (nodes.filterMap Node.call?).length) :
    interleave (Node.gaps gap nodes) rendered = gap ++ Node.fill nodes rendered := by
  induction nodes generalizing gap rendered with
  | nil =>
      obtain rfl : rendered = [] := List.length_eq_zero_iff.mp enough
      simp [Node.gaps, Node.fill, interleave]
  | cons node nodes ih =>
      cases node with
      | text value span =>
          have others := ih (gap ++ value) rendered enough
          simpa [Node.gaps, Node.fill] using others
      | call directive =>
          cases rendered with
          | nil => simp [Node.call?] at enough
          | cons text rendered =>
              have others := ih [] rendered (by simpa [Node.call?] using enough)
              simp [Node.gaps, Node.fill, interleave, others]

theorem restore_eq_ok {document : Document} {placeholder : Text} {extraction : Extraction}
    (extracted : extract document placeholder = .ok extraction) {rendered : List Text}
    (enough : rendered.length = extraction.calls.length) :
    restore extraction.text rendered extraction.placeholder =
      .ok (Node.fill document.nodes rendered) := by
  obtain ⟨shown, calls, pieces⟩ := extract_spec extracted
  have count : rendered.length = (document.nodes.filterMap Node.call?).length := by
    have lengths := congrArg List.length calls
    rw [List.length_map] at lengths
    exact enough.trans lengths
  have found : (Node.gaps [] document.nodes).length - 1 = rendered.length := by
    rw [length_gaps, count, Nat.add_sub_cancel]
  simp [restore, shown, pieces, found, interleave_gaps [] document.nodes rendered count]

section

variable {World : Type}

/-- If rendering a document returns, rendering the calls of an extraction
returns on the same states, and its results put back give the same text.  If it
throws, rendering the calls throws the same value at the same call, from the
state in which it was reached.  Putting back never fails, whatever the texts are
that are put back. -/
theorem restore_renderCalls (resolve : Resolver World) (options : RenderOptions World)
    {document : Document} {placeholder : Text} {extraction : Extraction}
    (extracted : extract document placeholder = .ok extraction) (world : World) :
    (∀ output final, render resolve options document world = (.ok output, final) →
      ∃ rendered reached fields,
        renderCalls resolve options (extraction.calls.map PlacedCall.call) world =
          (.ok rendered, reached) ∧
        restore extraction.text rendered extraction.placeholder = .ok output ∧
        final = options.logger.log .debug (Text.ofString "rendered document") fields reached) ∧
    (∀ thrown final, render resolve options document world = (.error thrown, final) →
      renderCalls resolve options (extraction.calls.map PlacedCall.call) world =
          (.error thrown, final) ∧
        ∃ before call behind text rendered reached,
          document.nodes = before ++ .call call :: behind ∧
          extraction.calls.map PlacedCall.call =
            before.filterMap Node.call? ++ call :: behind.filterMap Node.call? ∧
          renderNodes resolve options before world = (.ok text, reached) ∧
          renderCalls resolve options (before.filterMap Node.call?) world =
            (.ok rendered, reached) ∧
          renderCall resolve options call reached = (.error thrown, final)) ∧
    (∀ rendered, rendered.length = extraction.calls.length →
      ∃ output, restore extraction.text rendered extraction.placeholder = .ok output) := by
  obtain ⟨-, calls, -⟩ := extract_spec extracted
  refine ⟨?_, ?_, ?_⟩
  · intro output final returned
    obtain ⟨reached, passed, rfl⟩ := render_eq_ok_iff.mp returned
    obtain ⟨rendered, rendersCalls, rfl⟩ := renderNodes_eq_ok_iff.mp passed
    have enough : rendered.length = extraction.calls.length := by
      have lengths := congrArg List.length calls
      rw [List.length_map] at lengths
      exact (length_of_renderCalls rendersCalls).trans lengths.symm
    exact ⟨rendered, reached, _, calls ▸ rendersCalls, restore_eq_ok extracted enough, rfl⟩
  · intro thrown final threw
    have stopped := render_eq_error_iff.mp threw
    obtain ⟨before, call, behind, text, reached, nodesEq, passed, throws⟩ :=
      renderNodes_eq_error_iff.mp stopped
    obtain ⟨rendered, rendersCalls, -⟩ := renderNodes_eq_ok_iff.mp passed
    have callsStop := renderNodes_eq_error_iff_renderCalls.mp stopped
    refine ⟨calls ▸ callsStop, before, call, behind, text, rendered, reached, nodesEq, ?_,
      passed, rendersCalls, throws⟩
    rw [calls, Document.callNodes, nodesEq, List.filterMap_append, List.filterMap_cons, Node.call?]
  · intro rendered enough
    exact ⟨_, restore_eq_ok extracted enough⟩

end

/-- A call between two texts, the first of which is the placeholder `a`. -/
def numberedDocument : Document :=
  .ofNodes [.text [0x61] ⟨0, 1⟩,
    .call ⟨⟨[0x66], []⟩, Text.ofString "\x7b\x7bf()\x7d\x7d", ⟨1, 8⟩, ⟨1, 2⟩⟩,
    .text [0x31] ⟨8, 9⟩]

/-- A registry that notes every name that is looked up.  Its handlers return `a1` and
note the name once more. -/
def notingResolver : Resolver (List Text) := fun name names =>
  (.ok (some fun _ _ names => (.ok (.string [0x61, 0x31]), name :: names)), name :: names)

def silentOptions : RenderOptions (List Text) :=
  ⟨⟨.silent, none, fun _ names => names⟩, none, fun _ names => names⟩

/-- The placeholder stands in the text, so its first numbered token is taken, and
the handler returns that very token. -/
theorem restore_renderCalls_numbered :
    ∃ extraction, extract numberedDocument [0x61] = .ok extraction ∧
      extraction.placeholder = [0x61, 0x31] ∧
      ∃ rendered reached,
        renderCalls notingResolver silentOptions (extraction.calls.map PlacedCall.call) [] =
          (.ok rendered, reached) ∧
        restore extraction.text rendered extraction.placeholder =
          .ok [0x61, 0x61, 0x31, 0x31] := by
  have extracted : extract numberedDocument [0x61] = .ok ⟨[0x61, 0x61, 0x31, 0x31],
        [⟨⟨⟨[0x66], []⟩, Text.ofString "\x7b\x7bf()\x7d\x7d", ⟨1, 8⟩, ⟨1, 2⟩⟩, ⟨1, 3⟩⟩],
        [0x61, 0x31]⟩ := by
    apply extract_eq_ok_iff.mpr
    refine ⟨by decide, 1, by decide, by decide, ?_, rfl⟩
    intro earlier before
    obtain rfl : earlier = 0 := by omega
    decide
  have returned := (restore_renderCalls notingResolver silentOptions extracted []).1
    [0x61, 0x61, 0x31, 0x31] [[0x66], [0x66]] rfl
  obtain ⟨rendered, reached, -, calls, restored, -⟩ := returned
  exact ⟨_, extracted, rfl, rendered, reached, calls, restored⟩

end Directive.Placeholder
