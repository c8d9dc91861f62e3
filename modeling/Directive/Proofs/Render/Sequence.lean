import Directive.Document
import Directive.Render

/-!
# Rendering one call after the other

Text needs no rendering, so the nodes of a document render as its calls do: the
same handlers run on the same states, and the first call that throws ends both.
-/

namespace Directive

/-- Nodes with a text in the place of each call. -/
def Node.fill : List Node → List Text → Text
  | .text value _ :: nodes, rendered => value ++ fill nodes rendered
  | .call _ :: nodes, replacement :: rendered => replacement ++ fill nodes rendered
  | _, _ => []

section

variable {World : Type} {resolve : Resolver World} {options : RenderOptions World}

/-! ## One step -/

theorem renderNodes_cons_eq_ok_iff {node : Node} {nodes : List Node} {world final : World}
    {output : Text} :
    renderNodes resolve options (node :: nodes) world = (.ok output, final) ↔
      ∃ text middle rest, renderNode resolve options node world = (.ok text, middle) ∧
        renderNodes resolve options nodes middle = (.ok rest, final) ∧ text ++ rest = output := by
  constructor
  · intro result
    rw [renderNodes] at result
    split at result
    · cases result
    · next text middle here =>
        split at result
        · cases result
        · next rest last later =>
            cases result
            exact ⟨text, middle, rest, here, later, rfl⟩
  · intro steps
    obtain ⟨text, middle, rest, here, later, rfl⟩ := steps
    simp [renderNodes, here, later]

theorem renderNodes_cons_eq_error_iff {node : Node} {nodes : List Node} {world final : World}
    {thrown : Value} :
    renderNodes resolve options (node :: nodes) world = (.error thrown, final) ↔
      renderNode resolve options node world = (.error thrown, final) ∨
        ∃ text middle, renderNode resolve options node world = (.ok text, middle) ∧
          renderNodes resolve options nodes middle = (.error thrown, final) := by
  constructor
  · intro result
    rw [renderNodes] at result
    split at result
    · next raised last here =>
        cases result
        exact .inl here
    · next text middle here =>
        split at result
        · next raised last later =>
            cases result
            exact .inr ⟨text, middle, here, later⟩
        · cases result
  · intro steps
    rcases steps with here | ⟨text, middle, here, later⟩
    · simp [renderNodes, here]
    · simp [renderNodes, here, later]

theorem renderCalls_cons_eq_ok_iff {call : Call} {calls : List Call} {world final : World}
    {rendered : List Text} :
    renderCalls resolve options (call :: calls) world = (.ok rendered, final) ↔
      ∃ text middle rest, renderCall resolve options call world = (.ok text, middle) ∧
        renderCalls resolve options calls middle = (.ok rest, final) ∧
        text :: rest = rendered := by
  constructor
  · intro result
    rw [renderCalls] at result
    split at result
    · cases result
    · next text middle here =>
        split at result
        · cases result
        · next rest last later =>
            cases result
            exact ⟨text, middle, rest, here, later, rfl⟩
  · intro steps
    obtain ⟨text, middle, rest, here, later, rfl⟩ := steps
    simp [renderCalls, here, later]

theorem renderCalls_cons_eq_error_iff {call : Call} {calls : List Call} {world final : World}
    {thrown : Value} :
    renderCalls resolve options (call :: calls) world = (.error thrown, final) ↔
      renderCall resolve options call world = (.error thrown, final) ∨
        ∃ text middle, renderCall resolve options call world = (.ok text, middle) ∧
          renderCalls resolve options calls middle = (.error thrown, final) := by
  constructor
  · intro result
    rw [renderCalls] at result
    split at result
    · next raised last here =>
        cases result
        exact .inl here
    · next text middle here =>
        split at result
        · next raised last later =>
            cases result
            exact .inr ⟨text, middle, here, later⟩
        · cases result
  · intro steps
    rcases steps with here | ⟨text, middle, here, later⟩
    · simp [renderCalls, here]
    · simp [renderCalls, here, later]

/-! ## A whole run -/

theorem length_of_renderCalls {calls : List Call} {world final : World} {rendered : List Text}
    (result : renderCalls resolve options calls world = (.ok rendered, final)) :
    rendered.length = calls.length := by
  induction calls generalizing world rendered with
  | nil =>
      obtain ⟨rfl, rfl⟩ : [] = rendered ∧ world = final := by simpa [renderCalls] using result
      rfl
  | cons call calls ih =>
      obtain ⟨text, middle, rest, _, later, rfl⟩ := renderCalls_cons_eq_ok_iff.mp result
      simp [ih later]

theorem renderNodes_eq_ok_iff {nodes : List Node} {world final : World} {output : Text} :
    renderNodes resolve options nodes world = (.ok output, final) ↔
      ∃ rendered,
        renderCalls resolve options (nodes.filterMap Node.call?) world = (.ok rendered, final) ∧
          Node.fill nodes rendered = output := by
  induction nodes generalizing world output with
  | nil => simp [renderNodes, renderCalls, Node.fill, and_comm]
  | cons node nodes ih =>
      rw [renderNodes_cons_eq_ok_iff]
      cases node with
      | text value span =>
          constructor
          · intro steps
            obtain ⟨text, middle, rest, here, later, rfl⟩ := steps
            obtain ⟨rfl, rfl⟩ : value = text ∧ world = middle := by simpa [renderNode] using here
            obtain ⟨rendered, calls, rfl⟩ := ih.mp later
            exact ⟨rendered, calls, rfl⟩
          · intro filled
            obtain ⟨rendered, calls, rfl⟩ := filled
            exact ⟨value, world, _, rfl, ih.mpr ⟨rendered, calls, rfl⟩, rfl⟩
      | call directive =>
          constructor
          · intro steps
            obtain ⟨text, middle, rest, here, later, rfl⟩ := steps
            obtain ⟨rendered, calls, rfl⟩ := ih.mp later
            have all := renderCalls_cons_eq_ok_iff.mpr ⟨text, middle, rendered, here, calls, rfl⟩
            exact ⟨text :: rendered, all, rfl⟩
          · intro filled
            obtain ⟨_, calls, rfl⟩ := filled
            obtain ⟨text, middle, rendered, here, later, rfl⟩ :=
              renderCalls_cons_eq_ok_iff.mp calls
            exact ⟨text, middle, _, here, ih.mpr ⟨rendered, later, rfl⟩, rfl⟩

theorem renderNodes_eq_error_iff_renderCalls {nodes : List Node} {world final : World}
    {thrown : Value} :
    renderNodes resolve options nodes world = (.error thrown, final) ↔
      renderCalls resolve options (nodes.filterMap Node.call?) world = (.error thrown, final) := by
  induction nodes generalizing world with
  | nil => simp [renderNodes, renderCalls]
  | cons node nodes ih =>
      rw [renderNodes_cons_eq_error_iff]
      cases node with
      | text value span =>
          constructor
          · intro steps
            rcases steps with here | ⟨text, middle, here, later⟩
            · simp [renderNode] at here
            · obtain ⟨-, rfl⟩ : value = text ∧ world = middle := by simpa [renderNode] using here
              exact ih.mp later
          · intro stopped
            exact .inr ⟨value, world, rfl, ih.mpr stopped⟩
      | call directive =>
          simp only [List.filterMap_cons, Node.call?, renderCalls_cons_eq_error_iff, ih]
          rfl

/-- Rendering throws exactly where the first call that is not rendered throws. -/
theorem renderNodes_eq_error_iff {nodes : List Node} {world final : World} {thrown : Value} :
    renderNodes resolve options nodes world = (.error thrown, final) ↔
      ∃ before call behind text reached, nodes = before ++ .call call :: behind ∧
        renderNodes resolve options before world = (.ok text, reached) ∧
        renderCall resolve options call reached = (.error thrown, final) := by
  constructor
  · intro stopped
    induction nodes generalizing world with
    | nil => simp [renderNodes] at stopped
    | cons node nodes ih =>
        rcases renderNodes_cons_eq_error_iff.mp stopped with here | ⟨first, middle, here, later⟩
        · cases node with
          | text value span => simp [renderNode] at here
          | call directive => exact ⟨[], directive, nodes, [], world, rfl, rfl, here⟩
        · obtain ⟨before, call, behind, text, reached, rfl, passed, throws⟩ := ih later
          have all := renderNodes_cons_eq_ok_iff.mpr ⟨first, middle, text, here, passed, rfl⟩
          exact ⟨node :: before, call, behind, _, reached, rfl, all, throws⟩
  · intro stopped
    obtain ⟨before, call, behind, text, reached, rfl, passed, throws⟩ := stopped
    induction before generalizing world text with
    | nil =>
        obtain ⟨-, rfl⟩ : [] = text ∧ world = reached := by simpa [renderNodes] using passed
        exact renderNodes_cons_eq_error_iff.mpr (.inl throws)
    | cons node before ih =>
        obtain ⟨first, middle, rest, here, later, -⟩ := renderNodes_cons_eq_ok_iff.mp passed
        exact renderNodes_cons_eq_error_iff.mpr (.inr ⟨first, middle, here, ih rest later⟩)

/-! ## Documents -/

theorem render_eq_ok_iff {document : Document} {world final : World} {output : Text} :
    render resolve options document world = (.ok output, final) ↔
      ∃ reached, renderNodes resolve options document.nodes world = (.ok output, reached) ∧
        options.logger.log .debug (Text.ofString "rendered document")
          [(Text.ofString "nodes", .ofNat document.nodes.length),
            (Text.ofString "calls", .ofNat document.calls.length)] reached = final := by
  constructor
  · intro result
    rw [render] at result
    split at result
    · cases result
    · next text reached passed =>
        cases result
        exact ⟨reached, passed, rfl⟩
  · intro passed
    obtain ⟨reached, passed, rfl⟩ := passed
    simp [render, passed]

theorem render_eq_error_iff {document : Document} {world final : World} {thrown : Value} :
    render resolve options document world = (.error thrown, final) ↔
      renderNodes resolve options document.nodes world = (.error thrown, final) := by
  constructor
  · intro result
    rw [render] at result
    split at result
    · next raised last stopped =>
        cases result
        exact stopped
    · cases result
  · intro stopped
    simp [render, stopped]

end

end Directive
