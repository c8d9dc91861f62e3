import Directive.Proofs.Render.Dispatch
import Directive.Proofs.Render.Sequence

/-!
# How calls fail

A call fails with a fault that names the call and its place, whatever its
handler returns and whatever the handler throws, with one exception: a thrown
value that has no text cannot be told in a message, and what is thrown on the way
to its text escapes instead.  Unless that is a fault of a call itself, it passes
the fallback and reaches the caller.
-/

namespace Directive

section

variable {World : Type}

/-- The options without a fallback. -/
def RenderOptions.withoutFallback (options : RenderOptions World) : RenderOptions World :=
  { options with fallback := none }

/-- The options with a fallback that always gives a text. -/
def RenderOptions.answering (options : RenderOptions World)
    (answer : Fault → Call → World → Text × World) : RenderOptions World :=
  { options with
    fallback := some fun raised call world =>
      let (text, world) := answer raised call world
      (.ok text, world) }

/-- The state in which a call is dispatched. -/
def RenderOptions.announce (options : RenderOptions World) (call : Call) (world : World) : World :=
  options.logger.log .debug (Text.ofString "dispatching directive") call.logFields world

variable {resolve : Resolver World} {options : RenderOptions World} {call other : Call}
  {state otherState world final : World}

/-! ## One call -/

theorem renderCall_withoutFallback (call : Call) (world : World) :
    renderCall resolve options.withoutFallback call world =
      dispatch resolve call (options.announce call world) := by
  rw [renderCall]
  simp only [RenderOptions.withoutFallback, RenderOptions.announce]
  split
  · next text last done => exact done.symm
  · next thrown last failed => exact failed.symm

/-- A fallback that always gives a text is not asked about what escapes and is no
fault of a call. -/
theorem renderCall_answering_eq_error_iff {answer : Fault → Call → World → Text × World}
    {thrown : Value} :
    renderCall resolve (options.answering answer) call world = (.error thrown, final) ↔
      call.Escapes resolve (options.announce call world) thrown final ∧
        callFault? thrown = none := by
  constructor
  · intro result
    rw [renderCall] at result
    simp only [RenderOptions.answering] at result
    split at result
    · cases result
    · next raised last failed =>
        cases reported : callFault? raised with
        | some told => simp [reported] at result
        | none =>
            simp only [reported] at result
            cases result
            exact ⟨(dispatch_eq_error_iff.mp failed).escapes reported, reported⟩
  · intro outcome
    obtain ⟨escapes, unreported⟩ := outcome
    have failed := (Call.Throws.escaped escapes).dispatch
    rw [RenderOptions.announce] at failed
    simp [renderCall, RenderOptions.answering, failed, unreported]

/-! ## Whole documents -/

/-- The call is the next to be rendered, and it is dispatched in the state. -/
def Reaches (resolve : Resolver World) (options : RenderOptions World) (nodes : List Node)
    (world : World) (call : Call) (state : World) : Prop :=
  ∃ before behind text passed, nodes = before ++ .call call :: behind ∧
    renderNodes resolve options before world = (.ok text, passed) ∧
    options.announce call passed = state

/-- Rendering reaches a call at which the value escapes. -/
def ReachesEscape (resolve : Resolver World) (options : RenderOptions World)
    (nodes : List Node) (world : World) (escaped : Value) : Prop :=
  ∃ call state final, Reaches resolve options nodes world call state ∧
    call.Escapes resolve state escaped final

variable {document : Document} {nodes : List Node}
  {answer : Fault → Call → World → Text × World} {thrown : Value}

theorem render_withoutFallback_eq_error_iff :
    render resolve options.withoutFallback document world = (.error thrown, final) ↔
      ∃ call state, Reaches resolve options.withoutFallback document.nodes world call state ∧
        call.Throws resolve state thrown final := by
  rw [render_eq_error_iff, renderNodes_eq_error_iff]
  constructor
  · intro stopped
    obtain ⟨before, call, behind, text, passed, nodesEq, rendered, throws⟩ := stopped
    rw [renderCall_withoutFallback, dispatch_eq_error_iff] at throws
    exact ⟨call, _, ⟨before, behind, text, passed, nodesEq, rendered, rfl⟩, throws⟩
  · intro stopped
    obtain ⟨call, _, reached, throws⟩ := stopped
    obtain ⟨before, behind, text, passed, nodesEq, rendered, rfl⟩ := reached
    refine ⟨before, call, behind, text, passed, nodesEq, rendered, ?_⟩
    rw [renderCall_withoutFallback, dispatch_eq_error_iff]
    exact throws

theorem render_answering_eq_error_iff :
    render resolve (options.answering answer) document world = (.error thrown, final) ↔
      callFault? thrown = none ∧ ∃ call state,
        Reaches resolve (options.answering answer) document.nodes world call state ∧
          call.Escapes resolve state thrown final := by
  rw [render_eq_error_iff, renderNodes_eq_error_iff]
  constructor
  · intro stopped
    obtain ⟨before, call, behind, text, passed, nodesEq, rendered, throws⟩ := stopped
    obtain ⟨escapes, unreported⟩ := renderCall_answering_eq_error_iff.mp throws
    exact ⟨unreported, call, _, ⟨before, behind, text, passed, nodesEq, rendered, rfl⟩, escapes⟩
  · intro stopped
    obtain ⟨unreported, call, _, reached, escapes⟩ := stopped
    obtain ⟨before, behind, text, passed, nodesEq, rendered, rfl⟩ := reached
    refine ⟨before, call, behind, text, passed, nodesEq, rendered, ?_⟩
    exact renderCall_answering_eq_error_iff.mpr ⟨escapes, unreported⟩

/-- Rendering does not get past a call that throws. -/
theorem renderNodes_ne_ok_of_throws {front rest : List Node} {shown output : Text}
    {middle last reached : World}
    (passes : renderNodes resolve options front world = (.ok shown, middle))
    (stops : renderCall resolve options call middle = (.error thrown, last)) :
    renderNodes resolve options (front ++ .call call :: rest) world ≠ (.ok output, reached) := by
  intro returned
  have stopped := renderNodes_eq_error_iff.mpr
    ⟨front, call, rest, shown, middle, rfl, passes, stops⟩
  rw [returned] at stopped
  cases stopped

/-- Of the calls that are reached only one can throw, the last. -/
theorem Reaches.unique (reached : Reaches resolve options.withoutFallback nodes world call state)
    (throws : call.Throws resolve state thrown final)
    (otherReached : Reaches resolve options.withoutFallback nodes world other otherState)
    {otherThrown : Value} {otherFinal : World}
    (otherThrows : other.Throws resolve otherState otherThrown otherFinal) :
    call = other ∧ state = otherState := by
  obtain ⟨before, behind, text, passed, rfl, rendered, rfl⟩ := reached
  obtain ⟨otherBefore, otherBehind, otherText, otherPassed, same, otherRendered, rfl⟩ := otherReached
  rw [← dispatch_eq_error_iff, ← renderCall_withoutFallback] at throws otherThrows
  -- a call that throws is not among those before another one that is reached
  rcases List.append_eq_append_iff.mp same with ⟨more, rfl, split⟩ | ⟨more, rfl, split⟩
  · cases more with
    | nil =>
        rw [List.append_nil, rendered] at otherRendered
        cases otherRendered
        cases split
        exact ⟨rfl, rfl⟩
    | cons node more =>
        cases split
        exact absurd otherRendered (renderNodes_ne_ok_of_throws rendered throws)
  · cases more with
    | nil =>
        rw [List.append_nil, otherRendered] at rendered
        cases rendered
        cases split
        exact ⟨rfl, rfl⟩
    | cons node more =>
        cases split
        exact absurd rendered (renderNodes_ne_ok_of_throws otherRendered otherThrows)

theorem ReachesEscape.render_withoutFallback {escaped : Value}
    (reaches : ReachesEscape resolve options.withoutFallback document.nodes world escaped) :
    ∃ final, render resolve options.withoutFallback document world = (.error escaped, final) := by
  obtain ⟨call, state, final, reached, escapes⟩ := reaches
  exact ⟨final, render_withoutFallback_eq_error_iff.mpr ⟨call, state, reached, .escaped escapes⟩⟩

/-! ## Failures as results -/

theorem tryRender_eq_ok_iff {output : Text} :
    tryRender resolve options document world = (.ok (.ok output), final) ↔
      render resolve options document world = (.ok output, final) := by
  rw [tryRender]
  constructor
  · intro result
    split at result
    · next text last returned =>
        cases result
        exact returned
    · split at result <;> cases result
  · intro returned
    simp [returned]

theorem tryRender_eq_fault_iff {raised : Fault} :
    tryRender resolve options document world = (.ok (.error raised), final) ↔
      render resolve options document world = (.error (.fault raised), final) ∧
        raised.isFromCall = true := by
  rw [tryRender]
  constructor
  · intro result
    split at result
    · cases result
    · next value last threw =>
        split at result
        · next told reported =>
            cases result
            obtain ⟨rfl, fromCall⟩ := callFault?_eq_some_iff.mp reported
            exact ⟨threw, fromCall⟩
        · cases result
  · intro outcome
    obtain ⟨threw, fromCall⟩ := outcome
    have reported := callFault?_eq_some_iff.mpr ⟨rfl, fromCall⟩
    simp [threw, reported]

theorem tryRender_eq_error_iff :
    tryRender resolve options document world = (.error thrown, final) ↔
      render resolve options document world = (.error thrown, final) ∧
        callFault? thrown = none := by
  rw [tryRender]
  constructor
  · intro result
    split at result
    · cases result
    · next value last threw =>
        split at result
        · cases result
        · next unreported =>
            cases result
            exact ⟨threw, unreported⟩
  · intro outcome
    obtain ⟨threw, unreported⟩ := outcome
    simp [threw, unreported]

/-! ## What decides -/

theorem render_withoutFallback_iff :
    (¬ ∃ escaped, ReachesEscape resolve options.withoutFallback document.nodes world escaped) ↔
      (∃ output final,
        render resolve options.withoutFallback document world = (.ok output, final)) ∨
      ∃ call state raised final,
        Reaches resolve options.withoutFallback document.nodes world call state ∧
        call.Fails resolve state raised final ∧
        render resolve options.withoutFallback document world =
          (.error (.fault raised), final) := by
  obtain ⟨⟨thrown | output, final⟩, result⟩ :
      ∃ result, render resolve options.withoutFallback document world = result := ⟨_, rfl⟩
  · obtain ⟨call, state, reached, throws⟩ := render_withoutFallback_eq_error_iff.mp result
    cases throws with
    | fault fails =>
        refine iff_of_true ?_ (.inr ⟨call, state, _, final, reached, fails, result⟩)
        rintro ⟨escaped, other, otherState, last, otherReached, escapes⟩
        obtain ⟨rfl, rfl⟩ := reached.unique (.fault fails) otherReached (.escaped escapes)
        exact fails.not_escapes escapes
    | escaped escapes =>
        refine iff_of_false (fun kept => kept ⟨thrown, call, state, final, reached, escapes⟩) ?_
        rintro (⟨output, last, returned⟩ | ⟨other, otherState, raised, last, otherReached, fails, -⟩)
        · rw [result] at returned
          cases returned
        · obtain ⟨rfl, rfl⟩ := reached.unique (.escaped escapes) otherReached (.fault fails)
          exact fails.not_escapes escapes
  · refine iff_of_true ?_ (.inl ⟨output, final, result⟩)
    rintro ⟨escaped, reaches⟩
    obtain ⟨last, threw⟩ := reaches.render_withoutFallback
    rw [result] at threw
    cases threw

theorem tryRender_withoutFallback_iff :
    (¬ ∃ escaped, callFault? escaped = none ∧
        ReachesEscape resolve options.withoutFallback document.nodes world escaped) ↔
      ∃ result final,
        tryRender resolve options.withoutFallback document world = (.ok result, final) := by
  obtain ⟨⟨thrown | outcome, final⟩, result⟩ :
      ∃ result, tryRender resolve options.withoutFallback document world = result := ⟨_, rfl⟩
  · obtain ⟨threw, unreported⟩ := tryRender_eq_error_iff.mp result
    obtain ⟨call, state, reached, throws⟩ := render_withoutFallback_eq_error_iff.mp threw
    have escapes := throws.escapes unreported
    refine iff_of_false
      (fun kept => kept ⟨thrown, unreported, call, state, final, reached, escapes⟩) ?_
    rintro ⟨outcome, last, returned⟩
    rw [result] at returned
    cases returned
  · refine iff_of_true ?_ ⟨outcome, final, result⟩
    rintro ⟨escaped, unreported, reaches⟩
    obtain ⟨last, threw⟩ := reaches.render_withoutFallback
    rw [tryRender_eq_error_iff.mpr ⟨threw, unreported⟩] at result
    cases result

theorem render_answering_iff :
    (¬ ∃ escaped, callFault? escaped = none ∧
        ReachesEscape resolve (options.answering answer) document.nodes world escaped) ↔
      ∃ output final,
        render resolve (options.answering answer) document world = (.ok output, final) := by
  obtain ⟨⟨thrown | output, final⟩, result⟩ :
      ∃ result, render resolve (options.answering answer) document world = result := ⟨_, rfl⟩
  · obtain ⟨unreported, call, state, reached, escapes⟩ := render_answering_eq_error_iff.mp result
    refine iff_of_false
      (fun kept => kept ⟨thrown, unreported, call, state, final, reached, escapes⟩) ?_
    rintro ⟨output, last, returned⟩
    rw [result] at returned
    cases returned
  · refine iff_of_true ?_ ⟨output, final, result⟩
    rintro ⟨escaped, unreported, call, state, last, reached, escapes⟩
    have threw := render_answering_eq_error_iff.mpr ⟨unreported, call, state, reached, escapes⟩
    rw [result] at threw
    cases threw

/-- Without a fallback rendering returns, or throws the fault of the first call
that fails, exactly if nothing escapes at a call that it reaches: no registry
throws, and no handler throws a value without text.  Failures are returned as
results exactly if nothing escapes that is no fault of a call, and under the same
condition a fallback that always gives a text makes rendering always return. -/
theorem render_failure_iff (resolve : Resolver World) (options : RenderOptions World)
    (answer : Fault → Call → World → Text × World) (document : Document) (world : World) :
    ((¬ ∃ escaped,
        ReachesEscape resolve options.withoutFallback document.nodes world escaped) ↔
      (∃ output final,
        render resolve options.withoutFallback document world = (.ok output, final)) ∨
      ∃ call state raised final,
        Reaches resolve options.withoutFallback document.nodes world call state ∧
        call.Fails resolve state raised final ∧ raised.isFromCall = true ∧
        raised.context = .ofRecord call.site.toRecord ∧
        render resolve options.withoutFallback document world = (.error (.fault raised), final)) ∧
    ((¬ ∃ escaped, callFault? escaped = none ∧
        ReachesEscape resolve options.withoutFallback document.nodes world escaped) ↔
      ∃ result final,
        tryRender resolve options.withoutFallback document world = (.ok result, final)) ∧
    (∀ output final,
      tryRender resolve options.withoutFallback document world = (.ok (.ok output), final) ↔
        render resolve options.withoutFallback document world = (.ok output, final)) ∧
    (∀ raised final,
      raised.isFromCall = true ∨
        ¬ ReachesEscape resolve options.withoutFallback document.nodes world (.fault raised) →
      (tryRender resolve options.withoutFallback document world = (.ok (.error raised), final) ↔
        render resolve options.withoutFallback document world = (.error (.fault raised), final))) ∧
    ((¬ ∃ escaped, callFault? escaped = none ∧
        ReachesEscape resolve (options.answering answer) document.nodes world escaped) ↔
      ∃ output final,
        render resolve (options.answering answer) document world = (.ok output, final)) := by
  refine ⟨?_, tryRender_withoutFallback_iff, fun _ _ => tryRender_eq_ok_iff, ?_,
    render_answering_iff⟩
  · rw [render_withoutFallback_iff]
    constructor
    · rintro (returned | ⟨call, state, raised, final, reached, fails, threw⟩)
      · exact .inl returned
      · exact .inr ⟨call, state, raised, final, reached, fails, fails.isFromCall,
          fails.context_eq, threw⟩
    · rintro (returned | ⟨call, state, raised, final, reached, fails, -, -, threw⟩)
      · exact .inl returned
      · exact .inr ⟨call, state, raised, final, reached, fails, threw⟩
  · intro raised final settled
    rw [tryRender_eq_fault_iff]
    refine ⟨And.left, fun threw => ⟨threw, ?_⟩⟩
    rcases settled with fromCall | kept
    · exact fromCall
    · obtain ⟨call, state, reached, throws⟩ := render_withoutFallback_eq_error_iff.mp threw
      cases throws with
      | fault fails => exact fails.isFromCall
      | escaped escapes => exact absurd ⟨call, state, final, reached, escapes⟩ kept

/-- A document of one call. -/
def loneCall : Document :=
  .ofNodes [.call ⟨⟨Text.ofString "a", []⟩, Text.ofString "\x7b\x7b a() \x7d\x7d", ⟨0, 9⟩,
    ⟨1, 1⟩⟩]

/-- A handler for every name that throws a record that inherits nothing. -/
def throwBareRecord : Resolver Unit := fun _ world =>
  (.ok (some fun _ _ world => (.error (.bareRecord [] []), world)), world)

/-- Options whose log entries are dropped. -/
def droppingOptions : RenderOptions Unit :=
  ⟨⟨.silent, none, fun _ world => world⟩, none, fun _ world => world⟩

/-- A thrown record that inherits nothing reaches the caller as a failed
conversion, in spite of a fallback, and is not returned as a fault either. -/
theorem bareRecord_passes_fallback :
    render throwBareRecord (droppingOptions.answering fun _ _ world => (Text.ofString "X", world))
        loneCall () =
      (.error (.error (Text.ofString "TypeError")
        (.ofString "Cannot convert object to primitive value")), ()) ∧
    tryRender throwBareRecord droppingOptions.withoutFallback loneCall () =
      (.error (.error (Text.ofString "TypeError")
        (.ofString "Cannot convert object to primitive value")), ()) :=
  ⟨rfl, rfl⟩

end

end Directive
