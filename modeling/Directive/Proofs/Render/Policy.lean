import Directive.Config
import Directive.Document.Parse
import Directive.Proofs.Document.Splice
import Directive.Proofs.LineIndex
import Directive.Proofs.Render.Failure

/-!
# Policies for failed calls

A policy that replaces failed calls changes nothing else: the other calls run
on the same states and come to the same texts, and all that is not a call stays
as it is in the source.
-/

namespace Directive

/-- What a call comes to: the text that its handler returns, or a fault. -/
structure Outcome where
  call : Call
  result : Except Fault Text

namespace Outcome

def text? (outcome : Outcome) : Option Text :=
  outcome.result.toOption

def fault? (outcome : Outcome) : Option Fault :=
  match outcome.result with
  | .ok _ => none
  | .error raised => some raised

/-- The span of a call that came to a text, with the text. -/
def replacement? (outcome : Outcome) : Option (Span × Text) :=
  outcome.text?.map (outcome.call.span, ·)

/-- The span of a call, with the text it came to, or with nothing. -/
def replacementOrNothing (outcome : Outcome) : Span × Text :=
  (outcome.call.span, outcome.text?.getD [])

end Outcome

section

variable {World : Type}

/-- The registry answers every request. -/
def Resolver.Answers (resolve : Resolver World) : Prop :=
  ∀ name state, ∃ found after, resolve name state = (.ok found, after)

/-- Whatever a handler of the registry throws has a text, as strings have and errors
with a message. -/
def Resolver.ThrowsWithText (resolve : Resolver World) : Prop :=
  ∀ name state handler after, resolve name state = (.ok (some handler), after) →
    ∀ arguments call world thrown final,
      handler arguments call world = (.error thrown, final) → ∃ reason, thrown.reason = .ok reason

/-- The state in which a call is dispatched. -/
def Logger.announce (logger : Logger World) (call : Call) (world : World) : World :=
  logger.log .debug (Text.ofString "dispatching directive") call.logFields world

/-- The state in which a fallback is asked. -/
def Logger.warn (logger : Logger World) (call : Call) (raised : Fault) (world : World) : World :=
  logger.log .warn (Text.ofString "directive replaced by fallback")
    [(Text.ofString "directive", .string call.name),
      (Text.ofString "code", .string raised.code.text),
      (Text.ofString "line", .ofInt call.position.line),
      (Text.ofString "column", .ofInt call.position.column)] world

/-- What calls come to one after the other, if rendering goes on after each that
fails. -/
inductive Outcomes (resolve : Resolver World) (logger : Logger World) :
    World → List Call → List Outcome → World → Prop where
  | done {world : World} : Outcomes resolve logger world [] [] world
  | returned {call : Call} {text : Text} {calls : List Call} {outcomes : List Outcome}
      {world middle final : World} :
      call.Returns resolve (logger.announce call world) text middle →
      Outcomes resolve logger middle calls outcomes final →
      Outcomes resolve logger world (call :: calls) (⟨call, .ok text⟩ :: outcomes) final
  | failed {call : Call} {raised : Fault} {calls : List Call} {outcomes : List Outcome}
      {world middle final : World} :
      call.Fails resolve (logger.announce call world) raised middle →
      Outcomes resolve logger (logger.warn call raised middle) calls outcomes final →
      Outcomes resolve logger world (call :: calls) (⟨call, .error raised⟩ :: outcomes) final

variable {resolve : Resolver World} {options : RenderOptions World} {logger : Logger World}
  {call : Call} {calls : List Call} {outcomes : List Outcome} {text : Text} {raised : Fault}
  {world state middle final : World}

/-! ## One call -/

theorem Resolver.Answers.returns_or_fails (answers : resolve.Answers)
    (spoken : resolve.ThrowsWithText) (call : Call) (state : World) :
    (∃ text final, call.Returns resolve state text final) ∨
      ∃ raised final, call.Fails resolve state raised final := by
  rcases dispatch_cases resolve call state with
    ⟨text, final, -, returns⟩ | ⟨thrown, final, -, throws⟩
  · exact .inl ⟨text, final, returns⟩
  · cases throws with
    | fault fails => exact .inr ⟨_, final, fails⟩
    | escaped escapes =>
        cases escapes with
        | registry refused =>
            obtain ⟨found, after, answered⟩ := answers call.name state
            rw [refused] at answered
            cases answered
        | wordless resolved threw noReason =>
            obtain ⟨reason, reasonEq⟩ := spoken _ _ _ _ resolved _ _ _ _ _ threw
            rw [noReason] at reasonEq
            cases reasonEq

theorem Call.Returns.renderCall (sameLogger : options.logger = logger)
    (returns : call.Returns resolve (logger.announce call world) text final) :
    Directive.renderCall resolve options call world = (.ok text, final) := by
  subst sameLogger
  have dispatched := returns.dispatch
  rw [Logger.announce] at dispatched
  simp only [Directive.renderCall, dispatched]

theorem Call.Fails.renderCall_aborts (sameLogger : options.logger = logger)
    (noFallback : options.fallback = none)
    (fails : call.Fails resolve (logger.announce call world) raised final) :
    renderCall resolve options call world = (.error (.fault raised), final) := by
  subst sameLogger
  have dispatched := (Call.Throws.fault fails).dispatch
  rw [Logger.announce] at dispatched
  simp only [renderCall, dispatched, noFallback]

theorem Call.Fails.renderCall_falls {fallback : Fallback World}
    (sameLogger : options.logger = logger) (hasFallback : options.fallback = some fallback)
    (fails : call.Fails resolve (logger.announce call world) raised middle) :
    renderCall resolve options call world =
      fallback raised call (logger.warn call raised middle) := by
  subst sameLogger
  have dispatched := (Call.Throws.fault fails).dispatch
  have reported := fails.callFault?_eq
  rw [Logger.announce] at dispatched
  simp only [renderCall, dispatched, hasFallback, reported, Logger.warn]

/-! ## All calls -/

namespace Outcomes

theorem map_call (results : Outcomes resolve logger world calls outcomes final) :
    outcomes.map Outcome.call = calls := by
  induction results with
  | done => rfl
  | returned _ _ ih => rw [List.map_cons, ih]
  | failed _ _ ih => rw [List.map_cons, ih]

theorem exist (answers : resolve.Answers) (spoken : resolve.ThrowsWithText) (logger : Logger World) (calls : List Call)
    (world : World) : ∃ outcomes final, Outcomes resolve logger world calls outcomes final := by
  induction calls generalizing world with
  | nil => exact ⟨[], world, .done⟩
  | cons call calls ih =>
      rcases answers.returns_or_fails spoken call (logger.announce call world) with
        ⟨text, middle, returns⟩ | ⟨raised, middle, fails⟩
      · obtain ⟨outcomes, final, later⟩ := ih middle
        exact ⟨_, final, .returned returns later⟩
      · obtain ⟨outcomes, final, later⟩ := ih (logger.warn call raised middle)
        exact ⟨_, final, .failed fails later⟩

/-- Without handlers no call comes to a text. -/
theorem filterMap_replacement? (results : Outcomes resolve logger world calls outcomes final)
    (unknown : ∀ name state, ∃ after, resolve name state = (.ok none, after)) :
    outcomes.filterMap Outcome.replacement? = [] := by
  induction results with
  | done => rfl
  | @returned call _ _ _ _ _ _ returns _ _ =>
      obtain ⟨handler, found, resolved, -⟩ := returns
      obtain ⟨after, missing⟩ := unknown call.name _
      rw [resolved] at missing
      cases missing
  | failed _ _ ih => rw [List.filterMap_cons_none rfl, ih]

/-- A fallback that gives each call a text of its own replaces the calls that fail. -/
theorem renderCalls_answer (results : Outcomes resolve logger world calls outcomes final)
    (sameLogger : options.logger = logger) {answer : Call → Text}
    (hasFallback : options.fallback = some fun _ call world => (.ok (answer call), world)) :
    renderCalls resolve options calls world =
      (.ok (outcomes.map fun outcome => outcome.text?.getD (answer outcome.call)), final) := by
  induction results with
  | done => rfl
  | returned returns _ ih =>
      exact renderCalls_cons_eq_ok_iff.mpr ⟨_, _, _, returns.renderCall sameLogger, ih, rfl⟩
  | failed fails _ ih =>
      have here := fails.renderCall_falls sameLogger hasFallback
      exact renderCalls_cons_eq_ok_iff.mpr ⟨_, _, _, here, ih, rfl⟩

theorem renderCalls_eq_ok (results : Outcomes resolve logger world calls outcomes final)
    (sameLogger : options.logger = logger) (noFault : outcomes.findSome? Outcome.fault? = none) :
    renderCalls resolve options calls world =
      (.ok (outcomes.map fun outcome => outcome.text?.getD outcome.call.raw), final) := by
  induction results with
  | done => rfl
  | returned returns _ ih =>
      exact renderCalls_cons_eq_ok_iff.mpr
        ⟨_, _, _, returns.renderCall sameLogger, ih noFault, rfl⟩
  | failed _ _ _ =>
      cases noFault

/-- Without a fallback rendering ends at the first call that fails. -/
theorem renderCalls_eq_error (results : Outcomes resolve logger world calls outcomes final)
    (sameLogger : options.logger = logger) (noFallback : options.fallback = none)
    (firstFault : outcomes.findSome? Outcome.fault? = some raised) :
    ∃ last, renderCalls resolve options calls world = (.error (.fault raised), last) := by
  induction results with
  | done => cases firstFault
  | returned returns _ ih =>
      obtain ⟨last, stopped⟩ := ih firstFault
      exact ⟨last, renderCalls_cons_eq_error_iff.mpr
        (.inr ⟨_, _, returns.renderCall sameLogger, stopped⟩)⟩
  | failed fails _ _ =>
      cases firstFault
      exact ⟨_, renderCalls_cons_eq_error_iff.mpr
        (.inl (fails.renderCall_aborts sameLogger noFallback))⟩

/-! ## Whole sources -/

variable {source : Text} {document : Document}

theorem render_eq_splice (results : Outcomes resolve logger world document.callNodes outcomes final)
    (tiles : Document.Tiles source 0 document.nodes) (text? : Outcome → Option Text)
    (rendered : renderCalls resolve options document.callNodes world =
      (.ok (outcomes.map fun outcome => (text? outcome).getD outcome.call.raw), final)) :
    ∃ last, render resolve options document world =
      (.ok (source.splice (outcomes.filterMap fun outcome =>
        (text? outcome).map (outcome.call.span, ·))), last) := by
  have complete : (outcomes.map fun outcome => Filling.mk outcome.call (text? outcome)).map
      Filling.call = document.nodes.filterMap Node.call? := by
    rw [List.map_map]
    exact results.map_call
  have filled := tiles.fill_eq_splice complete
  rw [List.map_map, List.filterMap_map] at filled
  have nodes := renderNodes_eq_ok_iff.mpr ⟨_, rendered, filled⟩
  exact ⟨_, render_eq_ok_iff.mpr ⟨final, nodes, rfl⟩⟩

theorem render_preserve (results : Outcomes resolve logger world document.callNodes outcomes final)
    (tiles : Document.Tiles source 0 document.nodes) (sameLogger : options.logger = logger)
    (preserves : options.fallback = Config.fallback? .preserve) :
    ∃ last, render resolve options document world =
      (.ok (source.splice (outcomes.filterMap Outcome.replacement?)), last) :=
  results.render_eq_splice tiles Outcome.text? (results.renderCalls_answer sameLogger preserves)

theorem render_empty (results : Outcomes resolve logger world document.callNodes outcomes final)
    (tiles : Document.Tiles source 0 document.nodes) (sameLogger : options.logger = logger)
    (empties : options.fallback = Config.fallback? .empty) :
    ∃ last, render resolve options document world =
      (.ok (source.splice (outcomes.map Outcome.replacementOrNothing)), last) := by
  have edits : (outcomes.filterMap fun outcome =>
      (some (outcome.text?.getD [])).map (outcome.call.span, ·)) =
        outcomes.map Outcome.replacementOrNothing :=
    congrFun List.filterMap_eq_map outcomes
  rw [← edits]
  exact results.render_eq_splice tiles (fun outcome => some (outcome.text?.getD []))
    (results.renderCalls_answer sameLogger empties)

theorem render_throw (results : Outcomes resolve logger world document.callNodes outcomes final)
    (sameLogger : options.logger = logger) (throws : options.fallback = Config.fallback? .throw)
    (firstFault : outcomes.findSome? Outcome.fault? = some raised) :
    ∃ last, render resolve options document world = (.error (.fault raised), last) := by
  obtain ⟨last, stopped⟩ := results.renderCalls_eq_error sameLogger throws firstFault
  exact ⟨last, render_eq_error_iff.mpr (renderNodes_eq_error_iff_renderCalls.mpr stopped)⟩

end Outcomes

/-- The calls of a source come to outcomes that depend on the logger, but not on
the policy.  To preserve the calls that fail is to put the texts of the others in
their place in the source, so without handlers the source itself is returned; to
leave them out is to remove their spans as well.  A policy that throws, which is
also the policy of a configuration that names none, returns the same unless a call
fails, and then it throws the fault of the first that does. -/
theorem renderSource_policy (resolve : Resolver World) (answers : resolve.Answers)
    (spoken : resolve.ThrowsWithText) (logger : Logger World)
    (trace : TraceEvent → World → World) (source : Text) (world : World) :
    (∃ outcomes final, Outcomes resolve logger (trace (.parsed source) world)
      (Document.parse source).calls outcomes final) ∧
    ∀ outcomes final,
      Outcomes resolve logger (trace (.parsed source) world) (Document.parse source).calls
        outcomes final →
      ∀ (config : Config) (base : Logger World),
        (config.renderOptions base trace).logger = logger →
        (config.policy = .preserve →
          (∃ last, renderSource resolve (config.renderOptions base trace) source world =
            (.ok (source.splice (outcomes.filterMap Outcome.replacement?)), last)) ∧
          ((∀ name state, ∃ after, resolve name state = (.ok none, after)) →
            ∃ last, renderSource resolve (config.renderOptions base trace) source world =
              (.ok source, last))) ∧
        (config.policy = .empty →
          ∃ last, renderSource resolve (config.renderOptions base trace) source world =
            (.ok (source.splice (outcomes.map Outcome.replacementOrNothing)), last)) ∧
        (config.policy = .throw →
          (outcomes.findSome? Outcome.fault? = none →
            ∃ last, renderSource resolve (config.renderOptions base trace) source world =
              (.ok (source.splice (outcomes.filterMap Outcome.replacement?)), last)) ∧
          ∀ raised, outcomes.findSome? Outcome.fault? = some raised →
            ∃ last, renderSource resolve (config.renderOptions base trace) source world =
              (.error (.fault raised), last)) := by
  refine ⟨Outcomes.exist answers spoken _ _ _, ?_⟩
  intro outcomes final results config base sameLogger
  rw [Document.calls_parse] at results
  have tiles : Document.Tiles source 0 (Document.parse source).nodes :=
    (Document.parse_reads source).tiles [] rfl
  have fallbackEq : (config.renderOptions base trace).fallback = Config.fallback? config.policy :=
    rfl
  refine ⟨?_, ?_, ?_⟩
  · intro preserves
    rw [preserves] at fallbackEq
    have returned := results.render_preserve tiles sameLogger fallbackEq
    refine ⟨returned, ?_⟩
    intro unknown
    rw [results.filterMap_replacement? unknown, Text.splice_nil] at returned
    exact returned
  · intro empties
    rw [empties] at fallbackEq
    exact results.render_empty tiles sameLogger fallbackEq
  · intro throws
    rw [throws] at fallbackEq
    refine ⟨?_, fun raised => results.render_throw sameLogger fallbackEq⟩
    intro noFault
    exact results.render_eq_splice tiles Outcome.text?
      (results.renderCalls_eq_ok sameLogger noFault)

end

/-- Handlers for `a`, which returns a text, and for `b`, which throws a string. -/
def greetOrThrow : Resolver Unit := fun name world =>
  if name = Text.ofString "a" then
    (.ok (some fun _ _ world => (.ok (.string (Text.ofString "hi")), world)), world)
  else if name = Text.ofString "b" then
    (.ok (some fun _ _ world => (.error (.string (Text.ofString "no")), world)), world)
  else (.ok none, world)

theorem greetOrThrow_answers : greetOrThrow.Answers := by
  intro name state
  rw [greetOrThrow]
  split
  · exact ⟨_, _, rfl⟩
  · split <;> exact ⟨_, _, rfl⟩

theorem greetOrThrow_throwsWithText : greetOrThrow.ThrowsWithText := by
  intro name state handler after resolved arguments call world thrown final throws
  rw [greetOrThrow] at resolved
  split at resolved
  · cases resolved
    cases throws
  · split at resolved
    · cases resolved
      cases throws
      exact ⟨Text.ofString "no", rfl⟩
    · cases resolved

/-- A call that comes to a text, one that fails, and one without a handler. -/
def mixedSource : Text :=
  Text.ofString "<\x7b\x7ba()\x7d\x7d|\x7b\x7bb()\x7d\x7d|\x7b\x7bc()\x7d\x7d>"

theorem calls_mixedSource :
    (Document.parse mixedSource).calls =
      [⟨⟨Text.ofString "a", []⟩, Text.ofString "\x7b\x7ba()\x7d\x7d", ⟨1, 8⟩, ⟨1, 2⟩⟩,
        ⟨⟨Text.ofString "b", []⟩, Text.ofString "\x7b\x7bb()\x7d\x7d", ⟨9, 16⟩, ⟨1, 10⟩⟩,
        ⟨⟨Text.ofString "c", []⟩, Text.ofString "\x7b\x7bc()\x7d\x7d", ⟨17, 24⟩, ⟨1, 18⟩⟩] := by
  have unlocated : (Document.parse mixedSource).calls =
      [⟨⟨Text.ofString "a", []⟩, Text.ofString "\x7b\x7ba()\x7d\x7d", ⟨1, 8⟩,
          (LineIndex.ofText mixedSource).locate (1 : Nat)⟩,
        ⟨⟨Text.ofString "b", []⟩, Text.ofString "\x7b\x7bb()\x7d\x7d", ⟨9, 16⟩,
          (LineIndex.ofText mixedSource).locate (9 : Nat)⟩,
        ⟨⟨Text.ofString "c", []⟩, Text.ofString "\x7b\x7bc()\x7d\x7d", ⟨17, 24⟩,
          (LineIndex.ofText mixedSource).locate (17 : Nat)⟩] := rfl
  rw [unlocated, LineIndex.locate_eq_endPosition (by decide),
    LineIndex.locate_eq_endPosition (by decide), LineIndex.locate_eq_endPosition (by decide)]
  rfl

/-- The options of a configuration whose log entries are dropped. -/
def quietOptions (config : Config) : RenderOptions Unit :=
  config.renderOptions ⟨.silent, none, fun _ world => world⟩ fun _ world => world

/-- Of three calls only the first comes to a text. -/
theorem renderSource_mixedSource :
    greetOrThrow.Answers ∧ greetOrThrow.ThrowsWithText ∧
      (∃ last, renderSource greetOrThrow (quietOptions ⟨[.onError .preserve]⟩) mixedSource () =
        (.ok (Text.ofString "<hi|\x7b\x7bb()\x7d\x7d|\x7b\x7bc()\x7d\x7d>"), last)) ∧
      (∃ last, renderSource greetOrThrow (quietOptions ⟨[.onError .empty]⟩) mixedSource () =
        (.ok (Text.ofString "<hi||>"), last)) ∧
      ∃ last, renderSource greetOrThrow (quietOptions ⟨[]⟩) mixedSource () =
        (.error (.fault (.directiveFailed ⟨Text.ofString "b", 1, 10⟩ (Text.ofString "no")
          (.string (Text.ofString "no")))), last) := by
  have policies := (renderSource_policy greetOrThrow greetOrThrow_answers greetOrThrow_throwsWithText
    (Logger.child ⟨.silent, none, fun _ world => world⟩ engineComponent) (fun _ world => world)
    mixedSource ()).2
  rw [calls_mixedSource] at policies
  have policy := policies _ ()
    (@Outcomes.returned _ _ _ _ (Text.ofString "hi") _ _ _ () _ ⟨_, _, rfl, rfl⟩
      (.failed (.threw rfl rfl rfl) (.failed (.unknown rfl) .done)))
  refine ⟨greetOrThrow_answers, greetOrThrow_throwsWithText, ?_, ?_, ?_⟩
  · exact ((policy ⟨[.onError .preserve]⟩ _ rfl).1 rfl).1
  · exact (policy ⟨[.onError .empty]⟩ _ rfl).2.1 rfl
  · exact ((policy ⟨[]⟩ _ rfl).2.2 rfl).2 _ rfl

end Directive
