import Directive.Proofs.Render.Dispatch
import Directive.Proofs.Render.Sequence

/-!
# Effects of rendering, in order

Handlers, the fallback and the log are watched in a world that records what they
do.  The record of a run is made up of the records of the calls that it reaches,
in the order of the document, and it ends with the first call that is not
rendered.  The threshold of the logger decides which entries are recorded, and
nothing else.
-/

namespace Directive

/-- What can be observed of a run from outside. -/
inductive Effect where
  /-- The handler of a call was invoked. -/
  | invoked (call : Call)
  /-- The fallback was asked about a call that failed. -/
  | asked (raised : Fault) (call : Call)
  | logged (entry : LogEntry)

namespace Effect

/-- Whether an effect happens under a threshold: only of entries some do not. -/
def passes (threshold : Level) : Effect → Bool
  | .logged entry => threshold.rank ≤ entry.level.rank
  | .invoked _ | .asked _ _ => true

def invocation? : Effect → Option Call
  | .invoked call => some call
  | .asked _ _ | .logged _ => none

def entry? : Effect → Option LogEntry
  | .logged entry => some entry
  | .invoked _ | .asked _ _ => none

end Effect

/-- A state of handlers and fallback, and the effects up to now. -/
structure Recorded (State : Type) where
  state : State
  effects : List Effect

section

variable {State : Type}

/-- The action on the state alone, which is an effect. -/
def Action.recorded {α : Type} (action : Action State α) (effect : Effect) :
    Action (Recorded State) α := fun recorded =>
  let (result, state) := action recorded.state
  (result, ⟨state, recorded.effects ++ [effect]⟩)

def Handler.recorded (handler : Handler State) : Handler (Recorded State) :=
  fun arguments call => Action.recorded (handler arguments call) (.invoked call)

def Fallback.recorded (fallback : Fallback State) : Fallback (Recorded State) :=
  fun raised call => Action.recorded (fallback raised call) (.asked raised call)

/-- Looking up a name is no effect, but the state may change on the way. -/
def Resolver.recorded (resolve : Resolver State) : Resolver (Recorded State) :=
  fun name recorded =>
    let (result, state) := resolve name recorded.state
    (result.map (Option.map Handler.recorded), ⟨state, recorded.effects⟩)

/-- A logger whose entries are effects. -/
def Logger.recording (threshold : Level) (component : Option Text) : Logger (Recorded State) :=
  ⟨threshold, component, fun entry recorded =>
    { recorded with effects := recorded.effects ++ [.logged entry] }⟩

def RenderOptions.recording (threshold : Level) (component : Option Text)
    (fallback : Option (Fallback State)) : RenderOptions (Recorded State) where
  logger := .recording threshold component
  fallback := fallback.map Fallback.recorded
  trace := fun _ recorded => recorded

/-! ## Entries of the log -/

/-- The entry of a call that is reached. -/
def Call.dispatchingEntry (call : Call) (component : Option Text) : LogEntry where
  level := .debug
  message := Text.ofString "dispatching directive"
  component := component
  fields :=
    [(Text.ofString "directive", .string call.name),
      (Text.ofString "line", .ofInt call.position.line),
      (Text.ofString "column", .ofInt call.position.column)]

/-- The entry of a call that is handed to the fallback. -/
def Call.replacedEntry (call : Call) (raised : Fault) (component : Option Text) : LogEntry where
  level := .warn
  message := Text.ofString "directive replaced by fallback"
  component := component
  fields :=
    [(Text.ofString "directive", .string call.name),
      (Text.ofString "code", .string raised.code.text),
      (Text.ofString "line", .ofInt call.position.line),
      (Text.ofString "column", .ofInt call.position.column)]

/-- The entry of a document that is rendered to its end. -/
def Document.renderedEntry (document : Document) (component : Option Text) : LogEntry where
  level := .debug
  message := Text.ofString "rendered document"
  component := component
  fields :=
    [(Text.ofString "nodes", .ofNat document.nodes.length),
      (Text.ofString "calls", .ofNat document.calls.length)]

/-! ## Visits -/

/-- How a visit to a call ends. -/
inductive Ending where
  /-- The handler returned a text. -/
  | returned (text : Text)
  /-- The call failed, and the fallback gave a text in its place or threw. -/
  | replaced (raised : Fault) (answer : Except Value Text)
  /-- The call failed, and nothing was put in its place. -/
  | failed (thrown : Value)

/-- What became of a call that a run reached, and whether its name had a handler
then. -/
structure Visit where
  call : Call
  resolved : Bool
  ending : Ending

namespace Visit

/-- What the call is rendered to, or what is thrown. -/
def result (visit : Visit) : Except Value Text :=
  match visit.ending with
  | .returned text => .ok text
  | .replaced _ answer => answer
  | .failed thrown => .error thrown

/-- The call is dispatched in a state, and this is what becomes of it.  The
fallback is asked exactly about faults that calls raise. -/
inductive Happens (resolve : Resolver State) (fallback : Option (Fallback State)) :
    State → Visit → State → Prop where
  | returned {call : Call} {text : Text} {before after : State} :
      call.Returns resolve before text after →
      Happens resolve fallback before ⟨call, true, .returned text⟩ after
  | replaced {call : Call} {resolved : Bool} {raised : Fault} {answers : Fallback State}
      {answer : Except Value Text} {before middle after : State} :
      (resolved ↔ call.Resolves resolve before) →
      call.Throws resolve before (.fault raised) middle → raised.isFromCall →
      fallback = some answers → answers raised call middle = (answer, after) →
      Happens resolve fallback before ⟨call, resolved, .replaced raised answer⟩ after
  | failed {call : Call} {resolved : Bool} {thrown : Value} {before after : State} :
      (resolved ↔ call.Resolves resolve before) →
      call.Throws resolve before thrown after →
      (fallback = none ∨ ∀ raised, thrown = .fault raised → raised.isFromCall = false) →
      Happens resolve fallback before ⟨call, resolved, .failed thrown⟩ after

/-- The invocation of the handler, if the name of the call has one. -/
def invocations (visit : Visit) : List Effect :=
  if visit.resolved then [.invoked visit.call] else []

/-- A warning comes before the question to the fallback. -/
def replacement (component : Option Text) (visit : Visit) : List Effect :=
  match visit.ending with
  | .replaced raised _ =>
      [.logged (visit.call.replacedEntry raised component), .asked raised visit.call]
  | .returned _ | .failed _ => []

/-- All that happens because a call is reached. -/
def effects (component : Option Text) (visit : Visit) : List Effect :=
  .logged (visit.call.dispatchingEntry component) ::
    (visit.invocations ++ visit.replacement component)

end Visit

/-- The visits of a run through calls, and what the run comes to: the texts of
all calls, or what the first call throws that is not rendered. -/
inductive Course (resolve : Resolver State) (fallback : Option (Fallback State)) :
    State → List Call → List Visit → Except Value (List Text) → State → Prop where
  | done {state : State} : Course resolve fallback state [] [] (.ok []) state
  | stopped {visit : Visit} {calls : List Call} {thrown : Value} {before after : State} :
      visit.Happens resolve fallback before after → visit.result = .error thrown →
      Course resolve fallback before (visit.call :: calls) [visit] (.error thrown) after
  | next {visit : Visit} {calls : List Call} {visits : List Visit} {text : Text}
      {outcome : Except Value (List Text)} {before middle final : State} :
      visit.Happens resolve fallback before middle → visit.result = .ok text →
      Course resolve fallback middle calls visits outcome final →
      Course resolve fallback before (visit.call :: calls) (visit :: visits)
        (outcome.map (text :: ·)) final

variable {resolve : Resolver State} {fallback : Option (Fallback State)} {threshold : Level}
  {component : Option Text} {visit : Visit} {calls : List Call} {visits : List Visit}
  {outcome : Except Value (List Text)} {state before after final : State}
  {effects : List Effect}

/-! ## One call -/

/-- An entry is recorded if it passes the threshold. -/
theorem Logger.log_recording {level : Level} (loud : level ≠ .silent) (message : Text)
    (fields : Record Value) :
    (Logger.recording threshold component).log level message fields ⟨state, effects⟩ =
      ⟨state, effects ++ [Effect.logged ⟨level, message, component, fields⟩].filter
        (Effect.passes threshold)⟩ := by
  by_cases reaches : threshold.rank ≤ level.rank
  · simp [Logger.log, Logger.isEnabled, Logger.recording, Effect.passes, loud, reaches]
  · simp [Logger.log, Logger.isEnabled, Logger.recording, Effect.passes, reaches]

/-- A call is dispatched as on the state alone, and its handler is invoked once
if there is one. -/
theorem dispatch_recorded {call : Call} {resolved : Bool} {result : Except Value Text}
    (resolves : resolved ↔ call.Resolves resolve before)
    (dispatched : dispatch resolve call before = (result, after)) (effects : List Effect) :
    dispatch resolve.recorded call ⟨before, effects⟩ =
      (result, ⟨after, effects ++ if resolved then [.invoked call] else []⟩) := by
  rw [Call.resolves_iff] at resolves
  rw [dispatch] at dispatched ⊢
  rw [Resolver.recorded]
  rcases found : resolve call.name before with ⟨thrown | _ | handler, middle⟩
  · have unresolved : resolved = false := by simpa [found] using resolves
    simp only [found] at dispatched
    cases dispatched
    simp [unresolved, Except.map]
  · have unresolved : resolved = false := by simpa [found] using resolves
    simp only [found] at dispatched
    cases dispatched
    simp [unresolved, Except.map]
  · have isResolved : resolved = true := by simpa [found] using resolves
    simp only [found] at dispatched
    simp only [isResolved, if_true, Except.map, Option.map_some, Handler.recorded,
      Action.recorded]
    split at dispatched
    · next thrown last threw =>
        cases dispatched
        simp only [threw]
    · next text last returned =>
        cases dispatched
        simp only [returned]
    · next value last noString returned =>
        cases dispatched
        simp only [returned]

theorem Visit.exists_happens (resolve : Resolver State) (fallback : Option (Fallback State))
    (call : Call) (before : State) :
    ∃ visit after, visit.call = call ∧ Visit.Happens resolve fallback before visit after := by
  classical
  have resolves : decide (call.Resolves resolve before) ↔ call.Resolves resolve before :=
    decide_eq_true_iff
  rcases dispatch_cases resolve call before with
    ⟨text, after, -, returns⟩ | ⟨thrown, middle, -, throws⟩
  · exact ⟨⟨call, true, .returned text⟩, after, rfl, .returned returns⟩
  · cases reported : callFault? thrown with
    | none =>
        refine ⟨⟨call, _, .failed thrown⟩, middle, rfl, .failed resolves throws (.inr ?_)⟩
        intro raised same
        subst same
        simpa [callFault?] using reported
    | some raised =>
        obtain ⟨rfl, fromCall⟩ := callFault?_eq_some_iff.mp reported
        cases fallback with
        | none =>
            exact ⟨⟨call, _, .failed _⟩, middle, rfl, .failed resolves throws (.inl rfl)⟩
        | some answers =>
            exact ⟨⟨call, _, .replaced raised _⟩, _, rfl,
              .replaced resolves throws fromCall rfl rfl⟩

theorem Visit.filter_effects :
    (visit.effects component).filter (Effect.passes threshold) =
      [Effect.logged (visit.call.dispatchingEntry component)].filter (Effect.passes threshold) ++
        (visit.invocations ++
          (visit.replacement component).filter (Effect.passes threshold)) := by
  have invocationsPass : visit.invocations.filter (Effect.passes threshold) =
      visit.invocations := by
    rw [invocations]
    split <;> rfl
  rw [effects, ← List.singleton_append, List.filter_append, List.filter_append, invocationsPass]

/-- What rendering a call does is what the visit says. -/
theorem Visit.Happens.renderCall (happens : visit.Happens resolve fallback before after)
    (threshold : Level) (component : Option Text) (effects : List Effect) :
    Directive.renderCall resolve.recorded (.recording threshold component fallback) visit.call
        ⟨before, effects⟩ =
      (visit.result, ⟨after, effects ++
        (visit.effects component).filter (Effect.passes threshold)⟩) := by
  have announced : ∀ call : Call,
      (RenderOptions.recording threshold component fallback).logger.log .debug
          (Text.ofString "dispatching directive") call.logFields ⟨before, effects⟩ =
        ⟨before, effects ++ [Effect.logged (call.dispatchingEntry component)].filter
          (Effect.passes threshold)⟩ :=
    fun call => Logger.log_recording (by decide) _ _
  rw [Directive.renderCall, announced, filter_effects, ← List.append_assoc]
  cases happens with
  | returned returns =>
      rw [dispatch_recorded (iff_of_true rfl returns.resolves) returns.dispatch]
      simp only [Visit.result, replacement, invocations, List.filter_nil, List.append_nil]
  | @replaced call resolved raised answers answer _ middle _ resolves throws fromCall hasFallback
      answered =>
      have reported : callFault? (.fault raised) = some raised :=
        callFault?_eq_some_iff.mpr ⟨rfl, fromCall⟩
      rw [dispatch_recorded resolves throws.dispatch]
      simp only [RenderOptions.recording, hasFallback, Option.map_some, reported]
      rw [Logger.log_recording (by decide), Fallback.recorded, Action.recorded]
      have parts : ([.logged (call.replacedEntry raised component),
            .asked raised call] : List Effect).filter (Effect.passes threshold) =
          [Effect.logged (call.replacedEntry raised component)].filter
            (Effect.passes threshold) ++ [.asked raised call] := by
        rw [← List.singleton_append, List.filter_append]
        rfl
      simp only [answered, Visit.result, replacement, invocations, parts, List.append_assoc]
      rfl
  | @failed call resolved thrown _ _ resolves throws unreplaced =>
      rw [dispatch_recorded resolves throws.dispatch]
      have passed : (RenderOptions.recording threshold component fallback).fallback = none ∨
          callFault? thrown = none := by
        rcases unreplaced with noFallback | noFault
        · exact .inl (by rw [RenderOptions.recording, noFallback]; rfl)
        · cases thrown with
          | fault raised => exact .inr (by simp [callFault?, noFault raised rfl])
          | _ => exact .inr rfl
      simp only [Visit.result, replacement, invocations, List.filter_nil, List.append_nil]
      split
      · next hasFallback reported =>
          simp [hasFallback, reported] at passed
      · rfl

/-! ## All calls -/

namespace Course

theorem exist (resolve : Resolver State) (fallback : Option (Fallback State))
    (calls : List Call) (state : State) :
    ∃ visits outcome final, Course resolve fallback state calls visits outcome final := by
  induction calls generalizing state with
  | nil => exact ⟨[], .ok [], state, .done⟩
  | cons call calls ih =>
      obtain ⟨visit, middle, rfl, happens⟩ := Visit.exists_happens resolve fallback call state
      cases result : visit.result with
      | error thrown => exact ⟨_, _, _, .stopped happens result⟩
      | ok text =>
          obtain ⟨visits, outcome, final, later⟩ := ih middle
          exact ⟨_, _, _, .next happens result later⟩

theorem renderCalls (course : Course resolve fallback state calls visits outcome final)
    (threshold : Level) (component : Option Text) (effects : List Effect) :
    Directive.renderCalls resolve.recorded (.recording threshold component fallback) calls
        ⟨state, effects⟩ =
      (outcome, ⟨final, effects ++
        (visits.flatMap (Visit.effects component)).filter (Effect.passes threshold)⟩) := by
  induction course generalizing effects with
  | done => simp [Directive.renderCalls]
  | stopped happens result =>
      rw [Directive.renderCalls, happens.renderCall, result]
      simp
  | @next visit calls visits text outcome _ _ _ happens result _ ih =>
      rw [Directive.renderCalls, happens.renderCall, result]
      simp only [ih, List.flatMap_cons, List.filter_append, List.append_assoc]
      cases outcome <;> rfl

/-- Calls are visited in order, each once. -/
theorem map_call (course : Course resolve fallback state calls visits outcome final) :
    visits.map Visit.call = calls.take visits.length := by
  induction course with
  | done => rfl
  | stopped _ _ => rfl
  | next _ _ _ ih => simp [ih]

/-- Only the last visit can throw, and then the run does. -/
theorem results (course : Course resolve fallback state calls visits outcome final) :
    (∃ texts : List Text, outcome = .ok texts ∧ visits.map Visit.call = calls ∧
        visits.map Visit.result = texts.map .ok) ∨
      ∃ thrown earlier last, outcome = .error thrown ∧ visits = earlier ++ [last] ∧
        (∀ visit ∈ earlier, ∃ text, visit.result = .ok text) ∧ last.result = .error thrown := by
  induction course with
  | done => exact .inl ⟨[], rfl, rfl, rfl⟩
  | @stopped visit _ thrown _ _ _ result =>
      exact .inr ⟨thrown, [], visit, rfl, rfl, by simp, result⟩
  | @next visit _ _ text _ _ _ _ _ result _ ih =>
      rcases ih with ⟨texts, rfl, all, same⟩ | ⟨thrown, earlier, last, rfl, rfl, texts, threw⟩
      · exact .inl ⟨text :: texts, rfl, by simp [all], by simp [result, same]⟩
      · exact .inr ⟨thrown, visit :: earlier, last, rfl, rfl,
          List.forall_mem_cons.mpr ⟨⟨text, result⟩, texts⟩, threw⟩

end Course

/-! ## Whole documents -/

/-- What happens behind the last call: a document is reported as rendered only
when all its calls are. -/
def Document.closing (document : Document) (component : Option Text) :
    Except Value (List Text) → List Effect
  | .ok _ => [.logged (document.renderedEntry component)]
  | .error _ => []

theorem Course.render {document : Document}
    (course : Course resolve fallback state document.callNodes visits outcome final)
    (threshold : Level) (component : Option Text) :
    Directive.render resolve.recorded (.recording threshold component fallback) document
        ⟨state, []⟩ =
      (outcome.map (Node.fill document.nodes),
        ⟨final, (visits.flatMap (Visit.effects component) ++
          document.closing component outcome).filter (Effect.passes threshold)⟩) := by
  have calls := course.renderCalls threshold component []
  rw [List.nil_append] at calls
  cases outcome with
  | ok texts =>
      rw [List.filter_append]
      refine render_eq_ok_iff.mpr ⟨_, renderNodes_eq_ok_iff.mpr ⟨texts, calls, rfl⟩, ?_⟩
      exact Logger.log_recording (by decide) _ _
  | error thrown =>
      rw [Document.closing, List.append_nil]
      exact render_eq_error_iff.mpr (renderNodes_eq_error_iff_renderCalls.mpr calls)

theorem Visit.filterMap_invocation?_effects :
    (visit.effects component).filterMap Effect.invocation? =
      ([visit].filter Visit.resolved).map Visit.call := by
  have answered : (visit.replacement component).filterMap Effect.invocation? = [] := by
    rw [replacement]
    split <;> rfl
  rw [effects, List.filterMap_cons_none rfl, List.filterMap_append, answered, List.append_nil,
    invocations]
  by_cases found : visit.resolved
  · simp [found, Effect.invocation?]
  · simp [found]

/-- The handlers of the calls that are visited are invoked, each once. -/
theorem Visit.filterMap_invocation?_flatMap :
    (visits.flatMap (Visit.effects component)).filterMap Effect.invocation? =
      (visits.filter Visit.resolved).map Visit.call := by
  induction visits with
  | nil => rfl
  | cons visit visits ih =>
      rw [List.flatMap_cons, List.filterMap_append, filterMap_invocation?_effects, ih,
        ← List.map_append, ← List.filter_append]
      rfl

theorem Effect.filterMap_invocation?_filter (threshold : Level) (effects : List Effect) :
    (effects.filter (passes threshold)).filterMap invocation? =
      effects.filterMap invocation? := by
  rw [List.filterMap_filter]
  congr 1
  funext effect
  cases effect with
  | logged entry => simp [invocation?]
  | _ => rfl

theorem Effect.filterMap_entry?_filter (threshold : Level) (effects : List Effect) :
    (effects.filter (passes threshold)).filterMap entry? =
      (effects.filterMap entry?).filter fun entry => threshold.rank ≤ entry.level.rank := by
  rw [List.filterMap_filter, List.filter_filterMap]
  congr 1
  funext effect
  cases effect with
  | logged entry =>
      by_cases reaches : threshold.rank ≤ entry.level.rank
      · simp [passes, entry?, reaches, Option.filter]
      · simp [passes, entry?, reaches, Option.filter]
  | _ => rfl

/-- A run visits calls in the order of the document, up to the first that is not
rendered, and its effects are those of the visits, one visit after the other: the
entry of the call, the invocation of its handler if its name has one when it is
looked up, and, where a fallback is asked about a fault, the warning and the
question.  Behind them the
document is reported exactly if all calls are rendered.  Under every threshold the
run comes to the same, handlers and fallback run on the same states, and of the
entries those at or above the threshold are left. -/
theorem render_effects (resolve : Resolver State) (fallback : Option (Fallback State))
    (component : Option Text) (document : Document) (state : State) :
    ∃ visits outcome final effects,
      Course resolve fallback state document.callNodes visits outcome final ∧
      effects = visits.flatMap (Visit.effects component) ++
        document.closing component outcome ∧
      ((∃ texts : List Text, outcome = .ok texts ∧ visits.map Visit.call = document.callNodes ∧
          visits.map Visit.result = texts.map .ok) ∨
        ∃ thrown earlier last, outcome = .error thrown ∧ visits = earlier ++ [last] ∧
          (∀ visit ∈ earlier, ∃ text, visit.result = .ok text) ∧ last.result = .error thrown) ∧
      visits.map Visit.call = document.callNodes.take visits.length ∧
      effects.filterMap Effect.invocation? = (visits.filter Visit.resolved).map Visit.call ∧
      effects.filter (Effect.passes .debug) = effects ∧
      ∀ threshold,
        render resolve.recorded (.recording threshold component fallback) document ⟨state, []⟩ =
          (outcome.map (Node.fill document.nodes),
            ⟨final, effects.filter (Effect.passes threshold)⟩) ∧
        (effects.filter (Effect.passes threshold)).filterMap Effect.invocation? =
          effects.filterMap Effect.invocation? ∧
        (effects.filter (Effect.passes threshold)).filterMap Effect.entry? =
          (effects.filterMap Effect.entry?).filter fun entry =>
            threshold.rank ≤ entry.level.rank := by
  obtain ⟨visits, outcome, final, course⟩ := Course.exist resolve fallback document.callNodes state
  refine ⟨visits, outcome, final, _, course, rfl, course.results, course.map_call, ?_, ?_, ?_⟩
  · have closed : (document.closing component outcome).filterMap Effect.invocation? = [] := by
      cases outcome <;> rfl
    rw [List.filterMap_append, closed, List.append_nil, Visit.filterMap_invocation?_flatMap]
  · apply List.filter_eq_self.mpr
    intro effect _
    cases effect with
    | logged entry => simp [Effect.passes, Level.rank]
    | _ => rfl
  · intro threshold
    exact ⟨course.render threshold component, Effect.filterMap_invocation?_filter threshold _,
      Effect.filterMap_entry?_filter threshold _⟩

end

end Directive
