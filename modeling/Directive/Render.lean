import Directive.Arguments
import Directive.Log
import Directive.Trace
import Directive.Value.Conversion

/-!
# Rendering

Text is copied and every call is replaced by what its handler returns, in the
order of the document.  Handlers, fallbacks and sinks act on a state of the
caller's own type `World`, which rendering only hands on from one to the next.
-/

namespace Directive

/-- A computation that may throw a value; the state survives a throw. -/
abbrev Action (World α : Type) :=
  World → Except Value α × World

/-- Renders one call; only a string is a success. -/
abbrev Handler (World : Type) :=
  Arguments → Call → Action World Value

/-- Finds the handler of a directive.  A registry may change from one request to
the next, and a request may throw. -/
abbrev Resolver (World : Type) :=
  Text → Action World (Option (Handler World))

/-- Gives the text for a call that failed, or throws. -/
abbrev Fallback (World : Type) :=
  Fault → Call → Action World Text

structure RenderOptions (World : Type) where
  logger : Logger World
  fallback : Option (Fallback World)
  trace : TraceEvent → World → World

namespace Call

/-- A call as faults name it. -/
def site (call : Call) : Site :=
  ⟨call.name, call.position.line, call.position.column⟩

/-- A call as log entries name it. -/
def logFields (call : Call) : Record Value :=
  call.site.toRecord

end Call

section

variable {World : Type}

/-- The fault of a call whose handler threw a value.  A value that has no text
cannot be told in a message, and what is thrown on the way to its text takes its
place. -/
def handlerFailure (call : Call) (thrown : Value) : Value :=
  match thrown.reason with
  | .ok reason => .fault (.directiveFailed call.site reason thrown)
  | .error other => other

/-- The error of a handler that returned no string. -/
def noStringError (returned : Value) : Value :=
  let returnedName :=
    match returned with
    | .null => Text.ofString "null"
    | other => other.typeName
  .typeError
    (Text.ofString "Handler returned " ++ returnedName ++
      Text.ofString " instead of a string")

/-- Calls the handler of a directive.  Only what the handler throws is a failure
of the call: what the registry throws is thrown on. -/
def dispatch (resolve : Resolver World) (call : Call) : Action World Text := fun world =>
  match resolve call.name world with
  | (.error thrown, world) => (.error thrown, world)
  | (.ok none, world) => (.error (.fault (.unknownDirective call.site)), world)
  | (.ok (some handler), world) =>
      match handler ⟨call.arguments⟩ call world with
      | (.error thrown, world) => (.error (handlerFailure call thrown), world)
      | (.ok (.string text), world) => (.ok text, world)
      | (.ok returned, world) => (.error (handlerFailure call (noStringError returned)), world)

/-- The fault of a call that a thrown value reports, if it reports one. -/
def callFault? : Value → Option Fault
  | .fault raised => if raised.isFromCall then some raised else none
  | _ => none

/-- Renders a call, and hands its fault to the fallback if there is one. -/
def renderCall (resolve : Resolver World) (options : RenderOptions World) (call : Call) :
    Action World Text := fun world =>
  let world := options.logger.log .debug (Text.ofString "dispatching directive")
    call.logFields world
  match dispatch resolve call world with
  | (.ok text, world) => (.ok text, world)
  | (.error thrown, world) =>
      match options.fallback, callFault? thrown with
      | some fallback, some raised =>
          let fields : Record Value :=
            [(Text.ofString "directive", .string call.name),
              (Text.ofString "code", .string raised.code.text),
              (Text.ofString "line", .ofInt call.position.line),
              (Text.ofString "column", .ofInt call.position.column)]
          fallback raised call
            (options.logger.log .warn (Text.ofString "directive replaced by fallback")
              fields world)
      | _, _ => (.error thrown, world)

def renderNode (resolve : Resolver World) (options : RenderOptions World) :
    Node → Action World Text
  | .text value _, world => (.ok value, world)
  | .call directive, world => renderCall resolve options directive world

/-- Renders nodes in order, up to the first that throws. -/
def renderNodes (resolve : Resolver World) (options : RenderOptions World) :
    List Node → Action World Text
  | [], world => (.ok [], world)
  | node :: nodes, world =>
      match renderNode resolve options node world with
      | (.error thrown, world) => (.error thrown, world)
      | (.ok text, world) =>
          match renderNodes resolve options nodes world with
          | (.error thrown, world) => (.error thrown, world)
          | (.ok rest, world) => (.ok (text ++ rest), world)

def render (resolve : Resolver World) (options : RenderOptions World) (document : Document) :
    Action World Text := fun world =>
  match renderNodes resolve options document.nodes world with
  | (.error thrown, world) => (.error thrown, world)
  | (.ok output, world) =>
      let fields : Record Value :=
        [(Text.ofString "nodes", .ofNat document.nodes.length),
          (Text.ofString "calls", .ofNat document.calls.length)]
      (.ok output, options.logger.log .debug (Text.ofString "rendered document") fields world)

/-- Renders a document and returns a fault of one of its calls in place of
throwing it.  All else that is thrown is thrown on. -/
def tryRender (resolve : Resolver World) (options : RenderOptions World)
    (document : Document) : Action World (Except Fault Text) := fun world =>
  match render resolve options document world with
  | (.ok output, world) => (.ok (.ok output), world)
  | (.error thrown, world) =>
      match callFault? thrown with
      | some raised => (.ok (.error raised), world)
      | none => (.error thrown, world)

/-- Parses a source and renders it. -/
def renderSource (resolve : Resolver World) (options : RenderOptions World) (source : Text) :
    Action World Text := fun world =>
  render resolve options (Document.parse source) (options.trace (.parsed source) world)

/-- Renders calls in order, up to the first that throws. -/
def renderCalls (resolve : Resolver World) (options : RenderOptions World) :
    List Call → Action World (List Text)
  | [], world => (.ok [], world)
  | call :: calls, world =>
      match renderCall resolve options call world with
      | (.error thrown, world) => (.error thrown, world)
      | (.ok text, world) =>
          match renderCalls resolve options calls world with
          | (.error thrown, world) => (.error thrown, world)
          | (.ok rest, world) => (.ok (text :: rest), world)

end

/-- The component under which the engine logs. -/
def engineComponent : Text :=
  Text.ofString "shortcode"

end Directive
