import Directive.Binary64.Decimal
import Directive.Session

/-!
# Stock handlers and fallbacks

Handlers and fallbacks that can be written down as data, for registries that
are not programmed.
-/

namespace Directive

inductive StockHandler where
  | constant (text : Text)
  /-- A string argument between two texts. -/
  | wrap (argument before after : Text)
  /-- An argument of a kind. -/
  | argument (kind : Literal.Kind) (name : Text)
  /-- An argument of a kind, or a fallback. -/
  | argumentOr (kind : Literal.Kind) (name : Text) (fallback : Value)
  /-- The call as it is written. -/
  | raw
  /-- Line and column of the call. -/
  | place
  /-- The number of arguments and their names. -/
  | names
  /-- All arguments by name. -/
  | record
  /-- The call in canonical form. -/
  | canonical
  /-- How often this handler was invoked, this time included. -/
  | count
  /-- One handler after the other, and then from the first again. -/
  | cycle (handlers : List StockHandler)
  /-- A string argument, rendered as a document. -/
  | rendered (argument : Text)
  | throws (value : Value)
  | returns (value : Value)

/-- The hexadecimal digit of a number below 16. -/
def hexDigit (number : Nat) : CodeUnit :=
  UInt16.ofNat (if number < 10 then 0x30 + number else 0x57 + number)

/-- The 16 hexadecimal digits of a bit pattern. -/
def hexText (bits : UInt64) : Text :=
  (List.range 16).reverse.map fun place => hexDigit (bits.toNat >>> (4 * place) % 16)

/-- An integer in decimal, any other number by its bit pattern. -/
def Binary64.display (number : Binary64) : Text :=
  if number.isSafeInteger && (number.withoutZeroSign == number) then number.toText
  else Text.ofString "f64:" ++ hexText number.toBits

mutual

/-- A plain value as stock handlers show it. -/
def Value.display : Value → Text
  | .string text => Text.enclose [0x27] text
  | .number value => value.display
  | .bool true => Text.ofString "true"
  | .bool false => Text.ofString "false"
  | .array items => 0x5B :: Text.join [0x2C] (Value.displayItems items) ++ [0x5D]
  | .null => Text.ofString "null"
  | _ => Text.ofString "undefined"

def Value.displayItems : List Value → List Text
  | [] => []
  | item :: items => Value.display item :: Value.displayItems items

end

/-- Returns a text, or throws a fault. -/
def settle {World : Type} (result : Except Fault Text) : Action World Value := fun world =>
  match result with
  | .ok text => (.ok (.string text), world)
  | .error raised => (.error (.fault raised), world)

mutual

/-- Carries out a stock handler.  `renderText` renders a source where the
handler asks for it. -/
def StockHandler.run (renderText : Text → Action Session Text) (path : HandlerPath) :
    StockHandler → Handler Session
  | .constant text => fun _ _ => settle (.ok text)
  | .wrap name before after => fun arguments _ =>
      settle ((arguments.required .string name).map fun value =>
        match value with
        | .string text => before ++ text ++ after
        | _ => before ++ after)
  | .argument kind name => fun arguments _ =>
      settle ((arguments.required kind name).map Value.display)
  | .argumentOr kind name fallback => fun arguments _ =>
      settle ((arguments.optional kind name fallback).map Value.display)
  | .raw => fun _ call => settle (.ok call.raw)
  | .place => fun _ call => settle (.ok call.site.place)
  | .names => fun arguments _ =>
      settle (.ok (Text.ofNat arguments.size ++ 0x3A :: Text.join [0x2C] arguments.names))
  | .record => fun arguments _ =>
      settle (.ok (Text.join [0x3B]
        (arguments.toRecord.map fun field => field.1 ++ 0x3D :: field.2.display)))
  | .canonical => fun _ call => settle (.ok call.format)
  | .count => fun _ _ session =>
      (.ok (.string (Text.ofNat (session.count path + 1))), session.invoked path)
  | .cycle handlers => fun arguments call session =>
      let turn := session.count path % handlers.length
      match (StockHandler.runAll renderText path 0 handlers)[turn]? with
      | none => (.ok .undefined, session.invoked path)
      | some handler => handler arguments call (session.invoked path)
  | .rendered name => fun arguments _ session =>
      match arguments.required .string name with
      | .error raised => (.error (.fault raised), session)
      | .ok (.string source) =>
          match renderText source session with
          | (.ok output, session) => (.ok (.string output), session)
          | (.error thrown, session) => (.error thrown, session)
      | .ok _ => (.ok .undefined, session)
  | .throws value => fun _ _ session => (.error value, session)
  | .returns value => fun _ _ session => (.ok value, session)

/-- The handlers within a handler, numbered in order. -/
def StockHandler.runAll (renderText : Text → Action Session Text) (path : HandlerPath)
    (number : Nat) : List StockHandler → List (Handler Session)
  | [] => []
  | handler :: handlers =>
      StockHandler.run renderText (path ++ [number]) handler ::
        StockHandler.runAll renderText path (number + 1) handlers

end

/-- Handlers under their names, each with its number. -/
abbrev StockBook :=
  Record (Nat × StockHandler)

/-- Finds handlers in a book, which no request changes.  Handlers that render a
source use the book again, at most `depth` times one within the other. -/
def StockBook.resolver (book : StockBook) (options : RenderOptions Session) :
    (depth : Nat) → Resolver Session
  | 0, name, session =>
      (.ok ((book.get? name).map fun (number, handler) =>
        handler.run (fun _ session => (.error .undefined, session)) [number]), session)
  | depth + 1, name, session =>
      (.ok ((book.get? name).map fun (number, handler) =>
        handler.run (renderSource (resolver book options depth) options) [number]), session)

/-- A depth that suffices for a document: a source that is rendered within it
stands in an argument, and is shorter than the call. -/
def StockBook.sufficientDepth (document : Document) : Nat :=
  document.serialize.length

inductive StockFallback where
  | constant (text : Text)
  | raw
  | name
  | message
  | report
  | rethrow
  | throws (value : Value)

def StockFallback.run {World : Type} : StockFallback → Fallback World
  | .constant text, _, _, world => (.ok text, world)
  | .raw, _, call, world => (.ok call.raw, world)
  | .name, _, call, world => (.ok call.name, world)
  | .message, raised, _, world => (.ok raised.message, world)
  | .report, raised, _, world => (raised.report, world)
  | .rethrow, raised, _, world => (.error (.fault raised), world)
  | .throws value, _, _, world => (.error value, world)

end Directive
