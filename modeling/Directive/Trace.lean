import Directive.Debug
import Directive.Document.Parse

/-!
# Trace of the engine

What the engine tells of its own work on its debug channel: the documents that
it parses, the numerals that it could not take, and the placeholders that it
had to replace.
-/

namespace Directive

inductive TraceEvent where
  /-- A document was parsed from a source. -/
  | parsed (source : Text)
  | outOfRange (numeral : Literal.OutOfRange)
  | placeholderReplaced (placeholder token : Text)

namespace TraceEvent

/-- The longest lexeme that is shown in full. -/
def shownLength : Nat :=
  32

def shorten (lexeme : Text) : Text :=
  if lexeme.length ≤ shownLength then lexeme
  else lexeme.take shownLength ++ Text.ofString "..."

def numeralValues (numeral : Literal.OutOfRange) : List Value :=
  [match numeral.form with
    | .float => .ofString "float literal out of range"
    | .int => .ofString "int literal out of range",
   .string (shorten numeral.lexeme)]

/-- The values of the lines about one overflow: each numeral, then its call. -/
def overflowValues (overflow : Overflow) : List (List Value) :=
  overflow.numerals.map numeralValues ++
    [[.ofString "numeric overflow in argument; call degrades to text",
      .ofRecord [(Text.ofString "argument", .string overflow.argument)]]]

/-- The lines of an event on a channel.  The clock stands at `now` while a
document is parsed. -/
def lines (channel : Debug.Channel) (timestamp : Text) (now : Binary64) :
    TraceEvent → List Debug.Line
  | .parsed source =>
      let document := Document.parse source
      let summary : Record Value :=
        [(Text.ofString "nodes", .ofNat document.nodes.length),
          (Text.ofString "calls", .ofNat document.calls.length)]
      (((Document.overflows source).flatMap overflowValues).flatMap (channel.log timestamp)) ++
        channel.log timestamp [.ofString "parsed document", .ofRecord summary] ++
        channel.time timestamp (Text.ofString "parse") now now
  | .outOfRange numeral => channel.log timestamp (numeralValues numeral)
  | .placeholderReplaced placeholder token =>
      channel.warn timestamp
        [.string (Text.ofString "document text contains " ++ Text.quoted placeholder ++
          Text.ofString "; using " ++ Text.quoted token)]

end TraceEvent

end Directive
