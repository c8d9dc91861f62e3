import Directive.Document
import Directive.Fault
import Directive.Text.Search
import Directive.Trace

/-!
# Placeholders

Calls can be lifted out of a document, so that the text goes through another
processor with a token in place of each call, and what the calls render to can
be put back.  The token is the placeholder, or the placeholder with a number
behind it where the text of the document has the placeholder itself.
-/

namespace Directive

/-- A call that was lifted out, and where its token stands. -/
structure PlacedCall where
  call : Call
  span : Span

structure Extraction where
  text : Text
  calls : List PlacedCall
  placeholder : Text

namespace Placeholder

def default : Text :=
  Text.ofString "@@TESSERA_SHORTCODE@@"

/-- The numbered tokens that are tried after the placeholder itself. -/
def maxAttempts : Nat :=
  1000

/-- The token of an attempt. -/
def token (placeholder : Text) (attempt : Nat) : Text :=
  if attempt = 0 then placeholder else placeholder ++ Text.ofNat attempt

/-- The text of nodes with a token for every call, and where the tokens stand
when the text begins at an offset. -/
def substituteFrom (token : Text) (offset : Nat) : List Node → Text × List PlacedCall
  | [] => ([], [])
  | .text value _ :: nodes =>
      let (text, calls) := substituteFrom token (offset + value.length) nodes
      (value ++ text, calls)
  | .call directive :: nodes =>
      let stop := offset + token.length
      let (text, calls) := substituteFrom token stop nodes
      (token ++ text, ⟨directive, ⟨offset, stop⟩⟩ :: calls)

def substitute (token : Text) (document : Document) : Extraction :=
  let (text, calls) := substituteFrom token 0 document.nodes
  ⟨text, calls, token⟩

/-- Whether a search from left to right through the text that begins at an
offset finds the token at the given spans and nowhere else. -/
def foundExactlyAt (token : Text) (offset : Nat) (text : Text) : List Span → Bool
  | [] => (Text.findFrom token offset text).isNone
  | span :: spans =>
      match Text.findFrom token offset text with
      | none => false
      | some start =>
          start == span.start &&
            foundExactlyAt token span.stop.toNat (text.drop (span.stop.toNat - offset)) spans

/-- Whether the tokens of an extraction are all that a search finds. -/
def isExact (extraction : Extraction) : Bool :=
  foundExactlyAt extraction.placeholder 0 extraction.text
    (extraction.calls.map PlacedCall.span)

/-- Lifts the calls out of a document.  The first token is taken that a search
finds at the calls and nowhere else. -/
def extract (document : Document) (placeholder : Text) : Except Fault Extraction :=
  if placeholder.isBlank then .error .blankPlaceholder
  else
    let attempt? := fun attempt =>
      let extraction := substitute (token placeholder attempt) document
      if isExact extraction then some extraction else none
    match (List.range (maxAttempts + 1)).findSome? attempt? with
    | some extraction => .ok extraction
    | none => .error (.noFreePlaceholder placeholder)

/-- What is traced of an extraction: that the placeholder was replaced, if it
was. -/
def events (placeholder : Text) (extraction : Extraction) : List TraceEvent :=
  if extraction.placeholder = placeholder then []
  else [.placeholderReplaced placeholder extraction.placeholder]

/-- Pieces of text with other texts between them. -/
def interleave : (pieces between : List Text) → Text
  | piece :: pieces, text :: between => piece ++ text ++ interleave pieces between
  | pieces, _ => pieces.flatten

/-- Puts texts in the places of the placeholders, in order.  There must be as
many texts as placeholders. -/
def restore (text : Text) (rendered : List Text) (placeholder : Text) : Except Fault Text :=
  if placeholder.isBlank then .error .blankPlaceholder
  else
    let pieces := Text.split placeholder text
    let found := pieces.length - 1
    if found = rendered.length then .ok (interleave pieces rendered)
    else .error (.placeholderMismatch rendered.length found)

end Placeholder

end Directive
