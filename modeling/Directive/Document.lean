import Directive.Call

/-!
# Documents

A document is a sequence of text runs and directive calls.  It can be put
together again as it was written, or written anew with every call in canonical
form.
-/

namespace Directive

inductive Node where
  | text (value : Text) (span : Span)
  | call (call : Call)

namespace Node

def span : Node → Span
  | .text _ span => span
  | .call directive => directive.span

def call? : Node → Option Call
  | .text _ _ => none
  | .call directive => some directive

/-- The node as it was written. -/
def raw : Node → Text
  | .text value _ => value
  | .call directive => directive.raw

/-- The node with a call in canonical form; text is written unchanged. -/
def format : Node → Text
  | .text value _ => value
  | .call directive => directive.format

end Node

/-- The nodes of a document, and its calls once more by themselves. -/
structure Document where
  nodes : List Node
  calls : List Call

namespace Document

/-- The calls among the nodes, in order. -/
def callNodes (document : Document) : List Call :=
  document.nodes.filterMap Node.call?

/-- The document of some nodes, with the calls among them. -/
def ofNodes (nodes : List Node) : Document :=
  ⟨nodes, nodes.filterMap Node.call?⟩

/-- The text that the nodes were read from. -/
def reconstruct (document : Document) : Text :=
  document.nodes.flatMap Node.raw

/-- The document with every call in canonical form. -/
def serialize (document : Document) : Text :=
  document.nodes.flatMap Node.format

end Document

end Directive
