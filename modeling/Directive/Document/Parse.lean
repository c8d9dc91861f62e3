import Directive.Call.Scan
import Directive.Document

/-!
# Reading documents

Calls are recognized from left to right.  Where no call begins, one unit is
text, and reading goes on behind it; behind a call it goes on at the call's
end.  Neighbouring units of text make one run.  No text is rejected.
-/

namespace Directive.Document

/-- The text node for a run that ends before `stop`, none if the run is empty.
The run is given in reverse. -/
def textRun (run : Text) (stop : Nat) : List Node :=
  if run.isEmpty then [] else [.text run.reverse ⟨stop - run.length, stop⟩]

/-- The call of `length` units at an offset. -/
def callAt (index : LineIndex) (offset length : Nat) (invocation : Invocation)
    (text : Text) : Call :=
  { invocation with
    raw := text.take length
    span := ⟨offset, offset + length⟩
    position := index.locate offset }

/-- The document of the text that remains at an offset: each call is listed among
the nodes and once more among the calls.  `skip` counts the units still to be
passed over of the call just read, and `run` holds in reverse the text since that
call. -/
def readFrom (index : LineIndex) : (skip offset : Nat) → (run : Text) → Text → Document
  | _, offset, run, [] => ⟨textRun run offset, []⟩
  | skip + 1, offset, run, _ :: rest => readFrom index skip (offset + 1) run rest
  | 0, offset, run, unit :: rest =>
      match Call.recognize? (unit :: rest) with
      | some (invocation, length) =>
          let call := callAt index offset length invocation (unit :: rest)
          let later := readFrom index (length - 1) (offset + 1) [] rest
          ⟨textRun run offset ++ .call call :: later.nodes, call :: later.calls⟩
      | none => readFrom index 0 (offset + 1) (unit :: run) rest

def parse (source : Text) : Document :=
  readFrom (.ofText source) 0 0 [] source

/-- The overflows met while a text is read, in the order in which they are met. -/
def overflowsFrom : (skip : Nat) → Text → List Overflow
  | _, [] => []
  | skip + 1, _ :: rest => overflowsFrom skip rest
  | 0, unit :: rest =>
      match Call.recognize? (unit :: rest) with
      | some (_, length) => overflowsFrom (length - 1) rest
      | none =>
          match Call.overflow? (unit :: rest) with
          | some overflow => overflow :: overflowsFrom 0 rest
          | none => overflowsFrom 0 rest

def overflows (source : Text) : List Overflow :=
  overflowsFrom 0 source

end Directive.Document
