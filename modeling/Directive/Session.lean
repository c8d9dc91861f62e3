import Directive.Render

/-!
# Sessions

A ready-made state of the world for rendering: it counts invocations, and keeps
what is logged, printed and traced, each in order.
-/

namespace Directive

/-- Which handler of a registry is meant: its number, and below it the numbers
of handlers within handlers. -/
abbrev HandlerPath :=
  List Nat

structure Session where
  counts : List (HandlerPath × Nat)
  logged : Array LogEntry
  printed : Array LogEntry
  traced : Array TraceEvent

namespace Session

def empty : Session :=
  ⟨[], #[], #[], #[]⟩

/-- Keeps entries for the owner of the session. -/
def keep : Sink Session := fun entry session =>
  { session with logged := session.logged.push entry }

/-- Keeps entries as printed. -/
def print : Sink Session := fun entry session =>
  { session with printed := session.printed.push entry }

def trace (event : TraceEvent) (session : Session) : Session :=
  { session with traced := session.traced.push event }

/-- How often a handler was invoked before. -/
def count (session : Session) (path : HandlerPath) : Nat :=
  ((session.counts.find? fun entry => entry.1 = path).map Prod.snd).getD 0

/-- Counts one more invocation of a handler. -/
def invoked (session : Session) (path : HandlerPath) : Session :=
  { session with
    counts := (path, session.count path + 1) ::
      session.counts.filter fun entry => entry.1 ≠ path }

end Session

end Directive
