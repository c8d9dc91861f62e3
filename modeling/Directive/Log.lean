import Directive.Value

/-!
# Logging

A logger passes entries at or above its threshold to a sink.  A sink is a
function on the state of the world `World`; what it does with an entry is its
own affair.
-/

namespace Directive

/-- Severities, from the least to the greatest; `silent` is a threshold that no
entry reaches. -/
inductive Level where
  | debug
  | info
  | warn
  | error
  | silent
deriving DecidableEq

namespace Level

def all : List Level :=
  [.debug, .info, .warn, .error, .silent]

def rank : Level → Nat
  | .debug => 0
  | .info => 1
  | .warn => 2
  | .error => 3
  | .silent => 4

def ofRank? (rank : Nat) : Option Level :=
  all[rank]?

/-- The name of a level in log entries. -/
def name : Level → Text
  | .debug => Text.ofString "DEBUG"
  | .info => Text.ofString "INFO"
  | .warn => Text.ofString "WARN"
  | .error => Text.ofString "ERROR"
  | .silent => Text.ofString "SILENT"

/-- The name of a level in configuration. -/
def settingName (level : Level) : Text :=
  level.name.toLower

/-- What the table of level names holds under a name.  The table is a record, so
beside the levels it has what every record inherits. -/
inductive Named where
  | level (level : Level)
  /-- No level, but a value that the table did not put there. -/
  | inherited (value : Value)

/-- The members that every record inherits and whose names have no capitals. -/
def inherited : Record Value :=
  [(Text.ofString "constructor", .function), (Text.ofString "__proto__", .ofRecord [])]

/-- What a name in capitals or small letters stands for. -/
def ofName? (name : Text) : Option Named :=
  match all.find? fun level => level.settingName = name.toLower with
  | some level => some (.level level)
  | none => (inherited.get? name.toLower).map .inherited

/-- The threshold of a logger that is given none. -/
def default : Level :=
  .info

end Level

/-- What happened, without the time at which it did. -/
structure LogEntry where
  level : Level
  message : Text
  component : Option Text
  fields : Record Value

/-- An entry as a record; a field that has the name of a standard one takes its
place. -/
def LogEntry.toRecord (timestamp : Text) (entry : LogEntry) : Record Value :=
  let component := entry.component.toList.map fun path =>
    (Text.ofString "component", Value.string path)
  Record.ofEntries <|
    [(Text.ofString "level", .string entry.level.name),
      (Text.ofString "message", .string entry.message),
      (Text.ofString "timestamp", .string timestamp)] ++ component ++ entry.fields

abbrev Sink (World : Type) :=
  LogEntry → World → World

structure Logger (World : Type) where
  level : Level
  component : Option Text
  sink : Sink World

namespace Logger

variable {World : Type}

/-- Whether an entry of a level is passed on. -/
def isEnabled (logger : Logger World) (level : Level) : Bool :=
  level ≠ .silent && logger.level.rank ≤ level.rank

def log (logger : Logger World) (level : Level) (message : Text) (fields : Record Value)
    (world : World) : World :=
  if logger.isEnabled level then
    logger.sink ⟨level, message, logger.component, fields⟩ world
  else world

/-- The path of a component within another; the empty component has no parts. -/
def componentPath (parent : Option Text) (component : Text) : Text :=
  match parent with
  | none | some [] => component
  | some path => path ++ 0x2E :: component

/-- A logger for a part of what this one logs, with its threshold and sink. -/
def child (logger : Logger World) (component : Text) : Logger World :=
  { logger with component := some (componentPath logger.component component) }

def setLevel (logger : Logger World) (level : Level) : Logger World :=
  { logger with level := level }

/-- The logger of the whole library. -/
def standard (sink : Sink World) : Logger World :=
  ⟨.default, none, sink⟩

end Logger

end Directive
