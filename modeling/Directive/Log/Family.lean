import Directive.Log

/-!
# Families of loggers

Loggers that descend from one root, numbered in order of creation.  The level
of each can be set and read, and each can log.
-/

namespace Directive

/-- What can be done with a family of loggers; loggers are given by number. -/
inductive LoggerStep where
  | child (parent : Nat) (component : Text)
  | setLevel (logger : Nat) (level : Level)
  | log (logger : Nat) (level : Level) (message : Text) (fields : Record Value)

structure LoggerFamily (World : Type) where
  loggers : List (Logger World)

namespace LoggerFamily

variable {World : Type}

def ofRoot (root : Logger World) : LoggerFamily World :=
  ⟨[root]⟩

def get? (family : LoggerFamily World) (logger : Nat) : Option (Logger World) :=
  family.loggers[logger]?

def levels (family : LoggerFamily World) : List Level :=
  family.loggers.map Logger.level

/-- Carries out a step; a step for a number without a logger changes nothing. -/
def step (family : LoggerFamily World) (world : World) :
    LoggerStep → LoggerFamily World × World
  | .child parent component =>
      match family.get? parent with
      | none => (family, world)
      | some logger => (⟨family.loggers ++ [logger.child component]⟩, world)
  | .setLevel number level =>
      (⟨family.loggers.modify number fun logger => logger.setLevel level⟩, world)
  | .log number level message fields =>
      match family.get? number with
      | none => (family, world)
      | some logger => (family, logger.log level message fields world)

def run (family : LoggerFamily World) (world : World) (steps : List LoggerStep) :
    LoggerFamily World × World :=
  steps.foldl (fun state step => state.1.step state.2 step) (family, world)

end LoggerFamily

end Directive
