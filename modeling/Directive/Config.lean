import Directive.Log
import Directive.Render
import Directive.Value.Guards

/-!
# Configuration

A configuration is a record of settings, each of which may be left out.  Any
other key is refused, so that a misspelt setting does not go unnoticed.
-/

namespace Directive

/-- What becomes of a call that fails: it aborts the rendering, stays as it was
written, or is left out. -/
inductive Policy where
  | throw
  | preserve
  | empty
deriving DecidableEq

namespace Policy

def all : List Policy :=
  [.throw, .preserve, .empty]

def name : Policy → Text
  | .throw => Text.ofString "throw"
  | .preserve => Text.ofString "preserve"
  | .empty => Text.ofString "empty"

def ofName? (name : Text) : Option Policy :=
  all.find? fun policy => policy.name = name

end Policy

/-- The names that levels have in a configuration. -/
def Level.settingNames : List Text :=
  Level.all.map Level.settingName

/-- A setting as it is given; a level stays a name. -/
inductive Setting where
  | placeholder (placeholder : Text)
  | onError (policy : Policy)
  | logLevel (name : Text)
deriving DecidableEq

namespace Setting

def placeholderKey : Text :=
  Text.ofString "placeholder"

def onErrorKey : Text :=
  Text.ofString "onError"

def logLevelKey : Text :=
  Text.ofString "logLevel"

def toField : Setting → Text × Value
  | .placeholder text => (placeholderKey, .string text)
  | .onError policy => (onErrorKey, .string policy.name)
  | .logLevel name => (logLevelKey, .string name)

/-- Reads the setting of a key. -/
def ofField (key : Text) (value : Value) : Except SettingProblem Setting :=
  if key = placeholderKey then
    match value.nonBlankString? with
    | some text => .ok (.placeholder text)
    | none => .error .blank
  else if key = onErrorKey then
    let options := Policy.all.map Policy.name
    match (value.oneOf? options).bind Policy.ofName? with
    | some policy => .ok (.onError policy)
    | none => .error (.notOneOf options)
  else if key = logLevelKey then
    match value.oneOf? Level.settingNames with
    | some name => .ok (.logLevel name)
    | none => .error (.notOneOf Level.settingNames)
  else .error .unrecognized

end Setting

/-- Settings in the order in which they were given. -/
structure Config where
  settings : List Setting
deriving DecidableEq

namespace Config

/-- The name of a configuration file. -/
def fileName : Text :=
  Text.ofString "tessera.config.json"

def toRecord (config : Config) : Record Value :=
  config.settings.map Setting.toField

/-- Without a policy, a call that fails aborts the rendering. -/
def policy (config : Config) : Policy :=
  (config.settings.findSome? fun setting =>
    match setting with
    | .onError policy => some policy
    | _ => none).getD .throw

/-- The name of the level that is asked for. -/
def logLevel? (config : Config) : Option Text :=
  config.settings.findSome? fun setting =>
    match setting with
    | .logLevel name => some name
    | _ => none

/-- Reads the settings of a record in order, up to the first that is refused.
The source says where the record comes from. -/
def readSettings (source : Text) : List (Text × Value) → Except Fault (List Setting)
  | [] => .ok []
  | (key, value) :: fields =>
      match Setting.ofField key value with
      | .error problem => .error (.invalidSetting source key problem)
      | .ok setting => (readSettings source fields).map (setting :: ·)

/-- Reads a configuration from a value that came from `source`. -/
def validate (value : Value) (source : Text) : Except Fault Config :=
  match value.plainFields? with
  | some fields => (readSettings source fields).map Config.mk
  | none => .error (.configNotRecord source)

/-- The fallback that carries out a policy. -/
def fallback? {World : Type} : Policy → Option (Fallback World)
  | .throw => none
  | .preserve => some fun _ call world => (.ok call.raw, world)
  | .empty => some fun _ _ world => (.ok [], world)

/-- The level of a name, the default level if the name stands for nothing.  Where
it stands for a value that is no level, no entry compares with it, which is what
the silent threshold says. -/
def levelOrDefault (name : Text) : Level :=
  match Level.ofName? name with
  | some (.level level) => level
  | some (.inherited _) => .silent
  | none => .default

/-- The options that a configuration asks for.  The engine logs through a child
of the base logger, at the level of the configuration if it names one. -/
def renderOptions {World : Type} (config : Config) (base : Logger World)
    (trace : TraceEvent → World → World) : RenderOptions World :=
  let child := base.child engineComponent
  { logger :=
      match config.logLevel? with
      | some name => child.setLevel (levelOrDefault name)
      | none => child
    fallback := fallback? config.policy
    trace := trace }

end Config

end Directive
