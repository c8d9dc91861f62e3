import Directive.Value

/-!
# Wording of faults

Every fault belongs to a class and has a code, a message, perhaps a hint, and
perhaps a context, the facts of the message as a record.
-/

namespace Directive

namespace Code

def all : List Code :=
  [.invalidInput, .unknownDirective, .directiveFailed, .registryConflict, .registryFrozen,
    .argumentMissing, .argumentType, .placeholderMismatch, .configUnreadable, .configInvalid]

def name : Code → Text
  | .invalidInput => Text.ofString "INVALID_INPUT"
  | .unknownDirective => Text.ofString "UNKNOWN_DIRECTIVE"
  | .directiveFailed => Text.ofString "DIRECTIVE_FAILED"
  | .registryConflict => Text.ofString "REGISTRY_CONFLICT"
  | .registryFrozen => Text.ofString "REGISTRY_FROZEN"
  | .argumentMissing => Text.ofString "ARGUMENT_MISSING"
  | .argumentType => Text.ofString "ARGUMENT_TYPE"
  | .placeholderMismatch => Text.ofString "PLACEHOLDER_MISMATCH"
  | .configUnreadable => Text.ofString "CONFIG_UNREADABLE"
  | .configInvalid => Text.ofString "CONFIG_INVALID"

/-- The code as messages and log entries show it. -/
def text : Code → Text
  | .invalidInput => Text.ofString "TESSERA_E100"
  | .unknownDirective => Text.ofString "TESSERA_E200"
  | .directiveFailed => Text.ofString "TESSERA_E201"
  | .registryConflict => Text.ofString "TESSERA_E202"
  | .registryFrozen => Text.ofString "TESSERA_E203"
  | .argumentMissing => Text.ofString "TESSERA_E210"
  | .argumentType => Text.ofString "TESSERA_E211"
  | .placeholderMismatch => Text.ofString "TESSERA_E220"
  | .configUnreadable => Text.ofString "TESSERA_E300"
  | .configInvalid => Text.ofString "TESSERA_E301"

def ofText? (text : Text) : Option Code :=
  all.find? fun code => code.text = text

end Code

/-- The classes of fault that an embedder can tell apart. -/
inductive FaultClass where
  | general
  | unknownDirective
  | directiveFailed
  | registry
  | argument
  | placeholder
  | config
deriving DecidableEq

def FaultClass.name : FaultClass → Text
  | .general => Text.ofString "TesseraError"
  | .unknownDirective => Text.ofString "UnknownDirectiveError"
  | .directiveFailed => Text.ofString "DirectiveFailedError"
  | .registry => Text.ofString "RegistryError"
  | .argument => Text.ofString "ArgumentError"
  | .placeholder => Text.ofString "PlaceholderError"
  | .config => Text.ofString "ConfigError"

/-- The place of a call, as `line:column`. -/
def Site.place (site : Site) : Text :=
  Text.ofInt site.line ++ 0x3A :: Text.ofInt site.column

def Site.toRecord (site : Site) : Record Value :=
  [(Text.ofString "directive", .string site.directive),
    (Text.ofString "line", .ofInt site.line),
    (Text.ofString "column", .ofInt site.column)]

def SettingProblem.text : SettingProblem → Text
  | .blank => Text.ofString "must be a non-empty string"
  | .notOneOf options =>
      Text.ofString "must be one of: " ++ Text.join (Text.ofString ", ") options
  | .unrecognized => Text.ofString "is not a recognized setting"

def ReadProblem.text : ReadProblem → Text
  | .missing => Text.ofString "no such file"
  | .isDirectory => Text.ofString "it is a directory"
  | .denied => Text.ofString "it may not be read"
  | .notJson => Text.ofString "it is not valid JSON"

namespace Fault

def faultClass : Fault → FaultClass
  | .reported .. | .blankPlaceholder | .noFreePlaceholder _ => .general
  | .unknownDirective _ => .unknownDirective
  | .directiveFailed .. => .directiveFailed
  | .registryFrozen _ | .invalidName _ | .nameTaken _ => .registry
  | .missingArgument _ | .wrongArgument .. => .argument
  | .placeholderMismatch .. => .placeholder
  | .unreadableConfig .. | .configNotRecord _ | .invalidSetting .. => .config

def name (fault : Fault) : Text :=
  fault.faultClass.name

def code : Fault → Code
  | .reported code .. => code
  | .blankPlaceholder | .noFreePlaceholder _ => .invalidInput
  | .unknownDirective _ => .unknownDirective
  | .directiveFailed .. => .directiveFailed
  | .registryFrozen _ => .registryFrozen
  | .invalidName _ | .nameTaken _ => .registryConflict
  | .missingArgument _ => .argumentMissing
  | .wrongArgument .. => .argumentType
  | .placeholderMismatch .. => .placeholderMismatch
  | .unreadableConfig .. => .configUnreadable
  | .configNotRecord _ | .invalidSetting .. => .configInvalid

def message : Fault → Text
  | .reported _ message .. => message
  | .blankPlaceholder => Text.ofString "Placeholder must be a non-empty string"
  | .noFreePlaceholder placeholder =>
      Text.ofString "No placeholder derived from " ++ Text.quoted placeholder ++
        Text.ofString " is absent from the document text"
  | .unknownDirective site =>
      Text.ofString "Unknown directive " ++ Text.quoted site.directive ++
        Text.ofString " at " ++ site.place
  | .directiveFailed site reason _ =>
      Text.ofString "Directive " ++ Text.quoted site.directive ++ Text.ofString " at " ++
        site.place ++ Text.ofString " failed: " ++ reason
  | .registryFrozen name =>
      Text.ofString "Cannot register " ++ Text.quoted name ++
        Text.ofString ": the registry is frozen"
  | .invalidName name =>
      Text.quoted name ++ Text.ofString
        " is not a valid directive name. Names start with a letter or underscore and contain only letters, digits and underscores"
  | .nameTaken name =>
      Text.ofString "A handler named " ++ Text.quoted name ++
        Text.ofString " is already registered"
  | .missingArgument name => Text.ofString "Missing required argument " ++ Text.quoted name
  | .wrongArgument name expected actual =>
      Text.ofString "Argument " ++ Text.quoted name ++ Text.ofString " must be " ++
        expected.describe ++ Text.ofString ", got " ++ actual.describe
  | .placeholderMismatch expected found =>
      Text.ofString "Expected " ++ Text.ofNat expected ++
        Text.ofString " placeholder(s) but found " ++ Text.ofNat found
  | .unreadableConfig path problem =>
      path ++ Text.ofString ": cannot read configuration: " ++ problem.text
  | .configNotRecord path => path ++ Text.ofString ": configuration must be a JSON object"
  | .invalidSetting path key problem =>
      path ++ Text.ofString ": " ++ Text.quoted key ++ 0x20 :: problem.text

def hint? : Fault → Option Text
  | .reported _ _ hint .. => hint
  | .unknownDirective site =>
      some (Text.ofString "Register a handler named " ++ Text.quoted site.directive ++
        Text.ofString " or remove the call")
  | .placeholderMismatch .. =>
      some (Text.ofString
        "The text between extract() and restore() must keep every placeholder intact, and must not introduce new ones")
  | _ => none

/-- The facts of a fault; undefined if there are none. -/
def context : Fault → Value
  | .reported _ _ _ context _ => context
  | .unknownDirective site | .directiveFailed site _ _ => .ofRecord site.toRecord
  | .missingArgument name | .wrongArgument name _ _ =>
      .ofRecord [(Text.ofString "argument", .string name)]
  | .placeholderMismatch expected found =>
      .ofRecord
        [(Text.ofString "expected", .ofNat expected), (Text.ofString "found", .ofNat found)]
  | .unreadableConfig path _ | .configNotRecord path | .invalidSetting path _ _ =>
      .ofRecord [(Text.ofString "path", .string path)]
  | .blankPlaceholder | .noFreePlaceholder _ | .registryFrozen _ | .invalidName _
  | .nameTaken _ => .undefined

/-- The value behind a fault; undefined if there is none. -/
def cause : Fault → Value
  | .reported _ _ _ _ cause => cause
  | .directiveFailed _ _ cause => cause
  | _ => .undefined

/-- Whether a fault comes from rendering a call. -/
def isFromCall (fault : Fault) : Bool :=
  fault.faultClass = .unknownDirective || fault.faultClass = .directiveFailed

end Fault

end Directive
