import Directive.Config

/-!
# Configuration without validation

A record can be taken as a configuration on trust.  Keys that are no settings
are passed over then, as is a placeholder that is no text, and the name of a
level may be any text.
-/

namespace Directive.Config

/-- The placeholder, where it is a text. -/
def trustedPlaceholder : Value → List Setting
  | .string text => [.placeholder text]
  | _ => []

/-- The level setting.  A name is folded to small letters before it is looked
up, which a value that is no text does not allow. -/
def trustedLevel : Value → Except Value (List Setting)
  | .undefined => .ok []
  | .string name => .ok [.logLevel name]
  | .null =>
      .error (.typeError
        (Text.ofString "Cannot read properties of null (reading 'toLowerCase')"))
  | _ =>
      .error (.typeError (Text.ofString "name.toLowerCase is not a function"))

/-- The policy setting, none for a value that names no policy. -/
def trustedPolicy : Value → Option (List Setting)
  | .undefined | .null => some []
  | .string name => (Policy.ofName? name).map fun policy => [.onError policy]
  | _ => none

/-- Takes a record as a configuration.  There is none if no policy has the name
that is given. -/
def trust (record : Record Value) : Except Value (Option Config) :=
  let value := fun key => (record.get? key).getD .undefined
  match trustedLevel (value Setting.logLevelKey) with
  | .error failure => .error failure
  | .ok level =>
      .ok ((trustedPolicy (value Setting.onErrorKey)).map fun policy =>
        ⟨trustedPlaceholder (value Setting.placeholderKey) ++ policy ++ level⟩)

end Directive.Config
