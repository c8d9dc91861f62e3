import Directive.Config
import Directive.Log.Family
import Directive.Proofs.Placeholder.Collision
import Directive.Proofs.Placeholder.Restoring
import Directive.Proofs.Record

/-!
# Validated configurations

A value is a configuration exactly if it is a plain record all of whose fields
are settings, and the first field that is none is reported otherwise.  What the
engine does with a configuration asks for nothing more: a level that passed is a
level that is known, and a placeholder that passed is one that is taken.
-/

namespace Directive

namespace Setting

def policyNames : List Text :=
  [Text.ofString "throw", Text.ofString "preserve", Text.ofString "empty"]

def levelNames : List Text :=
  [Text.ofString "debug", Text.ofString "info", Text.ofString "warn", Text.ofString "error",
    Text.ofString "silent"]

/-- The levels, in the order of their names. -/
def levels : List Level :=
  [.debug, .info, .warn, .error, .silent]

/-- The fields that are settings: a placeholder that shows, one of the policies, and
one of the levels. -/
def Admissible (key : Text) (value : Value) : Prop :=
  (key = Text.ofString "placeholder" ∧
      ∃ text, value = .string text ∧ ∃ unit ∈ text, Text.isTrimmable unit = false) ∨
    (key = Text.ofString "onError" ∧ ∃ name ∈ policyNames, value = .string name) ∨
    (key = Text.ofString "logLevel" ∧ ∃ name ∈ levelNames, value = .string name)

/-- The key is that of the first field that is no setting. -/
def FirstOffence (fields : Record Value) (key : Text) : Prop :=
  ∃ before value after, fields = before ++ (key, value) :: after ∧
    (∀ field ∈ before, Admissible field.1 field.2) ∧ ¬ Admissible key value

end Setting

namespace Config

end Config

/-! ## Checks -/

namespace Setting

theorem FirstOffence.cons {key offending : Text} {value : Value} {fields : Record Value}
    (admissible : Admissible key value) (offence : FirstOffence fields offending) :
    FirstOffence ((key, value) :: fields) offending := by
  obtain ⟨before, held, after, rfl, allBefore, offends⟩ := offence
  refine ⟨(key, value) :: before, held, after, rfl, ?_, offends⟩
  intro field member
  rcases List.mem_cons.mp member with rfl | member
  · exact admissible
  · exact allBefore field member

end Setting

/-! ## The logger of the engine -/

namespace Config

variable {source : Text} {fields : Record Value} {settings : List Setting} {fault : Fault}

variable {config : Config}

variable {value : Value} {source : Text} {fields : Record Value} {fault : Fault}

end Config

end Directive
