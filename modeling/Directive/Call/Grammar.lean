import Directive.Call.Scan
import Directive.Literal.Grammar

/-!
# Grammar of calls

The calls that a text denotes, said without a reader.
-/

namespace Directive

/-- A name, an equals sign and a literal, with spacing between them. -/
inductive Argument.Derives : Text → Argument → Prop where
  | mk {argument : Argument} {before after text : Text} :
      argument.name.isIdentifier → Spacing before → Spacing after →
      Literal.Derives Literal.maxNesting text argument.value →
      Argument.Derives (argument.name ++ before ++ 0x3D :: after ++ text) argument

/-- Arguments with commas between them, at least one, and the spacing behind
the last. -/
inductive Argument.DerivesList : Text → List Argument → Prop where
  | last {text after : Text} {argument : Argument} :
      Argument.Derives text argument → Spacing after →
      Argument.DerivesList (text ++ after) [argument]
  | cons {text before after rest : Text} {argument : Argument} {arguments : List Argument} :
      Argument.Derives text argument → Spacing before → Spacing after →
      Argument.DerivesList rest arguments →
      Argument.DerivesList (text ++ before ++ 0x2C :: after ++ rest) (argument :: arguments)

/-- What stands between the parentheses of a call, behind the first spacing. -/
inductive Argument.DerivesAll : Text → List Argument → Prop where
  | none : Argument.DerivesAll [] []
  | some {text : Text} {arguments : List Argument} :
      Argument.DerivesList text arguments → Argument.DerivesAll text arguments

/-- A whole call, from its opening braces to its closing ones. -/
inductive Invocation.Derives : Text → Invocation → Prop where
  | mk {invocation : Invocation} {beforeName afterName beforeArguments body afterBody : Text} :
      Spacing beforeName → invocation.name.isIdentifier → Spacing afterName →
      Spacing beforeArguments → Argument.DerivesAll body invocation.arguments →
      Spacing afterBody →
      Invocation.Derives
        (Call.opener ++ beforeName ++ invocation.name ++ afterName ++ 0x28 ::
          beforeArguments ++ body ++ 0x29 :: afterBody ++ Call.closer)
        invocation

/-- A name that is an identifier, with a literal that can be read again. -/
def Argument.WellFormed (argument : Argument) : Prop :=
  argument.name.isIdentifier ∧ argument.value.WellFormed

/-- A call that can be written so that it is read again. -/
def Invocation.WellFormed (invocation : Invocation) : Prop :=
  invocation.name.isIdentifier ∧ ∀ argument ∈ invocation.arguments, argument.WellFormed

end Directive
