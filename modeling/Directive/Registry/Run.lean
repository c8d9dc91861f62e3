import Directive.Registry

/-!
# Registries that change in place

A registry is an object that its owner changes step by step.  A step may raise a
fault, and the registry is then as the step has left it.
-/

namespace Directive

/-- What can be done to a registry. -/
inductive RegistryStep (Entry : Type) where
  | register (name : Text) (handler : Entry)
  | freeze

/-- A change of a registry in place.  What was changed before a fault is raised
stays changed. -/
abbrev RegistryAction (Entry : Type) :=
  ExceptT Fault (StateM (Registry Entry))

namespace RegistryAction

variable {Entry : Type}

def register (name : Text) (handler : Entry) : RegistryAction Entry Unit := do
  let registry ← get
  if registry.frozen then
    throw (.registryFrozen name)
  else if !name.isIdentifier then
    throw (.invalidName name)
  else if registry.has name then
    throw (.nameTaken name)
  else
    set { registry with handlers := registry.handlers.insert name handler }

def freeze : RegistryAction Entry Unit :=
  modify Registry.freeze

end RegistryAction

def RegistryStep.action {Entry : Type} : RegistryStep Entry → RegistryAction Entry Unit
  | .register name handler => .register name handler
  | .freeze => .freeze

namespace Registry

variable {Entry : Type}

/-- Whether a step succeeds, and the registry behind it. -/
def perform (registry : Registry Entry) (step : RegistryStep Entry) :
    Except Fault Unit × Registry Entry :=
  step.action.run.run registry

/-- The registry behind steps, of which some may have raised faults. -/
def run (registry : Registry Entry) (steps : List (RegistryStep Entry)) : Registry Entry :=
  steps.foldl (fun registry step => (registry.perform step).2) registry

/-- The registrations among steps that succeed, in order. -/
def accepted (registry : Registry Entry) : List (RegistryStep Entry) → List (Text × Entry)
  | [] => []
  | .freeze :: steps => (registry.perform .freeze).2.accepted steps
  | .register name handler :: steps =>
      match registry.perform (.register name handler) with
      | (.ok (), next) => (name, handler) :: next.accepted steps
      | (.error _, next) => next.accepted steps

end Registry

end Directive
