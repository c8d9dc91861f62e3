import Directive.Fault
import Directive.Identifier

/-!
# Registry of handlers

A registry takes every name once, and only names that a call can have.  Once
frozen it takes none.
-/

namespace Directive

structure Registry (Entry : Type) where
  handlers : Record Entry
  frozen : Bool

namespace Registry

variable {Entry : Type}

def empty : Registry Entry :=
  ⟨[], false⟩

def has (registry : Registry Entry) (name : Text) : Bool :=
  registry.handlers.contains name

def get? (registry : Registry Entry) (name : Text) : Option Entry :=
  registry.handlers.get? name

/-- The registered names, in order of registration. -/
def names (registry : Registry Entry) : List Text :=
  registry.handlers.keys

def register (registry : Registry Entry) (name : Text) (handler : Entry) :
    Except Fault (Registry Entry) :=
  if registry.frozen then .error (.registryFrozen name)
  else if !name.isIdentifier then .error (.invalidName name)
  else if registry.has name then .error (.nameTaken name)
  else .ok { registry with handlers := registry.handlers.insert name handler }

def freeze (registry : Registry Entry) : Registry Entry :=
  { registry with frozen := true }

/-- Registers the entries of a record in order, up to the first that is
refused. -/
def registerAll (registry : Registry Entry) (handlers : List (Text × Entry)) :
    Except Fault (Registry Entry) :=
  handlers.foldlM (fun registry pair => registry.register pair.1 pair.2) registry

def ofRecord (handlers : Record Entry) : Except Fault (Registry Entry) :=
  empty.registerAll handlers

end Registry

end Directive
