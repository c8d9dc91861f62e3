import Directive.Proofs.Document.Canonical
import Directive.Proofs.Document.Tiling
import Directive.Proofs.Registry

/-!
# Names that can be called

A registry checks a name as a whole, and the reader takes the longest run of
units that belong to a name and goes on behind it.  Both admit the same names,
also where a name holds spacing, braces or a directive of its own.
-/

namespace Directive

namespace Registry

variable {Entry : Type}

/-- A new registry takes exactly the identifiers. -/
theorem exists_register_empty_iff {name : Text} {handler : Entry} :
    (∃ registry, (empty : Registry Entry).register name handler = .ok registry) ↔
      name.isIdentifier := by
  rcases register_cases (empty : Registry Entry) name handler with
    ⟨-, identifier, -, registered⟩ | ⟨refusal, refuses, refused⟩
  · exact iff_of_true ⟨_, registered⟩ identifier
  · apply iff_of_false
    · rintro ⟨registry, registered⟩
      rw [refused] at registered
      cases registered
    · intro identifier
      exact refuses.not_registers ⟨rfl, identifier, List.not_mem_nil⟩

end Registry

namespace Document

/-- A directive that calls a name without arguments. -/
def bareDirective (name : Text) : Text :=
  Text.ofString "\x7b\x7b " ++ name ++ Text.ofString "() \x7d\x7d"

theorem format_bare (name : Text) : (⟨name, []⟩ : Invocation).format = bareDirective name := by
  have parentheses : Text.ofString "() \x7d\x7d" = 0x28 :: Text.ofString ") \x7d\x7d" := rfl
  simp [Invocation.format, bareDirective, parentheses, Text.join]

/-- The directive of an identifier is one call. -/
theorem nodes_parse_bareDirective {name : Text} (identifier : name.isIdentifier) :
    ∃ call, (parse (bareDirective name)).nodes = [.call call] ∧ call.name = name := by
  have wellFormed : (⟨name, []⟩ : Invocation).WellFormed := ⟨identifier, by simp⟩
  have recognized := wellFormed.recognize?_format []
  rw [format_bare] at recognized
  have reads : Reads (.ofText (bareDirective name)) 0 (bareDirective name ++ []) [_] :=
    .call recognized .done
  rw [List.append_nil] at reads
  exact ⟨_, reads.nodes_eq, rfl⟩

/-- A name can be registered exactly if it can be called, and all names in the
calls of a document are of this sort. -/
theorem registrable_iff_callable {Entry : Type} (handler : Entry) (name source : Text) :
    ((∃ registry, (Registry.empty : Registry Entry).register name handler = .ok registry) ↔
      ∃ call, (parse (bareDirective name)).nodes = [.call call] ∧ call.name = name) ∧
    ∀ call ∈ (parse source).calls,
      call.name.isIdentifier ∧ ∀ argument ∈ call.arguments, argument.name.isIdentifier := by
  constructor
  · rw [Registry.exists_register_empty_iff]
    constructor
    · exact nodes_parse_bareDirective
    · rintro ⟨call, nodesEq, rfl⟩
      have member : call ∈ (parse (bareDirective call.name)).calls := by
        rw [mem_calls_iff, nodesEq]
        exact List.mem_singleton_self _
      exact (wellFormed_of_mem_calls member).1
  · intro call member
    obtain ⟨identifier, arguments⟩ := wellFormed_of_mem_calls member
    refine ⟨identifier, ?_⟩
    intro argument isArgument
    exact (arguments argument isArgument).1

end Document

end Directive
