import Directive.Arguments
import Directive.Proofs.Record

/-!
# Arguments as a handler sees them

The last argument of a name stands for the name.  Every lookup, the conversion
to a record and all accessors see it and no other, so an argument of another
kind hides an earlier one that would do.  The list itself keeps every argument.
-/

namespace Directive

/-- Whether a literal of a kind will do where a kind is asked for: that kind
will, and an integer will for a float. -/
def Literal.Kind.Suits (actual expected : Literal.Kind) : Prop :=
  actual = expected ∨ actual = .int ∧ expected = .float

instance (actual expected : Literal.Kind) : Decidable (actual.Suits expected) :=
  inferInstanceAs (Decidable (actual = expected ∨ actual = .int ∧ expected = .float))

theorem Literal.toValues_eq_map (items : List Literal) :
    Literal.toValues items = items.map Literal.toValue := by
  induction items with
  | nil => rfl
  | cons item items ih => rw [Literal.toValues, ih, List.map_cons]

namespace Argument

/-- No argument has the name. -/
def Absent (name : Text) (list : List Argument) : Prop :=
  ∀ argument ∈ list, argument.name ≠ name

/-- The last argument of the name has the literal. -/
def LastOf (list : List Argument) (name : Text) (literal : Literal) : Prop :=
  ∃ before after, list = before ++ ⟨name, literal⟩ :: after ∧ Absent name after

end Argument

namespace Arguments

open Argument (Absent LastOf)

/-- The answer to a handler that asks for the argument of a name with a kind. -/
inductive Answers (list : List Argument) (kind : Literal.Kind) (name : Text) :
    Except Fault Value → Prop where
  | value {literal : Literal} : LastOf list name literal → literal.kind.Suits kind →
      Answers list kind name (.ok literal.toValue)
  | missing : Absent name list → Answers list kind name (.error (.missingArgument name))
  | mistyped {literal : Literal} : LastOf list name literal → ¬ literal.kind.Suits kind →
      Answers list kind name (.error (.wrongArgument name kind literal.kind))

/-- A view shows all arguments of a list in their order, and by name the last of
each name. -/
structure LastWins (arguments : Arguments) (list : List Argument) : Prop where
  list_eq : arguments.list = list
  size_eq : arguments.size = list.length
  has_iff : ∀ name, arguments.has name ↔ ∃ argument ∈ list, argument.name = name
  get?_iff : ∀ name literal, arguments.get? name = some literal ↔ LastOf list name literal
  mem_names : ∀ name, name ∈ arguments.names ↔ ∃ argument ∈ list, argument.name = name
  /-- The names are distinct, in the order in which they occur first. -/
  names_order : arguments.names.Pairwise fun name next =>
    (list.map Argument.name).idxOf name < (list.map Argument.name).idxOf next
  toRecord_keys : arguments.toRecord.keys = arguments.names
  toRecord_get? : ∀ name,
    arguments.toRecord.get? name = (arguments.get? name).map Literal.toValue
  required_iff : ∀ kind name answer,
    arguments.required kind name = answer ↔ Answers list kind name answer
  missing_iff : ∀ kind name,
    (∃ fault, arguments.required kind name = .error fault ∧ fault.code = .argumentMissing) ↔
      Absent name list
  mistyped_iff : ∀ kind name,
    (∃ fault, arguments.required kind name = .error fault ∧ fault.code = .argumentType) ↔
      ∃ literal, LastOf list name literal ∧ ¬ literal.kind.Suits kind
  optional_absent : ∀ kind name fallback, Absent name list →
    arguments.optional kind name fallback = .ok fallback
  optional_present : ∀ kind name fallback, ¬ Absent name list →
    arguments.optional kind name fallback = arguments.required kind name

variable {arguments : Arguments} {list : List Argument} {kind : Literal.Kind} {name : Text}
  {literal : Literal}

/-! ## By name -/

theorem get?_eq_some_iff : arguments.get? name = some literal ↔
    LastOf arguments.list name literal := by
  rw [get?, byName, Record.get?_ofPairs_eq_some_iff]
  constructor
  · rintro ⟨before, after, split, absent⟩
    obtain ⟨earlier, rest, listEq, -, restEq⟩ := List.map_eq_append_iff.mp split
    obtain ⟨argument, later, rfl, same, rfl⟩ := List.map_eq_cons_iff.mp restEq
    cases same
    refine ⟨earlier, later, listEq, ?_⟩
    intro other member sameName
    apply absent
    rw [List.map_map]
    exact List.mem_map.mpr ⟨other, member, sameName⟩
  · rintro ⟨before, after, listEq, absent⟩
    refine ⟨before.map fun argument => (argument.name, argument.value),
      after.map fun argument => (argument.name, argument.value), ?_, ?_⟩
    · rw [listEq, List.map_append, List.map_cons]
    · intro member
      rw [List.map_map] at member
      obtain ⟨other, isLater, sameName⟩ := List.mem_map.mp member
      exact absent other isLater sameName

theorem mem_names_iff :
    name ∈ arguments.names ↔ ∃ argument ∈ arguments.list, argument.name = name := by
  rw [names, byName, Record.mem_keys_ofPairs_iff, List.map_map]
  exact List.mem_map

theorem get?_eq_none_iff : arguments.get? name = none ↔ Absent name arguments.list := by
  rw [get?, Record.get?_eq_none_iff]
  refine (not_congr mem_names_iff).trans ?_
  simp [Absent]

theorem has_iff : arguments.has name ↔ ∃ argument ∈ arguments.list, argument.name = name := by
  rw [has, Record.contains_iff]
  exact mem_names_iff

theorem has_eq_true_iff_not_absent : arguments.has name = true ↔ ¬ Absent name arguments.list := by
  rw [has_iff]
  simp [Absent]

theorem names_order (arguments : Arguments) :
    arguments.names.Pairwise fun name next =>
      (arguments.list.map Argument.name).idxOf name <
        (arguments.list.map Argument.name).idxOf next := by
  have order := Record.pairwise_keys_ofPairs
    (arguments.list.map fun argument => (argument.name, argument.value))
  rw [List.map_map] at order
  exact order

/-- Identifiers keep their places in the record. -/
theorem toRecord_eq (arguments : Arguments)
    (identifiers : ∀ argument ∈ arguments.list, argument.name.isIdentifier) :
    arguments.toRecord = arguments.byName.map fun pair => (pair.1, pair.2.toValue) := by
  apply Record.indicesFirst_eq_self
  intro key member
  rw [Record.keys_map] at member
  obtain ⟨argument, isArgument, rfl⟩ := mem_names_iff.mp member
  exact Record.index?_of_isIdentifier (identifiers argument isArgument)

/-! ## Accessors -/

/-- The five required accessors, each with a body of its own, have one behaviour: the
last literal of the name decides, and its plain value is given if it suits. -/
theorem required_eq (arguments : Arguments) (kind : Literal.Kind) (name : Text) :
    arguments.required kind name =
      match arguments.get? name with
      | none => .error (.missingArgument name)
      | some literal =>
          if literal.kind.Suits kind then .ok literal.toValue
          else .error (.wrongArgument name kind literal.kind) := by
  cases found : arguments.get? name with
  | none =>
      cases kind <;>
        simp [required, string, int, float, bool, array, expect, require, found, Except.map]
  | some literal =>
      cases kind <;> cases literal <;>
        simp [required, string, int, float, bool, array, expect, require, found, Except.map,
          Literal.text?, Literal.integer?, Literal.truth?, Literal.items?, Literal.kind,
          Literal.Kind.Suits, Literal.toValue, Literal.toValues_eq_map]

theorem optional_eq (arguments : Arguments) (kind : Literal.Kind) (name : Text)
    (fallback : Value) :
    arguments.optional kind name fallback =
      if arguments.has name then arguments.required kind name else .ok fallback := by
  cases kind <;> rfl

theorem required_answers (arguments : Arguments) (kind : Literal.Kind) (name : Text) :
    Answers arguments.list kind name (arguments.required kind name) := by
  rw [required_eq]
  cases found : arguments.get? name with
  | none => exact .missing (get?_eq_none_iff.mp found)
  | some literal =>
      have last := get?_eq_some_iff.mp found
      by_cases suits : literal.kind.Suits kind
      · simp only [suits, if_true]
        exact .value last suits
      · simp only [suits, if_false]
        exact .mistyped last suits

theorem required_eq_iff {answer : Except Fault Value} :
    arguments.required kind name = answer ↔ Answers arguments.list kind name answer := by
  constructor
  · intro same
    subst same
    exact required_answers arguments kind name
  · intro answers
    rw [required_eq]
    cases answers with
    | value last suits => simp only [get?_eq_some_iff.mpr last, suits, if_true]
    | missing absent => simp only [get?_eq_none_iff.mpr absent]
    | mistyped last unsuited => simp only [get?_eq_some_iff.mpr last, unsuited, if_false]

theorem required_missing_iff :
    (∃ fault, arguments.required kind name = .error fault ∧ fault.code = .argumentMissing) ↔
      Absent name arguments.list := by
  constructor
  · rintro ⟨fault, answer, code⟩
    cases required_eq_iff.mp answer with
    | missing absent => exact absent
    | mistyped => cases code
  · intro absent
    exact ⟨_, required_eq_iff.mpr (.missing absent), rfl⟩

theorem required_mistyped_iff :
    (∃ fault, arguments.required kind name = .error fault ∧ fault.code = .argumentType) ↔
      ∃ literal, LastOf arguments.list name literal ∧ ¬ literal.kind.Suits kind := by
  constructor
  · rintro ⟨fault, answer, code⟩
    cases required_eq_iff.mp answer with
    | missing => cases code
    | mistyped last unsuited => exact ⟨_, last, unsuited⟩
  · rintro ⟨literal, last, unsuited⟩
    exact ⟨_, required_eq_iff.mpr (.mistyped last unsuited), rfl⟩

/-- The view of arguments whose names are identifiers shows all of them in order
and by name the last of each name, whatever names are repeated. -/
theorem lastWins_of_identifiers (list : List Argument)
    (identifiers : ∀ argument ∈ list, argument.name.isIdentifier) :
    LastWins ⟨list⟩ list where
  list_eq := rfl
  size_eq := rfl
  has_iff := fun _ => has_iff
  get?_iff := fun _ _ => get?_eq_some_iff
  mem_names := fun _ => mem_names_iff
  names_order := names_order ⟨list⟩
  toRecord_keys := by
    rw [toRecord_eq ⟨list⟩ identifiers, Record.keys_map]
    rfl
  toRecord_get? := by
    intro name
    rw [toRecord_eq ⟨list⟩ identifiers, Record.get?_map]
    rfl
  required_iff := fun _ _ _ => required_eq_iff
  missing_iff := fun _ _ => required_missing_iff
  mistyped_iff := fun _ _ => required_mistyped_iff
  optional_absent := by
    intro kind name fallback absent
    rw [optional_eq]
    apply if_neg
    exact mt has_eq_true_iff_not_absent.mp (not_not_intro absent)
  optional_present := by
    intro kind name fallback present
    rw [optional_eq]
    apply if_pos
    exact has_eq_true_iff_not_absent.mpr present

/-- Arguments with a name of every object and a name of two kinds. -/
def repeated : List Argument :=
  [⟨Text.ofString "x", .bool true⟩,
    ⟨Text.ofString "__proto__", .string (Text.ofString "p") .single⟩,
    ⟨Text.ofString "x", .string (Text.ofString "last") .double⟩]

/-- The truth value of the repeated name is not seen any more. -/
theorem lastWins_repeated :
    (∀ argument ∈ repeated, argument.name.isIdentifier) ∧
      LastWins ⟨repeated⟩ repeated ∧
      (⟨repeated⟩ : Arguments).names = [Text.ofString "x", Text.ofString "__proto__"] ∧
      (⟨repeated⟩ : Arguments).optional .bool (Text.ofString "x") (.bool false) =
        .error (.wrongArgument (Text.ofString "x") .bool .string) := by
  have identifiers : ∀ argument ∈ repeated, argument.name.isIdentifier := by decide
  exact ⟨identifiers, lastWins_of_identifiers repeated identifiers, rfl, rfl⟩

end Arguments

end Directive
