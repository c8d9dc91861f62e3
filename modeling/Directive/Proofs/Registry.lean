import Mathlib.Data.List.Nodup
import Directive.Proofs.Record
import Directive.Registry.Run

/-!
# Registries in use

A registration succeeds, is refused and changes nothing, or comes too late; these
are all the steps that a registry can make besides being frozen.  Whatever the
steps are, a registry holds distinct identifiers, each with the handler that was
registered first, and once frozen it stays as it is.
-/

namespace Directive

namespace Registry

variable {Entry : Type}

/-- Why a registry refuses to register a name. -/
inductive Refuses (registry : Registry Entry) (name : Text) : Fault → Prop where
  | frozen : registry.frozen = true → Refuses registry name (.registryFrozen name)
  | invalid : registry.frozen = false → name.isIdentifier = false →
      Refuses registry name (.invalidName name)
  | taken : registry.frozen = false → name.isIdentifier = true → name ∈ registry.names →
      Refuses registry name (.nameTaken name)

/-- All that a step can do to a registry. -/
inductive Performs (registry : Registry Entry) :
    RegistryStep Entry → Except Fault Unit × Registry Entry → Prop where
  | registered {name : Text} {handler : Entry} : registry.frozen = false →
      name.isIdentifier = true → name ∉ registry.names →
      Performs registry (.register name handler)
        (.ok (), ⟨registry.handlers ++ [(name, handler)], false⟩)
  | refused {name : Text} {handler : Entry} {refusal : Fault} : registry.Refuses name refusal →
      Performs registry (.register name handler) (.error refusal, registry)
  | froze : Performs registry .freeze (.ok (), ⟨registry.handlers, true⟩)

/-- Steps register a name first with a handler, before they freeze the registry. -/
inductive FirstRegisters (name : Text) (handler : Entry) : List (RegistryStep Entry) → Prop where
  | here {steps : List (RegistryStep Entry)} :
      FirstRegisters name handler (.register name handler :: steps)
  | later {other : Text} {otherHandler : Entry} {steps : List (RegistryStep Entry)} :
      other ≠ name → FirstRegisters name handler steps →
      FirstRegisters name handler (.register other otherHandler :: steps)

/-- What every registry keeps to. -/
structure WellKept (registry : Registry Entry) : Prop where
  distinct : registry.names.Nodup
  identifiers : ∀ name ∈ registry.names, name.isIdentifier

/-- What is to be known of a new registry behind some steps. -/
structure History (steps : List (RegistryStep Entry)) (registry : Registry Entry) : Prop where
  wellKept : registry.WellKept
  /-- The names are those of the registrations that succeeded, in their order. -/
  names_eq : registry.names = (empty.accepted steps).map Prod.fst
  get?_accepted : ∀ name handler, registry.get? name = some handler ↔
    (name, handler) ∈ empty.accepted steps
  get?_iff : ∀ name handler, registry.get? name = some handler ↔
    name.isIdentifier ∧ FirstRegisters name handler steps
  get?_stays : ∀ name handler, registry.get? name = some handler →
    ∀ more, (registry.run more).get? name = some handler
  registers_iff : ∀ name handler, (registry.perform (.register name handler)).1 = .ok () ↔
    registry.frozen = false ∧ name.isIdentifier ∧ name ∉ registry.names
  refusal : ∀ name handler refusal,
    (registry.perform (.register name handler)).1 = .error refusal →
      (registry.perform (.register name handler)).2 = registry ∧
        refusal.code = if registry.frozen then .registryFrozen else .registryConflict
  frozen_iff : registry.frozen ↔ .freeze ∈ steps
  frozen_stays : registry.frozen → ∀ more, registry.run more = registry

variable {registry next : Registry Entry} {name : Text} {handler : Entry}
  {step : RegistryStep Entry} {steps : List (RegistryStep Entry)}
  {outcome : Except Fault Unit × Registry Entry} {refusal : Fault}

/-! ## One step -/

theorem has_eq_true_iff : registry.has name = true ↔ name ∈ registry.names :=
  Record.contains_iff

/-- To register in place is to register, or to leave the registry as it is. -/
theorem perform_register (registry : Registry Entry) (name : Text) (handler : Entry) :
    registry.perform (.register name handler) =
      match registry.register name handler with
      | .ok next => (.ok (), next)
      | .error refusal => (.error refusal, registry) := by
  simp only [perform, RegistryStep.action, RegistryAction.register, ExceptT.run_bind,
    StateT.run_bind, register]
  change StateT.run (ExceptT.run (ite _ _ _)) registry = _
  by_cases frozen : registry.frozen
  · simp only [frozen, if_true]
    rfl
  · by_cases identifier : name.isIdentifier
    · by_cases taken : registry.has name
      · simp only [frozen, identifier, taken]
        rfl
      · simp only [frozen, identifier, taken]
        rfl
    · simp only [frozen, identifier]
      rfl

theorem register_cases (registry : Registry Entry) (name : Text) (handler : Entry) :
    (registry.frozen = false ∧ name.isIdentifier = true ∧ name ∉ registry.names ∧
        registry.register name handler = .ok ⟨registry.handlers ++ [(name, handler)], false⟩) ∨
      ∃ refusal, registry.Refuses name refusal ∧
        registry.register name handler = .error refusal := by
  cases frozen : registry.frozen with
  | true => exact .inr ⟨_, .frozen frozen, by simp [register, frozen]⟩
  | false =>
      cases identifier : name.isIdentifier with
      | false => exact .inr ⟨_, .invalid frozen identifier, by simp [register, frozen, identifier]⟩
      | true =>
          by_cases taken : name ∈ registry.names
          · refine .inr ⟨_, .taken frozen identifier taken, ?_⟩
            simp [register, frozen, identifier, has_eq_true_iff.mpr taken]
          · refine .inl ⟨rfl, rfl, taken, ?_⟩
            have new : registry.has name = false := by
              simpa using mt has_eq_true_iff.mp taken
            simp [register, frozen, identifier, new, Record.insert_of_notMem taken]

theorem performs (registry : Registry Entry) (step : RegistryStep Entry) :
    registry.Performs step (registry.perform step) := by
  cases step with
  | freeze => exact .froze
  | register name handler =>
      rw [perform_register]
      rcases registry.register_cases name handler with
        ⟨unfrozen, identifier, new, registered⟩ | ⟨refusal, refuses, refused⟩
      · rw [registered]
        exact .registered unfrozen identifier new
      · rw [refused]
        exact .refused refuses

theorem Refuses.code_eq (refuses : registry.Refuses name refusal) :
    refusal.code = if registry.frozen then .registryFrozen else .registryConflict := by
  cases refuses with
  | frozen frozen => rw [frozen]; rfl
  | invalid unfrozen _ => rw [unfrozen]; rfl
  | taken unfrozen _ _ => rw [unfrozen]; rfl

theorem Refuses.not_registers (refuses : registry.Refuses name refusal) :
    ¬ (registry.frozen = false ∧ name.isIdentifier ∧ name ∉ registry.names) := by
  rintro ⟨unfrozen, identifier, new⟩
  cases refuses with
  | frozen frozen => simp [unfrozen] at frozen
  | invalid _ invalid => simp [identifier] at invalid
  | taken _ _ taken => exact new taken

theorem names_append (frozen : Bool) :
    names ⟨registry.handlers ++ [(name, handler)], frozen⟩ = registry.names ++ [name] :=
  List.map_append

theorem get?_append (new : name ∉ registry.names) (frozen : Bool) (other : Text) :
    get? ⟨registry.handlers ++ [(name, handler)], frozen⟩ other =
      if name = other then some handler else registry.get? other := by
  rw [get?, ← Record.insert_of_notMem new]
  exact Record.get?_insert _ _ _ _

namespace Performs

theorem wellKept (performs : registry.Performs step outcome) (kept : registry.WellKept) :
    outcome.2.WellKept := by
  cases performs with
  | refused _ => exact kept
  | froze => exact ⟨kept.distinct, kept.identifiers⟩
  | registered _ identifier new =>
      constructor
      · rw [names_append, ← List.concat_eq_append]
        exact kept.distinct.concat new
      · intro other member
        rw [names_append] at member
        rcases List.mem_append.mp member with old | last
        · exact kept.identifiers other old
        · rw [List.mem_singleton.mp last]
          exact identifier

theorem of_frozen (performs : registry.Performs step outcome) (frozen : registry.frozen = true) :
    outcome.2 = registry := by
  cases performs with
  | registered unfrozen _ _ => simp [unfrozen] at frozen
  | refused _ => rfl
  | froze => rw [← frozen]

theorem frozen_iff (performs : registry.Performs step outcome) :
    outcome.2.frozen = true ↔ registry.frozen = true ∨ .freeze = step := by
  cases performs with
  | registered unfrozen _ _ => simp [unfrozen]
  | refused _ => simp
  | froze => simp

end Performs

theorem registers_iff :
    (registry.perform (.register name handler)).1 = .ok () ↔
      registry.frozen = false ∧ name.isIdentifier ∧ name ∉ registry.names := by
  have performs := registry.performs (.register name handler)
  generalize registry.perform (.register name handler) = outcome at performs ⊢
  cases performs with
  | registered unfrozen identifier new => exact iff_of_true rfl ⟨unfrozen, identifier, new⟩
  | refused refuses => exact iff_of_false (by simp) refuses.not_registers

theorem perform_refused
    (refused : (registry.perform (.register name handler)).1 = .error refusal) :
    registry.Refuses name refusal ∧ (registry.perform (.register name handler)).2 = registry := by
  have performs := registry.performs (.register name handler)
  generalize registry.perform (.register name handler) = outcome at performs refused ⊢
  cases performs with
  | registered _ _ _ => cases refused
  | refused refuses =>
      cases refused
      exact ⟨refuses, rfl⟩

/-! ## Steps one after the other -/

theorem run_cons (registry : Registry Entry) (step : RegistryStep Entry)
    (steps : List (RegistryStep Entry)) :
    registry.run (step :: steps) = (registry.perform step).2.run steps :=
  rfl

theorem WellKept.run (kept : registry.WellKept) (steps : List (RegistryStep Entry)) :
    (registry.run steps).WellKept := by
  induction steps generalizing registry with
  | nil => exact kept
  | cons step steps ih =>
      rw [run_cons]
      exact ih ((registry.performs step).wellKept kept)

theorem run_of_frozen (frozen : registry.frozen = true) (steps : List (RegistryStep Entry)) :
    registry.run steps = registry := by
  induction steps with
  | nil => rfl
  | cons step steps ih =>
      rw [run_cons, (registry.performs step).of_frozen frozen]
      exact ih

theorem frozen_run_iff :
    (registry.run steps).frozen = true ↔ registry.frozen = true ∨ .freeze ∈ steps := by
  induction steps generalizing registry with
  | nil => simp [run]
  | cons step steps ih =>
      rw [run_cons, ih, (registry.performs step).frozen_iff, List.mem_cons, or_assoc]

theorem handlers_run (registry : Registry Entry) (steps : List (RegistryStep Entry)) :
    (registry.run steps).handlers = registry.handlers ++ registry.accepted steps := by
  induction steps generalizing registry with
  | nil => simp [run, accepted]
  | cons step steps ih =>
      rw [run_cons, ih]
      have performs := registry.performs step
      cases step with
      | freeze => rfl
      | register name handler =>
          rw [accepted]
          generalize registry.perform (.register name handler) = outcome at performs ⊢
          cases performs with
          | registered _ _ _ => exact List.append_assoc _ _ _
          | refused _ => rfl

theorem firstRegisters_cons_iff {other : Text} {otherHandler : Entry} :
    FirstRegisters name handler (.register other otherHandler :: steps) ↔
      if other = name then otherHandler = handler else FirstRegisters name handler steps := by
  constructor
  · intro first
    cases first with
    | here => rw [if_pos rfl]
    | later different first => rwa [if_neg different]
  · intro first
    split at first
    · next same =>
        subst same first
        exact .here
    · next different => exact .later different first

/-- A handler that is found was there before, or it is the first that the steps
register under its name. -/
theorem get?_run_iff :
    (registry.run steps).get? name = some handler ↔
      registry.get? name = some handler ∨
        (registry.frozen = false ∧ name.isIdentifier ∧ name ∉ registry.names) ∧
          FirstRegisters name handler steps := by
  induction steps generalizing registry with
  | nil =>
      have none : ¬ FirstRegisters name handler [] := by
        intro first
        cases first
      simp [run, none]
  | cons step steps ih =>
      rw [run_cons, ih]
      have performs := registry.performs step
      generalize registry.perform step = outcome at performs ⊢
      cases performs with
      | froze =>
          have none : ¬ FirstRegisters name handler (.freeze :: steps) := by
            intro first
            cases first
          simp [none, get?]
      | @refused other _ refusal refuses =>
          rw [firstRegisters_cons_iff]
          by_cases same : other = name
          · subst same
            simp only [refuses.not_registers, false_and]
          · simp only [same, if_false]
      | @registered other otherHandler unfrozen identifier new =>
          rw [firstRegisters_cons_iff, get?_append new, names_append]
          by_cases same : other = name
          · subst same
            have unfound : registry.get? other = none := Record.get?_eq_none_iff.mpr new
            simp [unfound, unfrozen, identifier, new]
          · simp [same, Ne.symm same, unfrozen]

/-! ## Records of handlers -/

/-- The registrations of the entries of a record, one by one. -/
def registrations (handlers : Record Entry) : List (RegistryStep Entry) :=
  handlers.map fun pair => .register pair.1 pair.2

theorem registerAll_cons (registry : Registry Entry) (name : Text) (handler : Entry)
    (handlers : Record Entry) :
    registry.registerAll ((name, handler) :: handlers) =
      match registry.register name handler with
      | .ok next => next.registerAll handlers
      | .error refusal => .error refusal := by
  rw [registerAll, List.foldlM_cons]
  cases registry.register name handler <;> rfl

/-- Distinct new names are registered exactly if all are identifiers. -/
theorem registerAll_eq_ok_iff {handlers : Record Entry} (unfrozen : registry.frozen = false)
    (distinct : (registry.names ++ handlers.keys).Nodup) :
    registry.registerAll handlers = .ok next ↔
      (∀ name ∈ handlers.keys, name.isIdentifier) ∧
        next = ⟨registry.handlers ++ handlers, false⟩ := by
  induction handlers generalizing registry with
  | nil =>
      have same : registry = ⟨registry.handlers ++ [], false⟩ := by
        rw [List.append_nil, ← unfrozen]
      rw [← same]
      constructor
      · intro registered
        cases registered
        exact ⟨by simp [Record.keys], rfl⟩
      · rintro ⟨-, rfl⟩
        rfl
  | cons pair handlers ih =>
      obtain ⟨name, handler⟩ := pair
      have new : name ∉ registry.names := by
        intro old
        exact (List.nodup_append.mp distinct).2.2 name old name List.mem_cons_self rfl
      rw [registerAll_cons]
      rcases registry.register_cases name handler with
        ⟨-, identifier, -, registered⟩ | ⟨refusal, refuses, refused⟩
      · have further : (names ⟨registry.handlers ++ [(name, handler)], false⟩ ++
            Record.keys handlers).Nodup := by
          rw [names_append, List.append_assoc]
          exact distinct
        simp only [registered]
        rw [ih rfl further, List.append_assoc]
        simp [Record.keys, identifier]
      · have invalid : ¬ name.isIdentifier := by
          intro identifier
          exact refuses.not_registers ⟨unfrozen, identifier, new⟩
        simp [refused, Record.keys, invalid]

/-- What a record registers is what its entries register in place. -/
theorem run_registrations {handlers : Record Entry}
    (registered : registry.registerAll handlers = .ok next) :
    registry.run (registrations handlers) = next := by
  induction handlers generalizing registry with
  | nil =>
      cases registered
      rfl
  | cons pair handlers ih =>
      obtain ⟨name, handler⟩ := pair
      rw [registerAll_cons] at registered
      cases result : registry.register name handler with
      | error refusal => simp [result] at registered
      | ok middle =>
          simp only [result] at registered
          have performed : (registry.perform (.register name handler)).2 = middle := by
            rw [perform_register, result]
          rw [registrations, List.map_cons, run_cons, performed]
          exact ih registered

/-! ## New registries -/

theorem wellKept_empty : (empty : Registry Entry).WellKept where
  distinct := List.nodup_nil
  identifiers := by simp [names, empty, Record.keys]

theorem history_run (steps : List (RegistryStep Entry)) :
    History steps ((empty : Registry Entry).run steps) where
  wellKept := wellKept_empty.run steps
  names_eq := by
    rw [names, handlers_run]
    rfl
  get?_accepted := by
    intro name handler
    refine (Record.get?_eq_some_iff (wellKept_empty.run steps).distinct).trans ?_
    rw [handlers_run]
    rfl
  get?_iff := by
    intro name handler
    rw [get?_run_iff]
    simp [empty, get?, Record.get?, names, Record.keys]
  get?_stays := by
    intro name handler found more
    exact get?_run_iff.mpr (.inl found)
  registers_iff := fun _ _ => registers_iff
  refusal := by
    intro name handler refusal refused
    obtain ⟨refuses, same⟩ := perform_refused refused
    exact ⟨same, refuses.code_eq⟩
  frozen_iff := by
    rw [frozen_run_iff]
    simp [empty]
  frozen_stays := fun frozen => run_of_frozen frozen

/-- Whatever is done to a new registry, it holds the handlers whose registrations
succeeded, in their order, and a registration succeeds exactly for an identifier
that is new to a registry that is not frozen.  A record makes a registry exactly
if all its keys are identifiers, and it is the registry that its entries make one
by one. -/
theorem run_reachable (steps : List (RegistryStep Entry)) (handlers : Record Entry)
    (distinct : handlers.keys.Nodup) :
    History steps ((empty : Registry Entry).run steps) ∧
      ((∃ registry, ofRecord handlers = .ok registry) ↔
        ∀ name ∈ handlers.keys, name.isIdentifier) ∧
      ∀ registry, ofRecord handlers = .ok registry →
        registry = empty.run (registrations handlers) ∧ registry.handlers = handlers := by
  have fromRecord : ∀ registry, ofRecord handlers = .ok registry ↔
      (∀ name ∈ handlers.keys, name.isIdentifier) ∧ registry = ⟨handlers, false⟩ := by
    intro registry
    exact registerAll_eq_ok_iff rfl distinct
  refine ⟨history_run steps, ?_, ?_⟩
  · constructor
    · rintro ⟨registry, registered⟩
      exact ((fromRecord registry).mp registered).1
    · intro identifiers
      exact ⟨_, (fromRecord _).mpr ⟨identifiers, rfl⟩⟩
  · intro registry registered
    obtain ⟨-, same⟩ := (fromRecord registry).mp registered
    exact ⟨(run_registrations registered).symm, by rw [same]⟩

/-- Steps of which only the first changes the names, and the last comes too late. -/
def mixedSteps : List (RegistryStep Nat) :=
  [.register (Text.ofString "a") 1, .register (Text.ofString "1x") 2,
    .register (Text.ofString "a") 3, .freeze, .register (Text.ofString "b") 4]

theorem run_mixedSteps :
    (Record.keys [(Text.ofString "b", 1), (Text.ofString "a", 2)]).Nodup ∧
      (∀ name handler, (empty.run mixedSteps).get? name = some handler ↔
        name.isIdentifier ∧ FirstRegisters name handler mixedSteps) ∧
      (empty.run mixedSteps).names = [Text.ofString "a"] ∧
      ∃ registry : Registry Nat,
        ofRecord [(Text.ofString "b", 1), (Text.ofString "a", 2)] = .ok registry := by
  have distinct : (Record.keys [(Text.ofString "b", 1), (Text.ofString "a", 2)]).Nodup := by
    decide
  obtain ⟨history, fromRecord, -⟩ := run_reachable mixedSteps _ distinct
  exact ⟨distinct, history.get?_iff, history.names_eq, fromRecord.mpr (by decide)⟩

end Registry

end Directive
