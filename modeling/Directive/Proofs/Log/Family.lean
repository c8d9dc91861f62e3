import Directive.Log.Family
import Directive.Proofs.Record
import Directive.Proofs.Text.Pieces

/-!
# Thresholds and paths in a family of loggers

All that a family of loggers comes to can be told from its history.  A logger has
the threshold that it was set to last; one that was never set has the threshold
that its parent had when it was created.  Its path leads from the root through
the names of the children.  What the sink receives are the entries that reach the
threshold of the moment, in the order of the steps.
-/

namespace Directive

/-- Whether an entry of a level comes through at a threshold; at `silent` none does. -/
def Level.Reaches (level threshold : Level) : Prop :=
  threshold ≠ .silent ∧ level ≠ .silent ∧ threshold.rank ≤ level.rank

instance (level threshold : Level) : Decidable (level.Reaches threshold) :=
  inferInstanceAs (Decidable (_ ∧ _ ∧ _))

/-- A step for loggers that are there; children are named. -/
inductive LoggerStep.Within (count : Nat) : LoggerStep → Prop where
  | child {parent : Nat} {component : Text} : parent < count → component ≠ [] →
      Within count (.child parent component)
  | setLevel {logger : Nat} {level : Level} : logger < count → Within count (.setLevel logger level)
  | log {logger : Nat} {level : Level} {message : Text} {fields : Record Value} : logger < count →
      Within count (.log logger level message fields)

namespace LoggerFamily

variable {World : Type}

/-! ## Histories

A history is a list of steps, the latest one first. -/

/-- The number of loggers behind a history. -/
def size : List LoggerStep → Nat
  | [] => 1
  | .child _ _ :: past => size past + 1
  | .setLevel _ _ :: past | .log _ _ _ _ :: past => size past

/-- Every step is for loggers that were there at its moment. -/
inductive Grown : List LoggerStep → Prop where
  | root : Grown []
  | next {step : LoggerStep} {past : List LoggerStep} : step.Within (size past) → Grown past →
      Grown (step :: past)

/-- The threshold of a logger behind a history. -/
def threshold (root : Logger World) : List LoggerStep → Nat → Level
  | [], _ => root.level
  | .child parent _ :: past, number =>
      if number = size past then threshold root past parent else threshold root past number
  | .setLevel changed level :: past, number =>
      if number = changed then level else threshold root past number
  | .log _ _ _ _ :: past, number => threshold root past number

/-- The names that lead from the root to a logger. -/
def names : List LoggerStep → Nat → List Text
  | [], _ => []
  | .child parent component :: past, number =>
      if number = size past then names past parent ++ [component] else names past number
  | .setLevel _ _ :: past, number | .log _ _ _ _ :: past, number => names past number

/-- The path through names from a component, which is a part of it if it is not empty. -/
def pathThrough (component : Option Text) : List Text → Option Text
  | [] => component
  | name :: more =>
      some (Text.join [0x2E] (component.toList.filter (fun part => part ≠ []) ++ name :: more))

/-- The logger of a number behind a history. -/
def loggerAt (root : Logger World) (past : List LoggerStep) (number : Nat) : Logger World where
  level := threshold root past number
  component := pathThrough root.component (names past number)
  sink := root.sink

/-- What the sink receives because of a step that follows a history. -/
def heardOf (root : Logger World) (past : List LoggerStep) : LoggerStep → List LogEntry
  | .child _ _ | .setLevel _ _ => []
  | .log number level message fields =>
      if level.Reaches (threshold root past number) then
        [⟨level, message, pathThrough root.component (names past number), fields⟩]
      else []

/-- What the sink has received behind a history, the first entry first. -/
def heard (root : Logger World) : List LoggerStep → List LogEntry
  | [] => []
  | step :: past => heard root past ++ heardOf root past step

/-- The entries go to a sink one after the other. -/
def send (sink : Sink World) (entries : List LogEntry) (world : World) : World :=
  entries.foldl (fun world entry => sink entry world) world

/-- What is to be known of the family of a root, and of the world, behind some steps. -/
structure Outcome (root : Logger World) (start : World) (steps : List LoggerStep)
    (family : LoggerFamily World) (final : World) : Prop where
  received : final = send root.sink (heard root steps.reverse) start
  length_eq : family.loggers.length = size steps.reverse
  get?_eq : ∀ number < size steps.reverse,
    family.get? number = some (loggerAt root steps.reverse number)
  /-- A level stays until it is set anew. -/
  level_set : ∀ before number level after, steps = before ++ .setLevel number level :: after →
    (∀ other, .setLevel number other ∉ after) →
      (family.get? number).map Logger.level = some level
  /-- A child that is never set keeps the level that its parent had at its creation. -/
  level_inherited : ∀ before parent component after,
    steps = before ++ .child parent component :: after →
    (∀ other, .setLevel (size before.reverse) other ∉ after) →
      (family.get? (size before.reverse)).map Logger.level =
        (((ofRoot root).run start before).1.get? parent).map Logger.level
  level_root : (∀ other, .setLevel 0 other ∉ steps) →
    (family.get? 0).map Logger.level = some root.level
  /-- To set the level of one logger is to leave every other one as it is. -/
  setLevel_other : ∀ number level other, other ≠ number →
    (family.step final (.setLevel number level)).1.get? other = family.get? other
  /-- The component of an entry is in its record unless a field takes its place. -/
  component_recorded : ∀ entry ∈ heard root steps.reverse, ∀ timestamp,
    Text.ofString "component" ∉ entry.fields.keys →
      (entry.toRecord timestamp).get? (Text.ofString "component") =
        entry.component.map Value.string

variable {root : Logger World} {past later : List LoggerStep} {step : LoggerStep} {number : Nat}
  {component : Option Text} {name : Text} {parts : List Text}

/-! ## Paths -/

theorem componentPath_of_ne_nil {path : Text} (nonempty : path ≠ []) (name : Text) :
    Logger.componentPath (some path) name = path ++ 0x2E :: name := by
  cases path with
  | nil => exact absurd rfl nonempty
  | cons first rest => rfl

/-- The path of a child goes on from the path of its parent. -/
theorem pathThrough_append_singleton (component : Option Text)
    (named : ∀ part ∈ parts, part ≠ []) (name : Text) :
    pathThrough component (parts ++ [name]) =
      some (Logger.componentPath (pathThrough component parts) name) := by
  cases parts with
  | nil =>
      cases component with
      | none => rfl
      | some path =>
          cases path with
          | nil => rfl
          | cons first rest => simp [pathThrough, Logger.componentPath, Text.join]
  | cons part more =>
      let front := component.toList.filter (fun part => part ≠ []) ++ part :: more
      have frontNonempty : front ≠ [] := by simp [front]
      have frontNamed : ∀ part ∈ front, part ≠ [] := by
        intro part member
        rcases List.mem_append.mp member with ofRoot | ofNames
        · exact of_decide_eq_true (List.mem_filter.mp ofRoot).2
        · exact named part ofNames
      calc
        pathThrough component (part :: more ++ [name]) =
            some (Text.join [0x2E] (front ++ [name])) := by
          simp [pathThrough, front]
        _ = some (Text.join [0x2E] front ++ 0x2E :: name) := by
          rw [Text.join_append_singleton frontNonempty, List.append_assoc, List.singleton_append]
        _ = some (Logger.componentPath (pathThrough component (part :: more)) name) := by
          rw [← componentPath_of_ne_nil (Text.join_ne_nil frontNonempty frontNamed [0x2E])]
          rfl

theorem ne_nil_of_mem_names (grown : Grown past) (member : name ∈ names past number) :
    name ≠ [] := by
  induction grown generalizing number with
  | root => cases member
  | next within grown ih =>
      cases within with
      | child _ named =>
          rw [names] at member
          split at member
          · rcases List.mem_append.mp member with ofParent | own
            · exact ih ofParent
            · rwa [List.mem_singleton.mp own]
          · exact ih member
      | setLevel _ => exact ih member
      | log _ => exact ih member

/-! ## One step -/

theorem isEnabled_iff (logger : Logger World) (level : Level) :
    logger.isEnabled level = true ↔ level.Reaches logger.level := by
  -- A level that is not silent is below silent.
  have silent : level ≠ .silent → level.rank < Level.silent.rank := by
    cases level <;> decide
  rw [Logger.isEnabled, Level.Reaches, Bool.and_eq_true, decide_eq_true_iff, decide_eq_true_iff]
  constructor
  · rintro ⟨loud, reaches⟩
    refine ⟨?_, loud, reaches⟩
    intro quiet
    have below := silent loud
    rw [quiet] at reaches
    omega
  · rintro ⟨-, loud, reaches⟩
    exact ⟨loud, reaches⟩

theorem log_loggerAt (root : Logger World) (past : List LoggerStep) (number : Nat) (level : Level)
    (message : Text) (fields : Record Value) (world : World) :
    (loggerAt root past number).log level message fields world =
      send root.sink (heardOf root past (.log number level message fields)) world := by
  rw [Logger.log, heardOf]
  by_cases reaches : level.Reaches (threshold root past number)
  · rw [if_pos ((isEnabled_iff _ _).mpr reaches), if_pos reaches]
    rfl
  · rw [if_neg (mt (isEnabled_iff _ _).mp reaches), if_neg reaches]
    rfl

theorem child_loggerAt (grown : Grown past) (parent : Nat) (component : Text) :
    (loggerAt root past parent).child component =
      loggerAt root (.child parent component :: past) (size past) := by
  have named : ∀ part ∈ names past parent, part ≠ [] := fun _ => ne_nil_of_mem_names grown
  have path := pathThrough_append_singleton root.component named component
  simp only [loggerAt, Logger.child, threshold, names, if_true, path]

theorem loggerAt_child_of_lt {parent : Nat} {component : Text} (old : number < size past) :
    loggerAt root (.child parent component :: past) number = loggerAt root past number := by
  simp only [loggerAt, threshold, names, Nat.ne_of_lt old, if_false]

theorem loggerAt_setLevel (root : Logger World) (past : List LoggerStep) (changed number : Nat)
    (level : Level) :
    loggerAt root (.setLevel changed level :: past) number =
      if changed = number then (loggerAt root past number).setLevel level
      else loggerAt root past number := by
  by_cases same : changed = number
  · simp [loggerAt, Logger.setLevel, threshold, names, same]
  · simp [loggerAt, threshold, names, same, Ne.symm same]

/-- The family of a history. -/
def ofHistory (root : Logger World) (past : List LoggerStep) : LoggerFamily World :=
  ⟨(List.range (size past)).map (loggerAt root past)⟩

theorem get?_ofHistory (within : number < size past) :
    (ofHistory root past).get? number = some (loggerAt root past number) := by
  rw [get?, ofHistory, List.getElem?_map, List.getElem?_range within]
  rfl

theorem ofHistory_child (grown : Grown past) (parent : Nat) (component : Text) :
    ofHistory root (.child parent component :: past) =
      ⟨(ofHistory root past).loggers ++ [(loggerAt root past parent).child component]⟩ := by
  have old : (List.range (size past)).map (loggerAt root (.child parent component :: past)) =
      (List.range (size past)).map (loggerAt root past) := by
    apply List.map_congr_left
    intro number member
    exact loggerAt_child_of_lt (List.mem_range.mp member)
  rw [ofHistory, size, List.range_succ, List.map_append, old, child_loggerAt grown]
  rfl

theorem ofHistory_setLevel (root : Logger World) (past : List LoggerStep) (changed : Nat)
    (level : Level) :
    ofHistory root (.setLevel changed level :: past) =
      ⟨(ofHistory root past).loggers.modify changed fun logger => logger.setLevel level⟩ := by
  apply congrArg LoggerFamily.mk
  apply List.ext_getElem
  · simp [size, ofHistory]
  · intro number _ _
    simp only [ofHistory, List.getElem_modify, List.getElem_map, List.getElem_range,
      loggerAt_setLevel]

/-- One step takes the family of a history to the family of the longer history. -/
theorem step_ofHistory (grown : Grown past) (within : step.Within (size past)) (world : World) :
    (ofHistory root past).step world step =
      (ofHistory root (step :: past), send root.sink (heardOf root past step) world) := by
  cases within with
  | child present _ =>
      rw [LoggerFamily.step, get?_ofHistory present, ofHistory_child grown]
      rfl
  | setLevel _ =>
      rw [LoggerFamily.step, ofHistory_setLevel]
      rfl
  | log present =>
      rw [LoggerFamily.step, get?_ofHistory present]
      exact congrArg (Prod.mk (ofHistory root past)) (log_loggerAt root past _ _ _ _ world)

/-! ## Runs -/

theorem run_append (family : LoggerFamily World) (world : World) (steps : List LoggerStep)
    (step : LoggerStep) :
    family.run world (steps ++ [step]) =
      (family.run world steps).1.step (family.run world steps).2 step := by
  rw [run, List.foldl_append]
  rfl

theorem run_ofRoot (root : Logger World) (grown : Grown past) (world : World) :
    (ofRoot root).run world past.reverse =
      (ofHistory root past, send root.sink (heard root past) world) := by
  induction grown with
  | root => rfl
  | next within grown ih =>
      rw [List.reverse_cons, run_append, ih, step_ofHistory grown within]
      simp only [heard, send, List.foldl_append]

theorem Grown.of_append (grown : Grown (later ++ step :: past)) :
    step.Within (size past) ∧ Grown past := by
  induction later with
  | nil =>
      cases grown with
      | next within grown => exact ⟨within, grown⟩
  | cons latest later ih =>
      cases grown with
      | next _ grown => exact ih grown

theorem size_le_append (later past : List LoggerStep) : size past ≤ size (later ++ past) := by
  induction later with
  | nil => exact Nat.le_refl _
  | cons step later ih =>
      cases step with
      | child => exact Nat.le_succ_of_le ih
      | setLevel => exact ih
      | log => exact ih

theorem size_pos (past : List LoggerStep) : 0 < size past := by
  have grows := size_le_append past []
  rw [List.append_nil] at grows
  exact grows

/-- Only a step that sets the level of a logger changes its threshold. -/
theorem threshold_append (root : Logger World) (present : number < size past)
    (unset : ∀ level, .setLevel number level ∉ later) :
    threshold root (later ++ past) number = threshold root past number := by
  induction later with
  | nil => rfl
  | cons step later ih =>
      have unsetLater : ∀ level, .setLevel number level ∉ later := by
        intro level member
        exact unset level (List.mem_cons_of_mem step member)
      have old := Nat.lt_of_lt_of_le present (size_le_append later past)
      rw [List.cons_append, ← ih unsetLater]
      cases step with
      | child parent component => rw [threshold, if_neg (Nat.ne_of_lt old)]
      | setLevel changed level =>
          have different : number ≠ changed := by
            rintro rfl
            exact unset level List.mem_cons_self
          rw [threshold, if_neg different]
      | log => rfl

theorem threshold_of_setLevel (root : Logger World) {level : Level}
    (grown : Grown (later ++ .setLevel number level :: past))
    (unset : ∀ other, .setLevel number other ∉ later) :
    number < size (later ++ .setLevel number level :: past) ∧
      threshold root (later ++ .setLevel number level :: past) number = level := by
  cases grown.of_append.1 with
  | setLevel present =>
      have present : number < size (.setLevel number level :: past) := present
      refine ⟨Nat.lt_of_lt_of_le present (size_le_append later _), ?_⟩
      rw [threshold_append root present unset, threshold, if_pos rfl]

theorem threshold_of_child (root : Logger World) (parent : Nat) (component : Text)
    (unset : ∀ other, .setLevel (size past) other ∉ later) :
    size past < size (later ++ .child parent component :: past) ∧
      threshold root (later ++ .child parent component :: past) (size past) =
        threshold root past parent := by
  have new : size past < size (.child parent component :: past) := Nat.lt_succ_self _
  refine ⟨Nat.lt_of_lt_of_le new (size_le_append later _), ?_⟩
  rw [threshold_append root new unset, threshold, if_pos rfl]

theorem level_run (root : Logger World) (grown : Grown past) (world : World)
    (within : number < size past) :
    (((ofRoot root).run world past.reverse).1.get? number).map Logger.level =
      some (threshold root past number) := by
  rw [run_ofRoot root grown, get?_ofHistory within]
  rfl

/-- Where steps are split at one of them, the history is split there too. -/
theorem reverse_split (before after : List LoggerStep) (step : LoggerStep) :
    (before ++ step :: after).reverse = after.reverse ++ step :: before.reverse := by
  rw [List.reverse_append, List.reverse_cons, List.append_assoc, List.singleton_append]

theorem level_run_of_setLevel (root : Logger World) {before after : List LoggerStep}
    {level : Level} (world : World)
    (grown : Grown (before ++ .setLevel number level :: after).reverse)
    (unset : ∀ other, .setLevel number other ∉ after) :
    (((ofRoot root).run world (before ++ .setLevel number level :: after)).1.get? number).map
      Logger.level = some level := by
  have unsetLater : ∀ other, .setLevel number other ∉ after.reverse := by simpa using unset
  rw [reverse_split] at grown
  obtain ⟨present, thresholdEq⟩ := threshold_of_setLevel root grown unsetLater
  have levelEq := level_run root grown world present
  rwa [← reverse_split, List.reverse_reverse, reverse_split, thresholdEq] at levelEq

theorem level_run_of_child (root : Logger World) {before after : List LoggerStep} {parent : Nat}
    {component : Text} (world : World)
    (grown : Grown (before ++ .child parent component :: after).reverse)
    (unset : ∀ other, .setLevel (size before.reverse) other ∉ after) :
    (((ofRoot root).run world (before ++ .child parent component :: after)).1.get?
        (size before.reverse)).map Logger.level =
      (((ofRoot root).run world before).1.get? parent).map Logger.level := by
  have unsetLater : ∀ other, .setLevel (size before.reverse) other ∉ after.reverse := by
    simpa using unset
  rw [reverse_split] at grown
  obtain ⟨within, grownBefore⟩ := grown.of_append
  obtain ⟨present, thresholdEq⟩ := threshold_of_child root parent component unsetLater
  cases within with
  | child parentPresent _ =>
      have levelEq := level_run root grown world present
      have parentEq := level_run root grownBefore world parentPresent
      rw [← reverse_split, List.reverse_reverse, reverse_split, thresholdEq] at levelEq
      rw [List.reverse_reverse] at parentEq
      rw [levelEq, parentEq]

theorem level_run_of_root (root : Logger World) {steps : List LoggerStep} (world : World)
    (grown : Grown steps.reverse) (unset : ∀ other, .setLevel 0 other ∉ steps) :
    (((ofRoot root).run world steps).1.get? 0).map Logger.level = some root.level := by
  have unsetLater : ∀ other, .setLevel 0 other ∉ steps.reverse := by simpa using unset
  have kept := threshold_append root (size_pos []) unsetLater
  have levelEq := level_run root grown world (size_pos _)
  rw [List.append_nil] at kept
  rw [List.reverse_reverse, kept] at levelEq
  exact levelEq

theorem get?_step_setLevel_other {other : Nat} (family : LoggerFamily World) (world : World)
    (level : Level) (different : other ≠ number) :
    (family.step world (.setLevel number level)).1.get? other = family.get? other := by
  exact List.getElem?_modify_ne _ _ (Ne.symm different)

/-! ## Entries as records -/

theorem get?_toRecord_component {entry : LogEntry} (timestamp : Text)
    (own : Text.ofString "component" ∉ entry.fields.keys) :
    (entry.toRecord timestamp).get? (Text.ofString "component") =
      entry.component.map Value.string := by
  rw [LogEntry.toRecord, Record.get?_ofEntries, Record.get?_ofPairs_append_of_notMem own]
  cases entry.component with
  | none =>
      apply Record.get?_eq_none_iff.mpr
      rw [Record.mem_keys_ofPairs_iff]
      change Text.ofString "component" ∉
        [Text.ofString "level", Text.ofString "message", Text.ofString "timestamp"]
      decide
  | some path =>
      rw [Option.toList_some, List.map_singleton, Record.ofPairs_append, Record.get?_insert,
        if_pos rfl]
      rfl

/-- However loggers are created and set in between, the sink receives in order the
entries that reach the threshold of their logger at their moment.  A threshold is
what was set last, or else what the parent had when the child was created, and the
component of an entry is the path from the root. -/
theorem run_outcome (root : Logger World) (start : World) (steps : List LoggerStep)
    (grown : Grown steps.reverse) :
    Outcome root start steps ((ofRoot root).run start steps).1
      ((ofRoot root).run start steps).2 := by
  have ran := run_ofRoot root grown start
  rw [List.reverse_reverse] at ran
  constructor
  case received => rw [ran]
  case length_eq => simp [ran, ofHistory]
  case get?_eq =>
    intro number within
    rw [ran]
    exact get?_ofHistory within
  case level_set =>
    intro before number level after split unset
    subst split
    exact level_run_of_setLevel root start grown unset
  case level_inherited =>
    intro before parent component after split unset
    subst split
    exact level_run_of_child root start grown unset
  case level_root => exact level_run_of_root root start grown
  case setLevel_other => exact fun _ level _ => get?_step_setLevel_other _ _ level
  case component_recorded => exact fun _ _ timestamp => get?_toRecord_component timestamp

/-- A root that keeps a list of what its family logs. -/
def listeningRoot : Logger (List LogEntry) :=
  ⟨.info, some (Text.ofString "engine"), fun entry log => log ++ [entry]⟩

/-- One child comes before the root falls silent, one comes after, and the latter
has a child when it speaks again. -/
def interleavedSteps : List LoggerStep :=
  [.child 0 (Text.ofString "render"), .setLevel 0 .silent,
    .log 0 .error (Text.ofString "lost") [], .child 0 (Text.ofString "parse"),
    .log 2 .error (Text.ofString "lost") [], .setLevel 2 .debug,
    .child 2 (Text.ofString "cache"), .log 1 .debug (Text.ofString "low") [],
    .log 1 .warn (Text.ofString "kept") [], .log 3 .debug (Text.ofString "found") []]

theorem run_interleavedSteps :
    Grown interleavedSteps.reverse ∧
      ((ofRoot listeningRoot).run [] interleavedSteps).2 =
        [⟨.warn, Text.ofString "kept", some (Text.ofString "engine.render"), []⟩,
          ⟨.debug, Text.ofString "found", some (Text.ofString "engine.parse.cache"), []⟩] ∧
      (((ofRoot listeningRoot).run [] interleavedSteps).1.get? 0).map Logger.level =
        some .silent := by
  have grown : Grown interleavedSteps.reverse :=
    .next (.log (by decide)) <| .next (.log (by decide)) <| .next (.log (by decide)) <|
      .next (.child (by decide) (by decide)) <| .next (.setLevel (by decide)) <|
      .next (.log (by decide)) <| .next (.child (by decide) (by decide)) <|
      .next (.log (by decide)) <| .next (.setLevel (by decide)) <|
      .next (.child (by decide) (by decide)) .root
  have outcome := run_outcome listeningRoot [] interleavedSteps grown
  refine ⟨grown, ?_, ?_⟩
  · rw [outcome.received]
    rfl
  · exact outcome.level_set [.child 0 (Text.ofString "render")] 0 .silent _ rfl (by
      intro other member
      simp at member)

end LoggerFamily

end Directive
