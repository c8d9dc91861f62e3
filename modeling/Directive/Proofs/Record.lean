import Mathlib.Data.List.Induction
import Directive.Record
import Directive.Proofs.Text.Digits

/-!
# Records by their keys

A record that is written pair by pair holds the last value of every key, and its
keys stand in the order in which they came first.  Its keys are distinct, so a
key and a value are a pair of it exactly if the value is found under the key.  A
record that is made of entries moves the keys that are indices to the front.
-/

namespace Directive

theorem CodeUnit.isDigit_of_startsIdentifier {unit : CodeUnit} (starts : startsIdentifier unit) :
    isDigit unit = false := by
  grind [startsIdentifier, isDigit]

namespace Record

variable {α β : Type} {record : Record α} {pairs : List (Text × α)} {key : Text} {value : α}

/-! ## Looking up -/

theorem get?_eq_none_iff : get? key record = none ↔ key ∉ keys record := by
  induction record with
  | nil => simp [get?, keys]
  | cons entry rest ih =>
      obtain ⟨present, held⟩ := entry
      simp only [keys] at ih
      by_cases same : present = key
      · simp [get?, keys, same]
      · simp [get?, keys, same, Ne.symm same, ih]

theorem contains_iff : record.contains key ↔ key ∈ keys record := by
  rw [contains, Option.isSome_iff_ne_none, ne_eq, get?_eq_none_iff, Decidable.not_not]

/-- Under distinct keys, no pair is hidden by another one. -/
theorem get?_eq_some_iff (distinct : (keys record).Nodup) :
    get? key record = some value ↔ (key, value) ∈ record := by
  induction record with
  | nil => simp [get?]
  | cons entry rest ih =>
      obtain ⟨present, held⟩ := entry
      obtain ⟨absent, distinct⟩ := List.nodup_cons.mp distinct
      by_cases same : present = key
      · subst same
        have later : (present, value) ∉ rest := by
          intro member
          exact absent (List.mem_map.mpr ⟨_, member, rfl⟩)
        simp [get?, later, eq_comm]
      · simp [get?, same, Ne.symm same, ih distinct]

theorem get?_map (write : α → β) (record : Record α) :
    get? key (record.map fun pair => (pair.1, write pair.2)) = (get? key record).map write := by
  induction record with
  | nil => rfl
  | cons entry rest ih =>
      obtain ⟨present, held⟩ := entry
      by_cases same : present = key
      · simp [get?, same]
      · simp only [List.map_cons, get?, same, if_false, ih]

theorem keys_map (write : α → β) (record : Record α) :
    keys (record.map fun pair => (pair.1, write pair.2)) = keys record := by
  rw [keys, List.map_map]
  rfl

/-! ## Writing pairs -/

/-- A new key goes to the end. -/
theorem insert_of_notMem (fresh : key ∉ keys record) :
    insert key value record = record ++ [(key, value)] := by
  induction record with
  | nil => rfl
  | cons entry rest ih =>
      obtain ⟨present, held⟩ := entry
      obtain ⟨different, absent⟩ := not_or.mp (mt List.mem_cons.mpr fresh)
      rw [insert, if_neg (Ne.symm different), ih absent, List.cons_append]

theorem ofPairs_append (pairs : List (Text × α)) (pair : Text × α) :
    ofPairs (pairs ++ [pair]) = insert pair.1 pair.2 (ofPairs pairs) := by
  rw [ofPairs, List.foldl_append]
  rfl

theorem mem_keys_ofPairs_iff : key ∈ keys (ofPairs pairs) ↔ key ∈ pairs.map Prod.fst := by
  induction pairs using List.reverseRecOn with
  | nil => rfl
  | append_singleton pairs pair ih =>
      rw [ofPairs_append, keys_insert, List.map_append, List.mem_append, ← ih]
      split
      · next present =>
          constructor
          · exact Or.inl
          · rintro (old | new)
            · exact old
            · rwa [List.mem_singleton.mp new]
      · exact List.mem_append

/-- The keys stand in the order of their first pairs. -/
theorem pairwise_keys_ofPairs (pairs : List (Text × α)) :
    (keys (ofPairs pairs)).Pairwise fun key next =>
      (pairs.map Prod.fst).idxOf key < (pairs.map Prod.fst).idxOf next := by
  induction pairs using List.reverseRecOn with
  | nil => exact .nil
  | append_singleton pairs pair ih =>
      -- The places of old keys stay, and a new key has its place behind all of them.
      have kept : ∀ key ∈ keys (ofPairs pairs),
          ((pairs ++ [pair]).map Prod.fst).idxOf key = (pairs.map Prod.fst).idxOf key ∧
            (pairs.map Prod.fst).idxOf key < pairs.length := by
        intro key member
        have present := mem_keys_ofPairs_iff.mp member
        rw [List.map_append, List.idxOf_append_of_mem present]
        exact ⟨rfl, by simpa using List.idxOf_lt_length_of_mem present⟩
      have old : (keys (ofPairs pairs)).Pairwise fun key next =>
          ((pairs ++ [pair]).map Prod.fst).idxOf key <
            ((pairs ++ [pair]).map Prod.fst).idxOf next := by
        apply List.Pairwise.imp_of_mem _ ih
        intro key next keyMember nextMember before
        rwa [(kept key keyMember).1, (kept next nextMember).1]
      rw [ofPairs_append, keys_insert]
      split
      · exact old
      · next fresh =>
          apply List.pairwise_append.mpr
          refine ⟨old, List.pairwise_singleton _ _, ?_⟩
          intro key keyMember next nextMember
          obtain rfl := List.mem_singleton.mp nextMember
          obtain ⟨same, within⟩ := kept key keyMember
          have absent : pair.1 ∉ pairs.map Prod.fst := mt mem_keys_ofPairs_iff.mpr fresh
          rw [same, List.map_append, List.idxOf_append_of_notMem absent, List.length_map]
          omega

/-- What is found under a key is what its last pair holds. -/
theorem get?_ofPairs_eq_some_iff :
    get? key (ofPairs pairs) = some value ↔
      ∃ before after, pairs = before ++ (key, value) :: after ∧ key ∉ after.map Prod.fst := by
  induction pairs using List.reverseRecOn with
  | nil => simp [ofPairs, get?]
  | append_singleton pairs pair ih =>
      obtain ⟨last, held⟩ := pair
      rw [ofPairs_append, get?_insert]
      constructor
      · intro found
        split at found
        · next same =>
            obtain rfl : last = key := same
            cases found
            exact ⟨pairs, [], rfl, List.not_mem_nil⟩
        · next different =>
            obtain ⟨before, after, rfl, absent⟩ := ih.mp found
            refine ⟨before, after ++ [(last, held)], by simp, ?_⟩
            rw [List.map_append, List.mem_append, not_or]
            exact ⟨absent, by simpa [eq_comm] using different⟩
      · rintro ⟨before, after, split, absent⟩
        rcases List.eq_nil_or_concat after with rfl | ⟨earlier, final, rfl⟩
        · obtain ⟨-, same⟩ := List.append_inj' split rfl
          cases same
          rw [if_pos rfl]
        · rw [List.concat_eq_append] at split absent
          rw [← List.cons_append, ← List.append_assoc] at split
          obtain ⟨pairsEq, same⟩ := List.append_inj' split rfl
          cases same
          rw [List.map_append, List.mem_append, not_or] at absent
          obtain ⟨absent, different⟩ := absent
          rw [if_neg (by simpa [eq_comm] using different)]
          exact ih.mpr ⟨before, earlier, pairsEq, absent⟩

/-- Pairs with other keys do not change what is found under a key. -/
theorem get?_ofPairs_append_of_notMem {before after : List (Text × α)}
    (absent : key ∉ after.map Prod.fst) :
    get? key (ofPairs (before ++ after)) = get? key (ofPairs before) := by
  induction after using List.reverseRecOn with
  | nil => rw [List.append_nil]
  | append_singleton after pair ih =>
      rw [List.map_append, List.mem_append, not_or] at absent
      have different : pair.1 ≠ key := by
        rintro rfl
        exact absent.2 List.mem_cons_self
      rw [← List.append_assoc, ofPairs_append, get?_insert, if_neg different, ih absent.1]

/-! ## Keys that are indices -/

theorem index?_of_isIdentifier (identifier : key.isIdentifier) : index? key = none := by
  cases key with
  | nil => cases identifier
  | cons first others =>
      rw [Text.isIdentifier_cons, Bool.and_eq_true] at identifier
      apply if_neg
      rintro ⟨spelt, -⟩
      have isDigit := Text.isDigit_of_mem_ofNat (spelt ▸ List.mem_cons_self)
      rw [CodeUnit.isDigit_of_startsIdentifier identifier.1] at isDigit
      cases isDigit

/-- Without indices the order is kept. -/
theorem indicesFirst_eq_self (noIndex : ∀ key ∈ keys record, index? key = none) :
    indicesFirst record = record := by
  have keyless : ∀ pair ∈ record, index? pair.1 = none := by
    intro pair member
    exact noIndex pair.1 (List.mem_map_of_mem member)
  have noneIndexed : (record.filterMap fun pair =>
      (index? pair.1).map fun index => (index, pair)) = [] := by
    apply List.filterMap_eq_nil_iff.mpr
    intro pair member
    rw [keyless pair member, Option.map_none]
  have allOthers : (record.filter fun pair => (index? pair.1).isNone) = record := by
    apply List.filter_eq_self.mpr
    intro pair member
    rw [keyless pair member, Option.isNone_none]
  simp [indicesFirst, noneIndexed, allOthers]

/-! ## Own order -/

/-- The keys of a record that is made of entries stand in this order: the indices by
number, and the others behind them in the order of their first entries. -/
def Precedes (entries : List (Text × α)) (key next : Text) : Prop :=
  match index? key, index? next with
  | some number, some nextNumber => number < nextNumber
  | some _, none => True
  | none, some _ => False
  | none, none => (entries.map Prod.fst).idxOf key < (entries.map Prod.fst).idxOf next

theorem nodup_keys_ofPairs (pairs : List (Text × α)) : (keys (ofPairs pairs)).Nodup := by
  apply List.Pairwise.imp _ (pairwise_keys_ofPairs pairs)
  rintro key next before rfl
  exact Nat.lt_irrefl _ before

/-- The pairs whose keys are indices, each with its index, sorted. -/
def indexed (record : Record α) : List (Nat × Text × α) :=
  (record.filterMap fun pair => (index? pair.1).map fun index => (index, pair)).mergeSort
    fun left right => left.1 ≤ right.1

theorem indicesFirst_eq (record : Record α) :
    indicesFirst record =
      (indexed record).map Prod.snd ++ record.filter fun pair => (index? pair.1).isNone :=
  rfl

/-- Moving keys to the front loses no pair and adds none. -/
theorem indicesFirst_perm (record : Record α) : (indicesFirst record).Perm record := by
  have front : ((indexed record).map Prod.snd).Perm
      (record.filter fun pair => (index? pair.1).isSome) := by
    apply ((List.mergeSort_perm _ _).map Prod.snd).trans
    rw [List.map_filterMap, ← List.filterMap_eq_filter]
    apply List.Perm.of_eq
    apply List.filterMap_congr
    intro pair _
    cases found : index? pair.1 <;> simp [Option.guard, found]
  rw [indicesFirst_eq]
  apply (front.append_right _).trans
  simpa using List.filter_append_perm (fun pair => (index? pair.1).isSome) record

/-- What a record of entries holds under a key does not depend on its order. -/
theorem get?_ofEntries (entries : List (Text × α)) (key : Text) :
    get? key (ofEntries entries) = get? key (ofPairs entries) := by
  have distinct := nodup_keys_ofPairs entries
  have moved := indicesFirst_perm (ofPairs entries)
  have movedDistinct : (keys (ofEntries entries)).Nodup :=
    (moved.map Prod.fst).nodup_iff.mpr distinct
  apply Option.ext
  intro value
  rw [get?_eq_some_iff movedDistinct, get?_eq_some_iff distinct]
  exact moved.mem_iff

end Record

end Directive
