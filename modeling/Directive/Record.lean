import Directive.Text

/-!
# Records

A record pairs distinct keys with values and keeps its keys in order.  Writing
under a key that is present replaces the value and keeps the key's place; a new
key goes to the end.
-/

namespace Directive

abbrev Record (α : Type) :=
  List (Text × α)

namespace Record

variable {α : Type}

def get? (key : Text) : Record α → Option α
  | [] => none
  | (present, value) :: rest => if present = key then some value else get? key rest

def contains (key : Text) (record : Record α) : Bool :=
  (record.get? key).isSome

def keys (record : Record α) : List Text :=
  record.map Prod.fst

def insert (key : Text) (value : α) : Record α → Record α
  | [] => [(key, value)]
  | (present, old) :: rest =>
      if present = key then (key, value) :: rest else (present, old) :: insert key value rest

/-- Writes pairs one after the other; the last value of a key stays. -/
def ofPairs (pairs : List (Text × α)) : Record α :=
  pairs.foldl (fun record pair => insert pair.1 pair.2 record) []

/-- The index that a key spells: decimal digits without leading zeros, at most
4294967294. -/
def index? (key : Text) : Option Nat :=
  let number := key.foldl (fun number digit => 10 * number + (digit.toNat - 0x30)) 0
  if Text.ofNat number = key ∧ number < 4294967295 then some number else none

/-- Places the keys that are indices first, in numeric order, and leaves the
others as they are. -/
def indicesFirst (record : Record α) : Record α :=
  let indexed := record.filterMap fun pair => (index? pair.1).map fun index => (index, pair)
  let sorted := indexed.mergeSort fun left right => left.1 ≤ right.1
  sorted.map Prod.snd ++ record.filter fun pair => (index? pair.1).isNone

/-- The record that an object's entries make: the last value of every key, with
indices before other keys. -/
def ofEntries (entries : List (Text × α)) : Record α :=
  indicesFirst (ofPairs entries)

theorem get?_insert (record : Record α) (key other : Text) (value : α) :
    get? other (insert key value record) =
      if key = other then some value else get? other record := by
  induction record with
  | nil => simp [insert, get?]
  | cons entry rest ih =>
      obtain ⟨present, old⟩ := entry
      by_cases same : present = key
      · subst same
        by_cases found : present = other <;> simp [insert, get?, found]
      · by_cases found : present = other
        · subst found
          simp [insert, get?, same, Ne.symm same]
        · simp [insert, get?, same, found, ih]

theorem keys_insert (record : Record α) (key : Text) (value : α) :
    keys (insert key value record) =
      if key ∈ keys record then keys record else keys record ++ [key] := by
  induction record with
  | nil => simp [insert, keys]
  | cons entry rest ih =>
      obtain ⟨present, old⟩ := entry
      by_cases same : present = key
      · simp [insert, keys, same]
      · simp only [keys] at ih
        simp only [insert, same, if_false, keys, List.map_cons, ih, List.mem_cons,
          Ne.symm same, false_or]
        split <;> simp_all

end Record

end Directive
