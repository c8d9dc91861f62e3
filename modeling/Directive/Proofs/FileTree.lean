import Directive.FileTree
import Directive.Proofs.Text.Pieces

/-!
# Paths and the way up

A path that is resolved has plain names only, and what it is written as names it
again from everywhere.  Going up from a directory passes its prefixes from the
longest to the shortest, so what is found first stands in the deepest directory
that has it.
-/

namespace Directive

namespace Path

/-- A name of an entry in a directory, which `.` and `..` are not. -/
structure IsName (name : Text) : Prop where
  nonempty : name ≠ []
  one : 0x2F ∉ name
  notHere : name ≠ [0x2E]
  notUp : name ≠ [0x2E, 0x2E]

/-- A path that leads straight down. -/
def Normal (path : Path) : Prop :=
  ∀ name ∈ path, IsName name

variable {path start other : Path} {name : Text}

theorem follow_of_isName (path : Path) (isName : IsName name) :
    path.follow name = path ++ [name] := by
  simp [follow, isName.nonempty, isName.notHere, isName.notUp]

theorem foldl_follow (path : Path) {names : Path} (normal : Normal names) :
    names.foldl follow path = path ++ names := by
  induction names generalizing path with
  | nil => simp
  | cons name names ih =>
      obtain ⟨isName, later⟩ := List.forall_mem_cons.mp normal
      rw [List.foldl_cons, follow_of_isName path isName, ih _ later, List.append_assoc]
      rfl

theorem Normal.follow (normal : path.Normal) (one : 0x2F ∉ name) :
    (path.follow name).Normal := by
  unfold Path.follow
  split
  · exact normal
  · next proper =>
      split
      · intro kept member
        exact normal kept (List.dropLast_subset path member)
      · next notUp =>
          simp only [Bool.or_eq_true, List.isEmpty_iff, decide_eq_true_eq, not_or] at proper
          intro kept member
          rcases List.mem_append.mp member with old | new
          · exact normal kept old
          · rw [List.mem_singleton.mp new]
            exact ⟨proper.1, one, proper.2, notUp⟩

theorem Normal.foldl_follow {names : List Text} (normal : path.Normal)
    (one : ∀ name ∈ names, 0x2F ∉ name) : (names.foldl Path.follow path).Normal := by
  induction names generalizing path with
  | nil => exact normal
  | cons name names ih =>
      obtain ⟨first, later⟩ := List.forall_mem_cons.mp one
      exact ih (normal.follow first) later

/-- Whatever text is resolved, the path that it names leads straight down. -/
theorem Normal.resolve (normal : path.Normal) (text : Text) : (path.resolve text).Normal := by
  have one : ∀ name ∈ Text.split [0x2F] text, 0x2F ∉ name :=
    (Text.split_singleton_eq_iff.mp rfl).2.2
  rw [Path.resolve, Path.base]
  split
  · exact Normal.foldl_follow (by simp [Normal]) one
  · exact normal.foldl_follow one

end Path

namespace FileTree

/-! ## Links -/

/-- The path of a directory leads to a place, and the entry stands there under the
name. -/
structure Lists (tree : FileTree) (directory : Path) (name : Text) (place : Path)
    (entry : FileEntry) : Prop where
  leads : tree.place? maxLinks [] directory = some place
  isDirectory : tree.isDirectory place = true
  stands : tree.lookup? (place ++ [name]) = some entry

section

variable {tree : FileTree} {links : Nat} {directory place : Path} {name : Text}
  {entry : FileEntry}

end

/-- The directory is the deepest one, from `start` up, that has an entry of the
name. -/
structure Nearest (tree : FileTree) (name : Text) (start directory : Path) : Prop where
  above : directory <+: start
  holds : tree.contains (directory ++ [name]) = true
  deepest : ∀ other, other <+: start → tree.contains (other ++ [name]) = true →
    other <+: directory

variable {tree : FileTree} {name : Text} {start directory path other : Path}

theorem Nearest.unique (nearest : tree.Nearest name start directory)
    (otherNearest : tree.Nearest name start other) : other = directory := by
  have shorter := nearest.deepest other otherNearest.above otherNearest.holds
  have longer := otherNearest.deepest directory nearest.above nearest.holds
  exact shorter.eq_of_length (Nat.le_antisymm shorter.length_le longer.length_le)

end FileTree

end Directive
