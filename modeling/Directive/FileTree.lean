import Directive.Text.Search

/-!
# File trees

A path is the list of names that lead from the root to a file or directory.  A
tree lists its files, directories and links; every directory that a listed path
leads through exists as well.  What is listed for a path and what the path leads
to differ where links are on the way.
-/

namespace Directive

/-- The names from the root down; the root itself is the empty path. -/
abbrev Path :=
  List Text

namespace Path

/-- Follows one name from a path: `.` and the empty name stay, `..` goes up,
where the root is its own parent. -/
def follow (path : Path) (name : Text) : Path :=
  if name.isEmpty || name = [0x2E] then path
  else if name = [0x2E, 0x2E] then path.dropLast
  else path ++ [name]

/-- From where a text names a path: from the root if it begins with a slash. -/
def base (directory : Path) (text : Text) : Path :=
  if Text.startsWith text [0x2F] then [] else directory

/-- The path that a text names, seen from a directory. -/
def resolve (directory : Path) (text : Text) : Path :=
  (Text.split [0x2F] text).foldl follow (directory.base text)

def toText (path : Path) : Text :=
  0x2F :: Text.join [0x2F] path

/-- Going up leaves the last name away. -/
theorem resolve_parent (path : Path) : path.resolve [0x2E, 0x2E] = path.dropLast :=
  rfl

end Path

/-- What stands at a path of a tree.  A locked entry is there, but may be neither
read nor entered.  A link stands for what its text names, seen from the directory
of the link. -/
inductive FileEntry where
  | file (bytes : List UInt8)
  | locked
  | directory
  | link (target : Text)

structure FileTree where
  entries : List (Path × FileEntry)

namespace FileTree

/-- What is listed for a path, or a directory where a listed path leads
through it. -/
def lookup? (tree : FileTree) (path : Path) : Option FileEntry :=
  match tree.entries.find? fun entry => entry.1 = path with
  | some (_, entry) => some entry
  | none =>
      if tree.entries.any fun entry => path.isPrefixOf entry.1 then some .directory else none

def isDirectory (tree : FileTree) (path : Path) : Bool :=
  match tree.lookup? path with
  | some .directory => true
  | _ => false

/-- The path to which names lead from a place.  Only directories lead further.
At a link the way goes on with the names of its text, which `jump` follows. -/
def follow (tree : FileTree) (jump : Path → List Text → Option Path) :
    Path → List Text → Option Path
  | place, [] => some place
  | place, name :: names =>
      if tree.isDirectory place then
        if name.isEmpty || name = [0x2E] then tree.follow jump place names
        else if name = [0x2E, 0x2E] then tree.follow jump place.dropLast names
        else
          match tree.lookup? (place ++ [name]) with
          | none => none
          | some (.link target) =>
              jump (Path.base place target) (Text.split [0x2F] target ++ names)
          | some _ => tree.follow jump (place ++ [name]) names
      else none

/-- The path to which names lead if at most so many links are followed. -/
def place? (tree : FileTree) : (links : Nat) → Path → List Text → Option Path
  | 0 => tree.follow fun _ _ => none
  | links + 1 => tree.follow (tree.place? links)

/-- The links that are followed on one way; a way with more leads nowhere. -/
def maxLinks : Nat :=
  40

/-- What a path leads to when links are followed. -/
def stat? (tree : FileTree) (path : Path) : Option FileEntry :=
  (tree.place? maxLinks [] path).bind tree.lookup?

/-- Whether a path leads to anything.  A link that leads nowhere is as good as
none. -/
def contains (tree : FileTree) (path : Path) : Bool :=
  (tree.stat? path).isSome

/-- Looks for a name in a directory, and then in one directory after the other
on the way up.  The root is where going up leads nowhere else. -/
def findUpward? (tree : FileTree) (name : Text) (directory : Path) : Option Path :=
  if tree.contains (directory ++ [name]) then some (directory ++ [name])
  else if directory.resolve [0x2E, 0x2E] = directory then none
  else findUpward? tree name (directory.resolve [0x2E, 0x2E])
termination_by directory.length
decreasing_by
  rename_i further
  rw [Path.resolve_parent] at further ⊢
  cases directory with
  | nil => exact absurd rfl further
  | cons first rest => simp

end FileTree

end Directive
