import Directive.Config
import Directive.FileTree
import Directive.Json
import Directive.Text.Utf8

/-!
# Configuration files

The configuration of a directory is the configuration file in it or in the
nearest directory above it.  Once one is found, it alone decides, also when it
cannot be read.
-/

namespace Directive.Config

/-- The nearest configuration file for a directory.  The directory is what a text
names, seen from the working directory, or the working directory itself. -/
def findFile? (tree : FileTree) (working : Path) (given : Option Text) : Option Path :=
  tree.findUpward? fileName (working.resolve (given.getD [0x2E]))

/-- The JSON value of a file. -/
def readValue (tree : FileTree) (path : Path) : Except ReadProblem Value :=
  match tree.stat? path with
  | none | some (.link _) => .error .missing
  | some .directory => .error .isDirectory
  | some .locked => .error .denied
  | some (.file bytes) =>
      match Json.parse? (Utf8.decode bytes) with
      | none => .error .notJson
      | some value => .ok value

def readFile (tree : FileTree) (path : Path) : Except Fault Config :=
  match readValue tree path with
  | .error problem => .error (.unreadableConfig path.toText problem)
  | .ok value => validate value path.toText

/-- The configuration of a directory, none if there is no file for it. -/
def load? (tree : FileTree) (working : Path) (given : Option Text) :
    Except Fault (Option Config) :=
  match findFile? tree working given with
  | none => .ok none
  | some path => (readFile tree path).map some

end Directive.Config
