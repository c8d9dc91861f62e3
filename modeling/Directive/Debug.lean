import Directive.Binary64.Decimal
import Directive.Binary64.Rounding
import Directive.Text.Search
import Directive.Value

/-!
# Debug output

Debug lines belong to namespaces, and a setting lists the namespaces to show,
separated by commas.  A pattern is `*` for all, the name of this library's
family for all of that family, one namespace, or a namespace with `:*` for it
and all below it.
-/

namespace Directive.Debug

/-- The family of namespaces of this library. -/
def family : Text :=
  Text.ofString "tessera"

/-- The namespace of the engine. -/
def engine : Text :=
  Text.ofString "tessera:shortcode"

/-- Whether a namespace is another one or below it. -/
def isWithin (outer name : Text) : Bool :=
  name = outer || Text.startsWith name (outer ++ [0x3A])

/-- The patterns of a list, without blank ones. -/
def patterns (setting : Text) : List Text :=
  ((Text.split [0x2C] setting).map Text.trim).filter (!·.isEmpty)

/-- The ending that makes a pattern cover what is below a namespace. -/
def wildcard : Text :=
  Text.ofString ":*"

/-- Whether a pattern shows a namespace.  The empty namespace stands for the
question whether anything of the family is shown. -/
def admits (pattern name : Text) : Bool :=
  pattern = Text.ofString "*" ||
    ((pattern = family || pattern = family ++ wildcard) &&
      (name.isEmpty || isWithin family name)) ||
    (!name.isEmpty && pattern = name) ||
    (!name.isEmpty && Text.endsWith pattern wildcard &&
      isWithin (pattern.take (pattern.length - wildcard.length)) name)

/-- Whether debug output is shown for a namespace, or, without one, at all for
this library. -/
def isEnabled (setting : Option Text) (name : Option Text) : Bool :=
  (patterns (setting.getD [])).any fun pattern => admits pattern (name.getD [])

inductive Stream where
  | log
  | warn
deriving DecidableEq

/-- One line of debug output, as the values that are printed side by side. -/
structure Line where
  stream : Stream
  values : List Value

/-- A source of debug output.  Whether it is shown is settled when the channel
is opened. -/
structure Channel where
  name : Text
  shown : Bool

namespace Channel

def openFor (setting : Option Text) (name : Text) : Channel :=
  ⟨name, isEnabled setting (some name)⟩

/-- A line that starts with the time and the namespace. -/
def line (channel : Channel) (timestamp : Text) (stream : Stream) (values : List Value) :
    List Line :=
  if channel.shown then
    [⟨stream, .string timestamp :: .string (0x5B :: channel.name ++ [0x5D]) :: values⟩]
  else []

def log (channel : Channel) (timestamp : Text) (values : List Value) : List Line :=
  channel.line timestamp .log values

def warn (channel : Channel) (timestamp : Text) (values : List Value) : List Line :=
  channel.line timestamp .warn (.ofString "WARN" :: values)

/-- Tells how many milliseconds lie between two readings of a clock. -/
def time (channel : Channel) (timestamp label : Text) (started stopped : Binary64) :
    List Line :=
  channel.log timestamp
    [.string (label ++ Text.ofString ": " ++ (stopped.sub started).toHundredths ++
      Text.ofString "ms")]

end Channel

end Directive.Debug
