import Directive.Text

/-!
# Lines and columns

The offsets at which the lines of a text begin, in increasing order.  The line
of an offset is found by halving: it is the last one that begins at or before
the offset, also for offsets behind the end of the text.  An offset before the
start counts back from the first column of the first line.
-/

namespace Directive

/-- A line and a column, counted from 1 in a text.  A document made by hand may
give its calls any. -/
structure Position where
  line : Int
  column : Int
deriving DecidableEq

/-- The offsets behind the line feeds of a text that itself begins at `offset`. -/
def lineStartsFrom (offset : Nat) (starts : Array Nat) : Text → Array Nat
  | [] => starts
  | unit :: rest =>
      lineStartsFrom (offset + 1) (if unit = 0x0A then starts.push (offset + 1) else starts) rest

structure LineIndex where
  starts : Array Nat

namespace LineIndex

/-- The first line begins with the text. -/
def ofText (text : Text) : LineIndex :=
  ⟨lineStartsFrom 0 #[0] text⟩

/-- Where a line begins, lines counted from 0. -/
def startOf (index : LineIndex) (line : Nat) : Nat :=
  index.starts.getD line 0

/-- The last line between `low` and `high` that begins at or before the offset,
given that `low` does. -/
def search (index : LineIndex) (offset : Int) (low high : Nat) : Nat :=
  if low < high then
    let middle := (low + high + 1) / 2
    if index.startOf middle ≤ offset then search index offset middle high
    else search index offset low (middle - 1)
  else low
termination_by high - low

def locate (index : LineIndex) (offset : Int) : Position :=
  let line := index.search offset 0 (index.starts.size - 1)
  ⟨line + 1, offset - index.startOf line + 1⟩

end LineIndex

/-- A text whose line index is built when a position in it is first asked for, and
kept for all later ones. -/
structure LineLookup where
  text : Text
  index? : Option LineIndex

namespace LineLookup

def ofText (text : Text) : LineLookup :=
  ⟨text, none⟩

def locate (offset : Int) (lookup : LineLookup) : Position × LineLookup :=
  let index := lookup.index?.getD (.ofText lookup.text)
  (index.locate offset, { lookup with index? := some index })

/-- The positions of offsets that are asked for one after the other. -/
def locateAll : List Int → LineLookup → List Position × LineLookup
  | [], lookup => ([], lookup)
  | offset :: offsets, lookup =>
      let (position, next) := lookup.locate offset
      let (positions, last) := locateAll offsets next
      (position :: positions, last)

end LineLookup

end Directive
