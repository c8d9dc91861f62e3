import Directive.Binary64

/-!
# Literals

The values that arguments are written with.  A literal keeps how it was written:
a string its quotation mark, a number its lexeme.
-/

namespace Directive

/-- The marks that may enclose a string. -/
inductive Quote where
  | double
  | single
  | backtick
deriving DecidableEq

def Quote.unit : Quote → CodeUnit
  | .double => 0x22
  | .single => 0x27
  | .backtick => 0x60

def Quote.ofUnit? (unit : CodeUnit) : Option Quote :=
  if unit = 0x22 then some .double
  else if unit = 0x27 then some .single
  else if unit = 0x60 then some .backtick
  else none

inductive Literal where
  | bool (value : Bool)
  | string (value : Text) (quote : Quote)
  | int (value : Binary64) (lexeme : Text)
  | float (value : Binary64) (lexeme : Text)
  | array (items : List Literal)

namespace Literal

/-- The kinds of literal that a handler can ask for. -/
inductive Kind where
  | bool
  | string
  | int
  | float
  | array
deriving DecidableEq

def kind : Literal → Kind
  | .bool _ => .bool
  | .string _ _ => .string
  | .int _ _ => .int
  | .float _ _ => .float
  | .array _ => .array

/-- A kind with its article, as messages name it. -/
def Kind.describe : Kind → Text
  | .bool => Text.ofString "a boolean"
  | .string => Text.ofString "a string"
  | .int => Text.ofString "an integer"
  | .float => Text.ofString "a float"
  | .array => Text.ofString "an array"

/-- Arrays nested deeper than this are not literals. -/
def maxNesting : Nat :=
  256

mutual

/-- How deeply arrays are nested in a literal: 0 for any other literal. -/
def nesting : Literal → Nat
  | .array items => nestingList items + 1
  | _ => 0

/-- The deepest nesting among the items of an array. -/
def nestingList : List Literal → Nat
  | [] => 0
  | item :: items => max (nesting item) (nestingList items)

end

mutual

/-- Writes a literal: strings between their marks, numbers by their lexemes. -/
def format : Literal → Text
  | .bool true => Text.ofString "true"
  | .bool false => Text.ofString "false"
  | .string value quote => quote.unit :: value ++ [quote.unit]
  | .int _ lexeme => lexeme
  | .float _ lexeme => lexeme
  | .array items => 0x5B :: formatItems items ++ [0x5D]

/-- Writes the items of an array, a comma and a space between neighbours. -/
def formatItems : List Literal → Text
  | [] => []
  | [item] => format item
  | item :: next :: items => format item ++ 0x2C :: 0x20 :: formatItems (next :: items)

end

end Literal

end Directive
