import Directive.Identifier
import Directive.Literal
import Directive.Numeral

/-!
# Grammar of literals

The literals that a text denotes, said without a reader.  A literal may be read
from a text exactly when the text derives it, and it may be written so that it
is read again exactly when it is well formed.
-/

namespace Directive

/-- A text that may stand between tokens. -/
def Spacing (text : Text) : Prop :=
  ∀ unit ∈ text, CodeUnit.isSpacing unit

/-- A zero, or digits that begin with another digit. -/
inductive WholeNumber : Text → Prop where
  | zero : WholeNumber [0x30]
  | digits {first : CodeUnit} {rest : Text} :
      CodeUnit.isDigit first → first ≠ 0x30 → (∀ unit ∈ rest, CodeUnit.isDigit unit) →
      WholeNumber (first :: rest)

/-- A whole number, perhaps after a minus sign. -/
inductive IntLexeme : Text → Prop where
  | plain {whole : Text} : WholeNumber whole → IntLexeme whole
  | signed {whole : Text} : WholeNumber whole → IntLexeme (0x2D :: whole)

/-- An integer with decimal places, at least one. -/
inductive FloatLexeme : Text → Prop where
  | mk {whole places : Text} :
      IntLexeme whole → places ≠ [] → (∀ unit ∈ places, CodeUnit.isDigit unit) →
      FloatLexeme (whole ++ 0x2E :: places)

namespace Literal

mutual

/-- `Derives room text literal`: the text denotes the literal, and arrays are
nested in it at most `room` deep. -/
inductive Derives : (room : Nat) → Text → Literal → Prop where
  | yes {room : Nat} : Derives room (Text.ofString "true") (.bool true)
  | no {room : Nat} : Derives room (Text.ofString "false") (.bool false)
  | string {room : Nat} {value : Text} {quote : Quote} :
      quote.unit ∉ value →
      Derives room (quote.unit :: value ++ [quote.unit]) (.string value quote)
  | int {room : Nat} {lexeme : Text} :
      IntLexeme lexeme → (Numeral.value lexeme).isSafeInteger →
      Derives room lexeme (.int (Numeral.value lexeme).withoutZeroSign lexeme)
  | float {room : Nat} {lexeme : Text} :
      FloatLexeme lexeme → (Numeral.value lexeme).isFinite →
      Derives room lexeme (.float (Numeral.value lexeme) lexeme)
  | empty {room : Nat} {spacing : Text} :
      Spacing spacing → Derives (room + 1) (0x5B :: spacing ++ [0x5D]) (.array [])
  | array {room : Nat} {before body : Text} {items : List Literal} :
      Spacing before → DerivesItems room body items →
      Derives (room + 1) (0x5B :: before ++ body ++ [0x5D]) (.array items)

/-- The items of an array that has at least one, with the spacing behind each
and the commas between them.  One comma may follow the last item. -/
inductive DerivesItems : (room : Nat) → Text → List Literal → Prop where
  | last {room : Nat} {text after : Text} {literal : Literal} :
      Derives room text literal → Spacing after → DerivesItems room (text ++ after) [literal]
  | lastComma {room : Nat} {text before after : Text} {literal : Literal} :
      Derives room text literal → Spacing before → Spacing after →
      DerivesItems room (text ++ before ++ 0x2C :: after) [literal]
  | cons {room : Nat} {text before after rest : Text} {literal : Literal}
      {items : List Literal} :
      Derives room text literal → Spacing before → Spacing after →
      DerivesItems room rest items →
      DerivesItems room (text ++ before ++ 0x2C :: after ++ rest) (literal :: items)

end

mutual

/-- A literal whose parts fit together, apart from the nesting of arrays: a
string does not hold its own quotation mark, and a number is the value of its
lexeme. -/
def Consistent : Literal → Prop
  | .bool _ => True
  | .string value quote => quote.unit ∉ value
  | .int value lexeme =>
      IntLexeme lexeme ∧ (Numeral.value lexeme).isSafeInteger ∧
        value = (Numeral.value lexeme).withoutZeroSign
  | .float value lexeme =>
      FloatLexeme lexeme ∧ (Numeral.value lexeme).isFinite ∧ value = Numeral.value lexeme
  | .array items => ConsistentItems items

def ConsistentItems : List Literal → Prop
  | [] => True
  | item :: items => Consistent item ∧ ConsistentItems items

end

/-- A consistent literal in which arrays are not nested too deeply. -/
def WellFormed (literal : Literal) : Prop :=
  Consistent literal ∧ literal.nesting ≤ maxNesting

end Literal

end Directive
