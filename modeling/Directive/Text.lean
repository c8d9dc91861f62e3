/-!
# Text as 16-bit code units

Every offset, length and column of this library counts 16-bit units, and a cut
may fall between the two halves of a surrogate pair.  A text is therefore a
list of units, and characters appear only where text enters and leaves.
-/

namespace Directive

/-- One 16-bit unit of UTF-16 text. -/
abbrev CodeUnit := UInt16

/-- A text, unit by unit; unpaired surrogates are allowed. -/
abbrev Text := List CodeUnit

namespace Text

/-- The one or two units that encode a character. -/
def encodeChar (character : Char) : Text :=
  if character.toNat < 0x10000 then
    [UInt16.ofNat character.toNat]
  else
    let offset := character.toNat - 0x10000
    [UInt16.ofNat (0xD800 + offset / 0x400), UInt16.ofNat (0xDC00 + offset % 0x400)]

def ofChars (characters : List Char) : Text :=
  characters.flatMap encodeChar

def ofString (string : String) : Text :=
  ofChars string.toList

/-- Decimal digits of a natural number. -/
def ofNat (number : Nat) : Text :=
  ofChars (Nat.toDigits 10 number)

/-- Decimal digits of an integer, after a minus sign if it is negative. -/
def ofInt (number : Int) : Text :=
  if number < 0 then 0x2D :: ofNat number.natAbs else ofNat number.natAbs

def isHighSurrogate (unit : CodeUnit) : Bool :=
  0xD800 ≤ unit && unit < 0xDC00

def isLowSurrogate (unit : CodeUnit) : Bool :=
  0xDC00 ≤ unit && unit < 0xE000

/-- The character that a surrogate pair encodes. -/
def decodePair (high low : CodeUnit) : Char :=
  Char.ofNat (0x10000 + (high.toNat - 0xD800) * 0x400 + (low.toNat - 0xDC00))

/-- The character that one unit encodes; a surrogate without its partner
encodes none and is replaced. -/
def decodeUnit (unit : CodeUnit) : Char :=
  if isHighSurrogate unit || isLowSurrogate unit then Char.ofNat 0xFFFD
  else Char.ofNat unit.toNat

/-- Appends the characters of a text to a string. -/
def appendTo (string : String) : Text → String
  | [] => string
  | [unit] => string.push (decodeUnit unit)
  | first :: second :: rest =>
      if isHighSurrogate first && isLowSurrogate second then
        appendTo (string.push (decodePair first second)) rest
      else
        appendTo (string.push (decodeUnit first)) (second :: rest)

def toString (text : Text) : String :=
  appendTo "" text

/-- The white space that trimming removes: the blanks and line ends of
Unicode, with the byte order mark among them. -/
def isTrimmable (unit : CodeUnit) : Bool :=
  (0x09 ≤ unit && unit ≤ 0x0D) || (0x2000 ≤ unit && unit ≤ 0x200A) ||
    [0x20, 0xA0, 0x1680, 0x2028, 0x2029, 0x202F, 0x205F, 0x3000, 0xFEFF].contains unit

/-- The text without its leading and trailing white space. -/
def trim (text : Text) : Text :=
  ((text.dropWhile isTrimmable).reverse.dropWhile isTrimmable).reverse

/-- A text of white space only, the empty one included. -/
def isBlank (text : Text) : Bool :=
  (trim text).isEmpty

/-- ASCII capitals become small letters; no other unit changes. -/
def toLower (text : Text) : Text :=
  text.map fun unit => if 0x41 ≤ unit && unit ≤ 0x5A then unit + 0x20 else unit

def startsWith (text lead : Text) : Bool :=
  lead.isPrefixOf text

def endsWith (text tail : Text) : Bool :=
  tail.isSuffixOf text

/-- The cut in a text of `length` units that an offset stands for: a negative one
counts back from the end, and one outside the text falls on its nearer end. -/
def cutAt (length : Nat) (offset : Int) : Nat :=
  if offset < 0 then (offset + length).toNat else min offset.toNat length

/-- The units between two cuts, none if the second comes before the first. -/
def slice (text : Text) (start stop : Int) : Text :=
  (text.take (cutAt text.length stop)).drop (cutAt text.length start)

theorem cutAt_ofNat (length offset : Nat) : cutAt length offset = min offset length := by
  have inside : ¬ ((offset : Int) < 0) := by omega
  simp [cutAt, inside]

/-- Between offsets that count from the start, a slice takes and drops. -/
theorem slice_ofNat (text : Text) (start stop : Nat) :
    slice text start stop = (text.take stop).drop start := by
  unfold slice
  rw [cutAt_ofNat, cutAt_ofNat]
  by_cases inside : start ≤ text.length
  · rw [Nat.min_eq_left inside]
    by_cases within : stop ≤ text.length
    · rw [Nat.min_eq_left within]
    · rw [Nat.min_eq_right (by omega), List.take_length, List.take_of_length_le (by omega)]
  · rw [Nat.min_eq_right (by omega), List.drop_of_length_le (by rw [List.length_take]; omega),
      List.drop_of_length_le (by rw [List.length_take]; omega)]

/-- A text between two copies of a delimiter. -/
def enclose (delimiter text : Text) : Text :=
  delimiter ++ text ++ delimiter

/-- Text in double quotation marks, as messages show it. -/
def quoted (text : Text) : Text :=
  enclose [0x22] text

/-- The pieces one after the other, with the separator between neighbours. -/
def join (separator : Text) : List Text → Text
  | [] => []
  | [piece] => piece
  | piece :: next :: pieces => piece ++ separator ++ join separator (next :: pieces)

end Text

end Directive
