import Directive.Text

/-!
# Reading UTF-8

Bytes become text.  The longest beginning of an encoded character that is not
completed, and every byte that begins none, becomes one replacement character.
-/

namespace Directive.Utf8

/-- A character of which `missing` more bytes are expected, the next one between
`lower` and `upper`; `bits` are those read so far. -/
structure Pending where
  missing : Nat
  lower : UInt8
  upper : UInt8
  bits : Nat

def replacement : CodeUnit :=
  0xFFFD

/-- What a byte outside a character begins: a unit of its own, a longer
character, or nothing. -/
def lead (byte : UInt8) : Except Text Pending :=
  if byte < 0x80 then .error [byte.toUInt16]
  else if 0xC2 ≤ byte && byte < 0xE0 then .ok ⟨1, 0x80, 0xBF, byte.toNat - 0xC0⟩
  else if 0xE0 ≤ byte && byte < 0xF0 then
    .ok ⟨2, if byte = 0xE0 then 0xA0 else 0x80, if byte = 0xED then 0x9F else 0xBF,
      byte.toNat - 0xE0⟩
  else if 0xF0 ≤ byte && byte < 0xF5 then
    .ok ⟨3, if byte = 0xF0 then 0x90 else 0x80, if byte = 0xF4 then 0x8F else 0xBF,
      byte.toNat - 0xF0⟩
  else .error [replacement]

/-- Decodes bytes behind the units that are decoded already, which are given in
reverse. -/
def decodeOnto (decoded : Text) : Option Pending → List UInt8 → Text
  | none, [] => decoded.reverse
  | some _, [] => (replacement :: decoded).reverse
  | none, byte :: bytes =>
      match lead byte with
      | .error units => decodeOnto (units.reverse ++ decoded) none bytes
      | .ok pending => decodeOnto decoded (some pending) bytes
  | some pending, byte :: bytes =>
      if pending.lower ≤ byte && byte ≤ pending.upper then
        let bits := pending.bits * 0x40 + (byte.toNat - 0x80)
        if pending.missing = 1 then
          decodeOnto ((Text.encodeChar (Char.ofNat bits)).reverse ++ decoded) none bytes
        else decodeOnto decoded (some ⟨pending.missing - 1, 0x80, 0xBF, bits⟩) bytes
      else
        match lead byte with
        | .error units => decodeOnto (units.reverse ++ replacement :: decoded) none bytes
        | .ok next => decodeOnto (replacement :: decoded) (some next) bytes

def decode (bytes : List UInt8) : Text :=
  decodeOnto [] none bytes

end Directive.Utf8
