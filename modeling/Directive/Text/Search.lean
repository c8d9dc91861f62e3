import Directive.Text

/-!
# Occurrences of one text in another

Searching and splitting read from left to right, and occurrences that have been
found do not overlap: after a match the search goes on behind it.
-/

namespace Directive.Text

/-- Offset of the first occurrence of `needle` in a text that itself begins at
`offset`. -/
def findFrom (needle : Text) (offset : Nat) : Text → Option Nat
  | [] => if needle.isEmpty then some offset else none
  | unit :: rest =>
      if startsWith (unit :: rest) needle then some offset
      else findFrom needle (offset + 1) rest

/-- The pieces between the occurrences of a separator.  `skip` counts the units
still to be passed over of the occurrence just found, and `piece` holds the
current piece in reverse. -/
def piecesFrom (separator : Text) : (skip : Nat) → (piece : Text) → Text → List Text
  | _, piece, [] => [piece.reverse]
  | skip + 1, piece, _ :: rest => piecesFrom separator skip piece rest
  | 0, piece, unit :: rest =>
      if startsWith (unit :: rest) separator then
        piece.reverse :: piecesFrom separator (separator.length - 1) [] rest
      else
        piecesFrom separator 0 (unit :: piece) rest

/-- Splits a text at every occurrence of a separator.  The empty separator
occurs nowhere. -/
def split (separator text : Text) : List Text :=
  if separator.isEmpty then [text] else piecesFrom separator 0 [] text

/-- Puts `replacement` in place of every occurrence of `pattern`. -/
def replaceAll (pattern replacement text : Text) : Text :=
  join replacement (split pattern text)

theorem piecesFrom_ne_nil (separator : Text) (skip : Nat) (piece text : Text) :
    piecesFrom separator skip piece text ≠ [] := by
  fun_induction piecesFrom separator skip piece text <;> simp_all

theorem join_cons {separator piece : Text} {pieces : List Text} (more : pieces ≠ []) :
    join separator (piece :: pieces) = piece ++ separator ++ join separator pieces := by
  cases pieces with
  | nil => contradiction
  | cons next rest => rfl

private theorem join_piecesFrom {separator : Text} (proper : separator ≠ [])
    (skip : Nat) (piece text : Text) (enough : skip ≤ text.length) :
    join separator (piecesFrom separator skip piece text) =
      piece.reverse ++ text.drop skip := by
  fun_induction piecesFrom separator skip piece text with
  | case1 skip piece => simp [join]
  | case2 skip piece unit rest ih => simpa using ih (by simpa using enough)
  | case3 piece unit rest found ih =>
      obtain ⟨after, same⟩ := List.isPrefixOf_iff_prefix.mp found
      cases separator with
      | nil => contradiction
      | cons first others =>
          obtain ⟨rfl, restEq⟩ := List.cons.inj same
          rw [join_cons (piecesFrom_ne_nil _ _ _ _), ih (by simp [← restEq])]
          simp [← restEq]
  | case4 piece unit rest absent ih => simp [ih (Nat.zero_le _)]

/-- Splitting loses nothing: the pieces joined again are the text. -/
theorem join_split {separator : Text} (proper : separator ≠ []) (text : Text) :
    join separator (split separator text) = text := by
  have nonempty : separator.isEmpty = false := by simpa using proper
  simp [split, nonempty, join_piecesFrom proper 0 [] text (Nat.zero_le _)]

end Directive.Text
