import Directive.Proofs.Document.Canonical
import Directive.Proofs.Document.Cut

/-!
# Formatted calls in any surroundings

A call in canonical form is read as itself wherever no earlier call runs into
it.  What its strings contain is not looked at, nor is the text behind it: the
canonical form is derived as a whole, and a text begins at most one call.
-/

namespace Directive

namespace Document

/-- A run without opening braces in front of a call, or of the end, is one node
if it is not empty. -/
theorem Reads.behind_braceless {index : LineIndex} {offset : Nat} {front rest : Text}
    {nodes : List Node} (braceless : 0x7B ∉ front) (ahead : Call.BeginsOrEnds rest)
    (reads : Reads index (offset + front.length) rest nodes) :
    Reads index offset (front ++ rest)
      ((if front = [] then [] else [.text front ⟨offset, offset + front.length⟩]) ++ nodes) := by
  by_cases empty : front = []
  · subst empty
    simpa using reads
  · have run := Reads.text empty (Call.absent_of_notMem braceless) ahead reads
    simpa [empty] using run

/-- A formatted call behind a text without opening braces, and in front of any
text, is read as this call.  The nodes of the text behind it are those that the
text has by itself, moved. -/
theorem parse_around_format (front behind : Text) (invocation : Invocation)
    (wellFormed : invocation.WellFormed) (braceless : 0x7B ∉ front) :
    (parse (front ++ invocation.format ++ behind)).nodes =
      (if front = [] then [] else [.text front ⟨0, front.length⟩]) ++
        .call { invocation with
          raw := invocation.format
          span := ⟨front.length, front.length + invocation.format.length⟩
          position := Text.endPosition front } ::
        (parse behind).nodes.map
          (Node.moved (front.length + invocation.format.length)
            (Text.endPosition (front ++ invocation.format))) := by
  let cut := (front ++ invocation.format).length
  have later : Reads (.ofText (front ++ invocation.format ++ behind)) cut behind
      ((parse behind).nodes.map
        (Node.moved cut (Text.endPosition (front ++ invocation.format)))) := by
    have reads := @reads_drop (front ++ invocation.format ++ behind) cut (by simp [cut])
    rwa [List.drop_left, List.take_left] at reads
  have place : cut = 0 + front.length + invocation.format.length := by simp [cut]
  rw [place, List.append_assoc] at later
  have recognized := wellFormed.recognize?_format behind
  have called := Reads.call recognized later
  have whole := called.behind_braceless braceless (.inr ⟨_, recognized⟩)
  have position := @LineIndex.locate_eq_endPosition
    (front ++ (invocation.format ++ behind)) front.length (by simp)
  rw [List.take_left] at position
  rw [List.append_assoc, whole.nodes_eq]
  simp [callAt, position]

/-- A call with a string that closes a directive and opens another one. -/
def quotingCall : Invocation :=
  ⟨Text.ofString "f",
    [⟨Text.ofString "s", .string (Text.ofString "\x7d\x7d\x7b\x7bg()") .double⟩]⟩

theorem quotingCall_wellFormed : quotingCall.WellFormed := by
  constructor
  · decide
  · intro argument member
    obtain rfl := List.mem_singleton.mp member
    exact ⟨by decide, by simp [Literal.Consistent]; decide, Nat.zero_le _⟩

/-- The directive in the string is none, and neither brace around the call
belongs to it. -/
theorem parse_around_quotingCall :
    (parse (Text.ofString "a\n\x7d" ++ quotingCall.format ++ Text.ofString "\x7d!")).nodes =
      .text (Text.ofString "a\n\x7d") ⟨0, 3⟩ ::
        .call { quotingCall with
          raw := Text.ofString "\x7b\x7b f(s=\"\x7d\x7d\x7b\x7bg()\") \x7d\x7d"
          span := ⟨3, 23⟩
          position := ⟨2, 2⟩ } ::
        (parse (Text.ofString "\x7d!")).nodes.map (Node.moved 23 ⟨2, 22⟩) :=
  parse_around_format (Text.ofString "a\n\x7d") (Text.ofString "\x7d!") quotingCall
    quotingCall_wellFormed (by decide)

end Document

end Directive
