import Directive.Proofs.Call.Alignment
import Directive.Proofs.Call.Format
import Directive.Proofs.Document.Reading

/-!
# Canonical documents

A document in canonical form means the same as the document it was made from.
The canonical text is aligned with the source, so a place that does not begin a
call in the source does not begin one in the canonical text.
-/

namespace Directive

/-- What a node says, apart from its place and from the spacing of a call. -/
def Node.content : Node → Text ⊕ Invocation
  | .text value _ => .inl value
  | .call directive => .inr directive.toInvocation

theorem Node.format_eq_elim (node : Node) :
    node.format = node.content.elim id Invocation.format := by
  cases node <;> rfl

/-- A run that has no call before the second text has none before the first. -/
theorem Call.Absent.of_aligned {run text other : Text} (absent : Call.Absent run other)
    (aligned : Aligned .run text other) : Call.Absent run text := by
  induction run with
  | nil => exact Call.absent_nil text
  | cons unit run ih =>
      obtain ⟨here, later⟩ := Call.absent_cons_iff.mp absent
      apply Call.absent_cons_iff.mpr
      constructor
      · apply Option.eq_none_iff_forall_ne_some.mpr
        intro found recognized
        obtain ⟨other, otherRecognized⟩ :=
          Call.recognize?_of_aligned (aligned.run_append run) ⟨found, recognized⟩
        simp [here] at otherRecognized
      · exact ih later

theorem Invocation.WellFormed.recognize?_format {invocation : Invocation}
    (wellFormed : invocation.WellFormed) (behind : Text) :
    Call.recognize? (invocation.format ++ behind) =
      some (invocation, invocation.format.length) :=
  Call.recognize?_eq_some_iff.mpr ⟨_, behind, rfl, rfl, wellFormed.derives_format⟩

namespace Document

theorem serialize_eq_of_content {document other : Document}
    (same : document.nodes.map Node.content = other.nodes.map Node.content) :
    document.serialize = other.serialize := by
  have formatEq : Node.format = fun node => node.content.elim id Invocation.format :=
    funext Node.format_eq_elim
  have contents := congrArg (List.flatMap (Sum.elim id Invocation.format)) same
  simpa only [serialize, formatEq, List.flatMap_map] using contents

namespace Reads

variable {index : LineIndex} {offset : Nat} {text : Text} {nodes : List Node}

theorem aligned (reads : Reads index offset text nodes) :
    Aligned .run (nodes.flatMap Node.format) text := by
  induction reads with
  | done => exact .done
  | text _ _ _ _ ih => exact Aligned.run_append _ ih
  | @call _ raw rest invocation nodes recognized _ ih =>
      obtain ⟨found, _, textEq, lengthEq, derives⟩ := Call.recognize?_eq_some_iff.mp recognized
      obtain ⟨rfl, rfl⟩ := List.append_inj textEq lengthEq.symm
      obtain ⟨canonical, written, formatEq, rfl, parts⟩ := derives.matches_format
      have entered := Aligned.enter (parts _ _ (.leave ih))
      simpa [callAt, Node.format, formatEq, Call.opener] using entered

theorem recognize?_format {raw rest following : Text} {invocation : Invocation}
    (recognized : Call.recognize? (raw ++ rest) = some (invocation, raw.length)) :
    Call.recognize? (invocation.format ++ following) =
      some (invocation, invocation.format.length) := by
  obtain ⟨_, _, _, _, derives⟩ := Call.recognize?_eq_some_iff.mp recognized
  exact derives.wellFormed.recognize?_format following

theorem beginsOrEnds_format (reads : Reads index offset text nodes)
    (ahead : Call.BeginsOrEnds text) : Call.BeginsOrEnds (nodes.flatMap Node.format) := by
  cases reads with
  | done => exact .inl rfl
  | @text _ value rest nodes nonempty absent _ _ =>
      rcases ahead with ended | ⟨found, recognized⟩
      · exact absurd (List.append_eq_nil_iff.mp ended).1 nonempty
      · simp [absent [] value rfl nonempty] at recognized
  | call recognized _ => exact .inr ⟨_, recognize?_format recognized⟩

/-- The canonical text falls into nodes of the same content, wherever it stands. -/
theorem canonical (reads : Reads index offset text nodes) (otherIndex : LineIndex)
    (otherOffset : Nat) :
    ∃ others, Reads otherIndex otherOffset (nodes.flatMap Node.format) others ∧
      others.map Node.content = nodes.map Node.content := by
  induction reads generalizing otherOffset with
  | done => exact ⟨[], .done, rfl⟩
  | @text offset value rest nodes nonempty absent ahead reads ih =>
      obtain ⟨others, othersRead, contents⟩ := ih (otherOffset + value.length)
      have noCall := absent.of_aligned reads.aligned
      have next := reads.beginsOrEnds_format ahead
      have again := Reads.text nonempty noCall next othersRead
      exact ⟨_, again, by simp [Node.content, contents]⟩
  | @call offset raw rest invocation nodes recognized reads ih =>
      obtain ⟨others, othersRead, contents⟩ := ih (otherOffset + invocation.format.length)
      have again := Reads.call (recognize?_format recognized) othersRead
      exact ⟨_, again, by simp [Node.content, callAt, contents]⟩

end Reads

/-- Writing a document in canonical form and reading it again gives nodes of the
same kinds, with the same texts and the same calls.  Doing so twice gives the
same text as doing so once. -/
theorem parse_serialize (source : Text) :
    (parse (parse source).serialize).nodes.map Node.content =
        (parse source).nodes.map Node.content ∧
      (parse (parse source).serialize).serialize = (parse source).serialize := by
  obtain ⟨others, reads, contents⟩ :=
    (parse_reads source).canonical (.ofText (parse source).serialize) 0
  have nodesEq : (parse (parse source).serialize).nodes = others := reads.nodes_eq
  have same : (parse (parse source).serialize).nodes.map Node.content =
      (parse source).nodes.map Node.content := by
    rw [nodesEq, contents]
  exact ⟨same, serialize_eq_of_content same⟩

end Document

end Directive
