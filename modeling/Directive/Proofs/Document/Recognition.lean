import Directive.Proofs.Document.Reading

/-!
# Which calls a document has

The calls of a parsed document are derived by the grammar from the places where
they stand, no call can be derived from any place within a run of text, and
runs and calls together cover the source.
-/

namespace Directive

theorem Text.slice_middle (front middle back : Text) :
    Text.slice (front ++ (middle ++ back)) front.length (front.length + middle.length) =
      middle := by
  have cut := Text.slice_ofNat (front ++ (middle ++ back)) front.length
    (front.length + middle.length)
  rw [Int.natCast_add] at cut
  rw [cut, List.take_length_add_append, List.take_left, List.drop_left]

namespace Document

variable {index : LineIndex}

theorem Reads.derives_of_mem {offset : Nat} {text : Text} {nodes : List Node} {call : Call}
    (reads : Reads index offset text nodes) (front : Text) (place : front.length = offset)
    (member : Node.call call ∈ nodes) :
    Invocation.Derives call.raw call.toInvocation ∧
      call.raw = Text.slice (front ++ text) call.span.start call.span.stop := by
  induction reads generalizing front with
  | done => simp at member
  | @text offset value rest nodes _ _ _ _ ih =>
      have later : Node.call call ∈ nodes := by simpa using member
      have found := ih (front ++ value) (by simp [place]) later
      simpa using found
  | @call offset raw rest invocation nodes recognized _ ih =>
      rcases List.mem_cons.mp member with here | later
      · obtain ⟨found, remaining, textEq, lengthEq, derives⟩ :=
          Call.recognize?_eq_some_iff.mp recognized
        obtain ⟨rfl, rfl⟩ := List.append_inj textEq lengthEq.symm
        simp only [callAt, Node.call.injEq] at here
        subst here
        simp [derives, ← place, Text.slice_middle]
      · have found := ih (front ++ raw) (by simp [place]) later
        simpa using found

/-- Where a run of text stands in the source, and that no call begins in it. -/
theorem Reads.absent_of_mem {offset : Nat} {text value : Text} {nodes : List Node} {span : Span}
    (reads : Reads index offset text nodes) (front : Text) (place : front.length = offset)
    (member : Node.text value span ∈ nodes) :
    ∃ before after, front ++ text = before ++ (value ++ after) ∧
      span = ⟨before.length, before.length + value.length⟩ ∧ Call.Absent value after := by
  induction reads generalizing front with
  | done => simp at member
  | @text offset run rest nodes _ absent _ _ ih =>
      rcases List.mem_cons.mp member with here | later
      · obtain ⟨rfl, rfl⟩ := Node.text.inj here
        exact ⟨front, rest, rfl, by rw [place], absent⟩
      · obtain ⟨before, after, sourceEq, spanEq, noCall⟩ :=
          ih (front ++ run) (by simp [place]) later
        exact ⟨before, after, by rw [← sourceEq, List.append_assoc], spanEq, noCall⟩
  | @call offset raw rest invocation nodes _ _ ih =>
      have later : Node.text value span ∈ nodes := by simpa [callAt] using member
      obtain ⟨before, after, sourceEq, spanEq, noCall⟩ :=
        ih (front ++ raw) (by simp [place]) later
      exact ⟨before, after, by rw [← sourceEq, List.append_assoc], spanEq, noCall⟩

theorem Reads.covers {offset : Nat} {text : Text} {nodes : List Node}
    (reads : Reads index offset text nodes) (place : Nat) (behind : offset ≤ place)
    (before : place < offset + text.length) :
    ∃ node ∈ nodes, node.span.start ≤ place ∧ place < node.span.stop := by
  induction reads with
  | done => simp at before; omega
  | @text offset value rest nodes _ _ _ _ ih =>
      rw [List.length_append] at before
      by_cases within : place < offset + value.length
      · refine ⟨_, List.mem_cons_self, ?_⟩
        simp only [Node.span]
        omega
      · obtain ⟨node, member, covered⟩ := ih (by omega) (by omega)
        exact ⟨node, List.mem_cons_of_mem _ member, covered⟩
  | @call offset raw rest invocation nodes _ _ ih =>
      rw [List.length_append] at before
      by_cases within : place < offset + raw.length
      · refine ⟨_, List.mem_cons_self, ?_⟩
        simp only [callAt, Node.span]
        omega
      · obtain ⟨node, member, covered⟩ := ih (by omega) (by omega)
        exact ⟨node, List.mem_cons_of_mem _ member, covered⟩

/-- What a call derives from a place of a text, it is recognized there. -/
theorem recognize?_of_slice {text : Text} {start stop : Nat} {invocation : Invocation}
    (derives : Invocation.Derives (Text.slice text start stop) invocation) :
    ∃ found, Call.recognize? (text.drop start) = some found := by
  rw [Text.slice_ofNat, List.drop_take] at derives
  refine ⟨_, Call.recognize?_eq_some_iff.mpr
    ⟨_, (text.drop start).drop (stop - start), ?_, rfl, derives⟩⟩
  exact (List.take_append_drop (stop - start) (text.drop start)).symm

/-- A parsed document has exactly the calls of the grammar, from left to right:
each call is what the grammar derives from the text at its span and nothing
else, no call can be derived from a place within a run of text, and every place
of the source belongs to a node. -/
theorem parse_recognizes (source : Text) :
    (∀ call, Node.call call ∈ (parse source).nodes →
      (∀ invocation, Invocation.Derives call.raw invocation ↔ invocation = call.toInvocation) ∧
        call.raw = Text.slice source call.span.start call.span.stop) ∧
    (∀ value span, Node.text value span ∈ (parse source).nodes →
      ∀ start stop : Nat, span.start ≤ start → start < span.stop →
        ¬ ∃ invocation, Invocation.Derives (Text.slice source start stop) invocation) ∧
    (∀ place : Nat, place < source.length →
      ∃ node ∈ (parse source).nodes, node.span.start ≤ place ∧ place < node.span.stop) := by
  have reads := parse_reads source
  refine ⟨?_, ?_, ?_⟩
  · intro call member
    obtain ⟨derives, rawEq⟩ := reads.derives_of_mem [] rfl member
    refine ⟨fun invocation => ⟨?_, ?_⟩, rawEq⟩
    · intro other
      have same : call.raw ++ [] = call.raw ++ [] := rfl
      exact (Call.derives_unique other derives same).2
    · intro same
      subst same
      exact derives
  · intro value span member start stop behind before derived
    obtain ⟨invocation, derives⟩ := derived
    obtain ⟨front, after, sourceEq, rfl, absent⟩ := reads.absent_of_mem [] rfl member
    obtain ⟨found, recognized⟩ := recognize?_of_slice derives
    obtain ⟨passed, rfl⟩ := Nat.exists_eq_add_of_le (Int.ofNat_le.mp behind)
    have within : passed < value.length := by
      simp only [Int.natCast_add] at before
      omega
    have sourceSplit : source = front ++ (value ++ after) := sourceEq
    rw [sourceSplit, List.drop_length_add_append, absent.recognize?_drop within] at recognized
    cases recognized
  · intro place within
    exact reads.covers place (Nat.zero_le _) (by simpa using within)

end Document

end Directive
