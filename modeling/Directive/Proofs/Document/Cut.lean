import Directive.Proofs.Document.Tiling
import Directive.Proofs.LineIndex

/-!
# Documents in two parts

A source may be cut anywhere outside its calls and be parsed in two parts.  The
nodes of the parts are those of the whole, once the second part is moved behind
the first and two runs of text that meet at the cut are joined.  This holds
because a call is recognized by its own units alone: a call that is broken off
by the end of the first part is none there either.
-/

namespace Directive

/-! ## Calls by their own units -/

namespace Call

theorem recognize?_append_iff {raw rest : Text} {invocation : Invocation} :
    recognize? (raw ++ rest) = some (invocation, raw.length) ↔
      Invocation.Derives raw invocation := by
  rw [recognize?_eq_some_iff]
  constructor
  · intro begins
    obtain ⟨found, remaining, textEq, lengthEq, derives⟩ := begins
    obtain ⟨rfl, -⟩ := List.append_inj textEq lengthEq.symm
    exact derives
  · intro derives
    exact ⟨raw, rest, rfl, rfl, derives⟩

/-- What is recognized stays so if the text goes on. -/
theorem recognize?_append {text : Text} {found : Invocation × Nat}
    (recognized : recognize? text = some found) (more : Text) :
    recognize? (text ++ more) = some found := by
  obtain ⟨invocation, length⟩ := found
  obtain ⟨raw, rest, rfl, rfl, derives⟩ := recognize?_eq_some_iff.mp recognized
  rw [List.append_assoc]
  exact recognize?_append_iff.mpr derives

/-- The beginning of a call is not a call. -/
theorem recognize?_take {raw : Text} {invocation : Invocation} {shorter : Nat}
    (derives : Invocation.Derives raw invocation) (proper : shorter < raw.length) :
    recognize? (raw.take shorter) = none := by
  apply Option.eq_none_iff_forall_ne_some.mpr
  intro found recognized
  obtain ⟨other, length⟩ := found
  obtain ⟨-, within⟩ := recognize?_length recognized
  have whole := recognize?_append recognized (raw.drop shorter)
  have same := (@recognize?_append_iff raw [] invocation).mpr derives
  rw [List.append_nil] at same
  rw [List.take_append_drop, same] at whole
  rw [List.length_take] at within
  obtain ⟨-, rfl⟩ := Prod.mk.inj (Option.some.inj whole)
  omega

theorem Absent.of_append {run rest more : Text} (absent : Absent run (rest ++ more)) :
    Absent run rest := by
  intro before after split nonempty
  apply Option.eq_none_iff_forall_ne_some.mpr
  intro found recognized
  have longer := recognize?_append recognized more
  rw [List.append_assoc, absent before after split nonempty] at longer
  cases longer

end Call

/-! ## Two lists of nodes -/

namespace Node

/-- The nodes before a cut and those behind it.  Two runs of text that meet at
the cut are one. -/
def join : List Node → List Node → List Node
  | [], behind => behind
  | [.text value span], .text other otherSpan :: behind =>
      .text (value ++ other) ⟨span.start, otherSpan.stop⟩ :: behind
  | node :: before, behind => node :: join before behind

/-- The node where its text begins at an offset of another text, `origin` being
the position there. -/
def moved (offset : Nat) (origin : Position) : Node → Node
  | .text value span => .text value ⟨span.start + offset, span.stop + offset⟩
  | .call directive =>
      .call { directive with
        span := ⟨directive.span.start + offset, directive.span.stop + offset⟩
        position := origin.behind directive.position }

variable {node : Node} {before behind : List Node}

theorem join_call (directive : Call) (before behind : List Node) :
    join (.call directive :: before) behind = .call directive :: join before behind := by
  simp [join]

/-- Nothing is joined to a node that does not stand before text. -/
theorem join_cons (calls : ∀ first ∈ (join before behind).head?, first.isCall) :
    join (node :: before) behind = node :: join before behind := by
  cases node with
  | call directive => exact join_call directive before behind
  | text value span =>
      cases before with
      | cons next before => simp [join]
      | nil =>
          cases behind with
          | nil => simp [join]
          | cons first behind =>
              cases first with
              | call directive => simp [join]
              | text other otherSpan =>
                  have isCall := calls (.text other otherSpan) rfl
                  cases isCall

theorem isCall_head_join (isFirst : node ∈ before.head?) :
    ∃ first ∈ (join before behind).head?, first.isCall = node.isCall := by
  fun_cases join before behind with
  | case1 => cases isFirst
  | case2 value span other otherSpan behind =>
      cases isFirst
      exact ⟨_, rfl, rfl⟩
  | case3 first before behind =>
      cases isFirst
      exact ⟨_, rfl, rfl⟩

end Node

namespace Document

namespace Reads

variable {index other : LineIndex} {offset : Nat} {text : Text} {nodes : List Node}

/-! ## Cutting -/

/-- Two ways to cut a text. -/
theorem cut_cases {value rest left right : Text} (same : value ++ rest = left ++ right) :
    (∃ further, left = value ++ further ∧ rest = further ++ right) ∨
      ∃ tail, tail ≠ [] ∧ value = left ++ tail ∧ right = tail ++ rest := by
  rcases List.append_eq_append_iff.mp same with
    ⟨further, leftEq, restEq⟩ | ⟨tail, valueEq, rightEq⟩
  · exact .inl ⟨further, leftEq, restEq⟩
  · by_cases empty : tail = []
    · subst empty
      exact .inl ⟨[], by simp [valueEq], by simpa using rightEq.symm⟩
    · exact .inr ⟨tail, empty, valueEq, rightEq⟩

theorem callAt_append (index : LineIndex) (offset : Nat) (invocation : Invocation)
    (raw rest : Text) :
    callAt index offset raw.length invocation (raw ++ rest) =
      callAt index offset raw.length invocation raw := by
  simp [callAt]

/-- A cut outside the calls falls between two nodes or within a run of text. -/
theorem cut {left right : Text} (reads : Reads index offset text nodes)
    (textEq : text = left ++ right)
    (outside : ∀ call, Node.call call ∈ nodes →
      ¬ (call.span.start < (offset + left.length : Nat) ∧
        (offset + left.length : Nat) < call.span.stop)) :
    ∃ before behind, Reads index offset left before ∧
      Reads index (offset + left.length) right behind ∧ nodes = Node.join before behind := by
  induction reads generalizing left with
  | done =>
      obtain ⟨rfl, rfl⟩ := List.append_eq_nil_iff.mp textEq.symm
      exact ⟨[], [], .done, .done, rfl⟩
  | @text offset value rest nodes nonempty absent ahead reads ih =>
      rcases cut_cases textEq with ⟨further, rfl, rfl⟩ | ⟨tail, more, rfl, rfl⟩
      · have place : offset + value.length + further.length =
            offset + (value ++ further).length := by
          rw [List.length_append, Nat.add_assoc]
        have later : ∀ call, Node.call call ∈ nodes →
            ¬ (call.span.start < (offset + value.length + further.length : Nat) ∧
              (offset + value.length + further.length : Nat) < call.span.stop) := by
          intro call member
          rw [place]
          exact outside call (List.mem_cons_of_mem _ member)
        obtain ⟨before, behind, beforeReads, behindReads, rfl⟩ := ih rfl later
        have calls := reads.beginsOrEnds_iff.mp ahead
        have next : Call.BeginsOrEnds further := by
          apply beforeReads.beginsOrEnds_iff.mpr
          intro node isFirst
          obtain ⟨first, isHead, same⟩ := Node.isCall_head_join isFirst
          rw [← same]
          exact calls first isHead
        rw [place] at behindReads
        exact ⟨_, behind, .text nonempty absent.of_append next beforeReads, behindReads,
          (Node.join_cons calls).symm⟩
      · cases left with
        | nil => exact ⟨[], _, .done, .text nonempty absent ahead reads, rfl⟩
        | cons unit left =>
            obtain ⟨here, there⟩ := Call.absent_append_iff.mp absent
            have ended : Call.Absent (unit :: left) [] := @Call.Absent.of_append _ [] _ here
            have before : Reads index offset (unit :: left ++ []) [_] :=
              .text (by simp) ended (.inl rfl) .done
            rw [List.length_append, ← Nat.add_assoc] at reads
            rw [List.append_nil] at before
            refine ⟨_, _, before, .text more there ahead reads, ?_⟩
            simp only [Node.join, List.length_append, Int.natCast_add, Int.add_assoc]
  | @call offset raw rest invocation nodes recognized reads ih =>
      rcases cut_cases textEq with ⟨further, rfl, rfl⟩ | ⟨tail, more, rfl, rfl⟩
      · have place : offset + raw.length + further.length = offset + (raw ++ further).length := by
          rw [List.length_append, Nat.add_assoc]
        have later : ∀ call, Node.call call ∈ nodes →
            ¬ (call.span.start < (offset + raw.length + further.length : Nat) ∧
              (offset + raw.length + further.length : Nat) < call.span.stop) := by
          intro call member
          rw [place]
          exact outside call (List.mem_cons_of_mem _ member)
        obtain ⟨before, behind, beforeReads, behindReads, rfl⟩ := ih rfl later
        have again : Call.recognize? (raw ++ further) = some (invocation, raw.length) :=
          Call.recognize?_append_iff.mpr (Call.recognize?_append_iff.mp recognized)
        rw [place] at behindReads
        refine ⟨_, behind, .call again beforeReads, behindReads, ?_⟩
        rw [callAt_append, callAt_append, callAt, Node.join_call]
      · cases left with
        | nil => exact ⟨[], _, .done, .call recognized reads, rfl⟩
        | cons unit left =>
            have straddled := outside _ List.mem_cons_self
            have positive := List.length_pos_of_ne_nil more
            simp only [callAt, List.length_append, List.length_cons] at straddled
            omega

/-! ## Moving -/

theorem move {moved : Nat} {origin : Position} (reads : Reads index offset text nodes)
    (positions : ∀ place : Nat, place ≤ offset + text.length →
      other.locate (place + moved : Nat) = origin.behind (index.locate place)) :
    Reads other (offset + moved) text (nodes.map (Node.moved moved origin)) := by
  induction reads with
  | done => exact .done
  | @text offset value rest nodes nonempty absent ahead _ ih =>
      have later := ih (fun place within => positions place (by
        rw [List.length_append]
        omega))
      rw [Nat.add_right_comm] at later
      have here := Reads.text nonempty absent ahead later
      simpa only [List.map_cons, Node.moved, Int.natCast_add, Int.add_right_comm] using here
  | @call offset raw rest invocation nodes recognized _ ih =>
      have later := ih (fun place within => positions place (by
        rw [List.length_append]
        omega))
      rw [Nat.add_right_comm] at later
      have here := Reads.call recognized later
      have position := positions offset (Nat.le_add_right _ _)
      rw [Int.natCast_add] at position
      simpa only [List.map_cons, callAt, Node.moved, position, Int.natCast_add,
        Int.add_right_comm] using here

end Reads

theorem moved_start : Node.moved 0 ⟨1, 1⟩ = id := by
  funext node
  cases node <;> simp [Node.moved, Position.start_behind]

/-- The text before a cut falls into its nodes within the whole. -/
theorem reads_take {source : Text} {cut : Nat} (within : cut ≤ source.length) :
    Reads (.ofText source) 0 (source.take cut) (parse (source.take cut)).nodes := by
  have positions : ∀ place : Nat, place ≤ 0 + (source.take cut).length →
      (LineIndex.ofText source).locate (place + 0 : Nat) =
        Position.behind ⟨1, 1⟩ ((LineIndex.ofText (source.take cut)).locate place) := by
    intro place before
    rw [List.length_take] at before
    rw [Position.start_behind, LineIndex.locate_eq_endPosition (by omega),
      LineIndex.locate_eq_endPosition (by rw [List.length_take]; omega), List.take_take,
      Nat.min_eq_left (by omega), Nat.add_zero]
  have reads := (parse_reads (source.take cut)).move positions
  simpa [moved_start] using reads

/-- The text behind a cut falls into its nodes, moved, within the whole. -/
theorem reads_drop {source : Text} {cut : Nat} (within : cut ≤ source.length) :
    Reads (.ofText source) cut (source.drop cut)
      ((parse (source.drop cut)).nodes.map
        (Node.moved cut (Text.endPosition (source.take cut)))) := by
  have positions : ∀ place : Nat, place ≤ 0 + (source.drop cut).length →
      (LineIndex.ofText source).locate (place + cut : Nat) =
        (Text.endPosition (source.take cut)).behind
          ((LineIndex.ofText (source.drop cut)).locate place) := by
    intro place before
    rw [Nat.zero_add] at before
    have length := @List.length_drop _ cut source
    rw [LineIndex.locate_eq_endPosition (by omega), LineIndex.locate_eq_endPosition before,
      ← Text.endPosition_append, Nat.add_comm, List.take_add]
  have reads := (parse_reads (source.drop cut)).move positions
  rw [Nat.zero_add] at reads
  exact reads

/-- A source that is cut outside its calls has the nodes of its two parts. A
call is recognized by its own units, wherever it stands, and no beginning of it
is a call. -/
theorem parse_cut (source : Text) :
    (∀ cut ≤ source.length,
      (∀ call ∈ (parse source).calls, ¬ (call.span.start < cut ∧ cut < call.span.stop)) →
      (parse source).nodes =
        Node.join (parse (source.take cut)).nodes
          ((parse (source.drop cut)).nodes.map
            (Node.moved cut (Text.endPosition (source.take cut))))) ∧
    ∀ start length invocation,
      Call.recognize? (source.drop start) = some (invocation, length) →
      (∀ front back : Text,
        Call.recognize?
            ((front ++ Text.slice source start (start + length) ++ back).drop front.length) =
          some (invocation, length)) ∧
      ∀ shorter < length,
        Call.recognize? (Text.slice source start (start + shorter)) = none := by
  constructor
  · intro cut within outside
    have width : (source.take cut).length = cut := by
      rw [List.length_take, Nat.min_eq_left within]
    have notStraddled : ∀ call, Node.call call ∈ (parse source).nodes →
        ¬ (call.span.start < (0 + (source.take cut).length : Nat) ∧
          (0 + (source.take cut).length : Nat) < call.span.stop) := by
      intro call member
      rw [Nat.zero_add, width]
      exact outside call (mem_calls_iff.mpr member)
    obtain ⟨before, behind, beforeReads, behindReads, nodesEq⟩ :=
      (parse_reads source).cut (List.take_append_drop cut source).symm notStraddled
    rw [Nat.zero_add, width] at behindReads
    rw [nodesEq, ← beforeReads.nodes_readFrom, ← behindReads.nodes_readFrom,
      (reads_take within).nodes_readFrom, (reads_drop within).nodes_readFrom]
  · intro start length invocation recognized
    obtain ⟨raw, rest, textEq, rfl, derives⟩ := Call.recognize?_eq_some_iff.mp recognized
    have sliceEq : ∀ width : Nat, Text.slice source start (start + width) =
        (raw ++ rest).take width := by
      intro width
      rw [← Int.natCast_add, Text.slice_ofNat, List.drop_take, textEq, Nat.add_sub_cancel_left]
    constructor
    · intro front back
      rw [sliceEq, List.take_left, List.append_assoc, List.drop_left]
      exact Call.recognize?_append_iff.mpr derives
    · intro shorter proper
      rw [sliceEq, List.take_append_of_le_length (Nat.le_of_lt proper)]
      exact Call.recognize?_take derives proper

/-- The cut is in the braces of a directive that is never closed, behind a call
that stays as it is. -/
theorem parse_cut_in_braces :
    (parse (Text.ofString "a\x7b\x7bf()\x7d\x7d\x7b\x7bg(")).nodes =
        Node.join (parse (Text.ofString "a\x7b\x7bf()\x7d\x7d\x7b")).nodes
          ((parse (Text.ofString "\x7bg(")).nodes.map (Node.moved 9 ⟨1, 10⟩)) ∧
      Call.recognize? (Text.ofString "\x7b\x7bf()\x7d\x7d\x7d") =
        some (⟨Text.ofString "f", []⟩, 7) ∧
      Call.recognize? (Text.ofString "\x7b\x7bf()\x7d") = none := by
  have parts := parse_cut (Text.ofString "a\x7b\x7bf()\x7d\x7d\x7b\x7bg(")
  have whole := parts.1 9 (by decide) (by decide)
  have call := parts.2 1 7 ⟨Text.ofString "f", []⟩ rfl
  exact ⟨whole, call.1 [] (Text.ofString "\x7d"), call.2 6 (by decide)⟩

end Document

end Directive
