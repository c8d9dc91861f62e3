import Mathlib.Data.List.Chain
import Directive.Proofs.Call.Format
import Directive.Proofs.Document.Recognition

/-!
# Nodes tile their source

The nodes of a parsed document lie one behind the other from the start of the
source to its end, and each of them is written as the source has it there.  So
the source can be put together again from its nodes.
-/

namespace Directive

def Node.isCall (node : Node) : Bool :=
  node.call?.isSome

theorem Text.slice_append {text : Text} {start middle stop : Nat} (before : start ≤ middle)
    (behind : middle ≤ stop) :
    slice text start middle ++ slice text middle stop = slice text start stop := by
  obtain ⟨width, rfl⟩ := Nat.exists_eq_add_of_le before
  have split : (text.take stop).take (start + width) = text.take (start + width) := by
    rw [List.take_take, Nat.min_eq_left behind]
  rw [slice_ofNat, slice_ofNat, slice_ofNat, ← split, List.drop_take, Nat.add_sub_cancel_left,
    ← List.drop_drop, List.take_append_drop]

theorem Text.slice_length (text : Text) (start : Nat) :
    slice text start text.length = text.drop start := by
  rw [slice_ofNat, List.take_length]

/-- A call stands between its braces. -/
theorem Invocation.Derives.braced {raw : Text} {invocation : Invocation}
    (derives : Invocation.Derives raw invocation) :
    raw.startsWith Call.opener ∧ raw.endsWith Call.closer := by
  cases derives with
  | @mk _ beforeName afterName beforeArguments body afterBody =>
      constructor
      · simp [Text.startsWith, Call.opener]
      · rw [Text.endsWith, List.isSuffixOf_iff_suffix]
        refine ⟨Call.opener ++ beforeName ++ invocation.name ++ afterName ++ 0x28 ::
          beforeArguments ++ body ++ 0x29 :: afterBody, ?_⟩
        simp

namespace Document

/-- The nodes lie one behind the other from an offset of the source to its
end. -/
structure Tiles (source : Text) (offset : Nat) (nodes : List Node) : Prop where
  starts : ∀ node ∈ nodes.head?, node.span.start = offset
  adjoin : nodes.IsChain fun node next => node.span.stop = next.span.start
  ends : ∀ node ∈ nodes.getLast?, node.span.stop = source.length
  ended : nodes = [] → offset = source.length
  proper : ∀ node ∈ nodes, node.span.start < node.span.stop
  raw_eq : ∀ node ∈ nodes, node.raw = Text.slice source node.span.start node.span.stop

namespace Tiles

variable {source : Text} {offset stop : Nat} {node : Node} {nodes : List Node}

theorem nil (source : Text) : Tiles source source.length [] := by
  constructor <;> simp

theorem cons (spanEq : node.span = ⟨offset, stop⟩) (before : offset < stop)
    (rawEq : node.raw = Text.slice source offset stop) (tiles : Tiles source stop nodes) :
    Tiles source offset (node :: nodes) where
  starts := by simp [spanEq]
  adjoin := by
    rw [List.isChain_cons]
    refine ⟨?_, tiles.adjoin⟩
    intro next isNext
    rw [tiles.starts next isNext, spanEq]
  ends := by
    intro last isLast
    rw [List.getLast?_cons] at isLast
    cases laterEq : nodes.getLast? with
    | none =>
        obtain rfl : node = last := by simpa [laterEq] using isLast
        rw [spanEq, tiles.ended (List.getLast?_eq_none_iff.mp laterEq)]
    | some later =>
        obtain rfl : later = last := by simpa [laterEq] using isLast
        exact tiles.ends later laterEq
  ended := by simp
  proper := by
    rw [List.forall_mem_cons, spanEq]
    exact ⟨Int.ofNat_lt.mpr before, tiles.proper⟩
  raw_eq := by
    rw [List.forall_mem_cons, spanEq]
    exact ⟨rawEq, tiles.raw_eq⟩

/-- The first node ends where the others begin. -/
theorem tail (tiles : Tiles source offset (node :: nodes)) :
    ∃ stop : Nat, node.span = ⟨offset, stop⟩ ∧ offset < stop ∧
      node.raw = Text.slice source offset stop ∧ Tiles source stop nodes := by
  have start : node.span.start = offset := tiles.starts node rfl
  have before : node.span.start < node.span.stop := tiles.proper node List.mem_cons_self
  obtain ⟨stop, stopEq⟩ : ∃ stop : Nat, node.span.stop = stop :=
    Int.eq_ofNat_of_zero_le (by omega)
  have spanEq : node.span = ⟨offset, stop⟩ := by rw [← start, ← stopEq]
  have rawEq : node.raw = Text.slice source offset stop := by
    rw [tiles.raw_eq node List.mem_cons_self, spanEq]
  obtain ⟨follows, adjoin⟩ := List.isChain_cons.mp tiles.adjoin
  refine ⟨stop, spanEq, by omega, rawEq, ?_, adjoin, ?_, ?_, ?_, ?_⟩
  · intro next isNext
    rw [← follows next isNext, stopEq]
  · intro last isLast
    apply tiles.ends
    rw [List.getLast?_cons, isLast]
    rfl
  · intro single
    have ends := tiles.ends node (by rw [single]; rfl)
    omega
  · exact (List.forall_mem_cons.mp tiles.proper).2
  · exact (List.forall_mem_cons.mp tiles.raw_eq).2

theorem offset_le (tiles : Tiles source offset nodes) : offset ≤ source.length := by
  induction nodes generalizing offset with
  | nil => exact Nat.le_of_eq (tiles.ended rfl)
  | cons node nodes ih =>
      obtain ⟨stop, -, before, -, later⟩ := tiles.tail
      have behind := ih later
      omega

theorem eq_nil_iff (tiles : Tiles source offset nodes) :
    nodes = [] ↔ offset = source.length := by
  cases nodes with
  | nil => simpa using tiles.ended rfl
  | cons node nodes =>
      obtain ⟨stop, -, before, -, later⟩ := tiles.tail
      have behind := later.offset_le
      simp only [List.cons_ne_nil, false_iff]
      omega

/-- What the nodes are written as is the source from the offset on. -/
theorem flatMap_raw (tiles : Tiles source offset nodes) :
    nodes.flatMap Node.raw = source.drop offset := by
  induction nodes generalizing offset with
  | nil => simp [tiles.ended rfl]
  | cons node nodes ih =>
      obtain ⟨stop, -, before, rawEq, later⟩ := tiles.tail
      rw [List.flatMap_cons, rawEq, ih later, ← Text.slice_length, ← Text.slice_length,
        Text.slice_append (Nat.le_of_lt before) later.offset_le]

end Tiles

namespace Reads

variable {index : LineIndex} {offset : Nat} {text : Text} {nodes : List Node}

theorem tiles (reads : Reads index offset text nodes) (front : Text)
    (place : front.length = offset) : Tiles (front ++ text) offset nodes := by
  induction reads generalizing front with
  | done =>
      rw [List.append_nil, ← place]
      exact .nil front
  | @text offset value rest nodes nonempty _ _ _ ih =>
      have later := ih (front ++ value) (by simp [place])
      rw [List.append_assoc] at later
      have positive := List.length_pos_of_ne_nil nonempty
      refine .cons rfl (by omega) ?_ later
      rw [← place]
      exact (Text.slice_middle front value rest).symm
  | @call offset raw rest invocation nodes recognized _ ih =>
      have later := ih (front ++ raw) (by simp [place])
      rw [List.append_assoc] at later
      obtain ⟨positive, -⟩ := Call.recognize?_length recognized
      refine .cons rfl (by omega) ?_ later
      rw [← place]
      have cut := Text.slice_middle front raw rest
      simpa [callAt, Node.raw] using cut.symm

/-- The nodes of a text begin with a call exactly if the text does. -/
theorem beginsOrEnds_iff (reads : Reads index offset text nodes) :
    Call.BeginsOrEnds text ↔ ∀ node ∈ nodes.head?, node.isCall := by
  cases reads with
  | done => simp [Call.BeginsOrEnds]
  | @text _ value rest _ nonempty absent _ _ =>
      have noCall := absent [] value rfl nonempty
      simp [Call.BeginsOrEnds, nonempty, noCall, Node.isCall, Node.call?]
  | @call _ raw rest invocation _ recognized _ =>
      simp [Call.BeginsOrEnds, recognized, Node.isCall, callAt, Node.call?]

/-- Of two neighbours one is a call. -/
theorem alternate (reads : Reads index offset text nodes) :
    nodes.IsChain fun node next => node.isCall ∨ next.isCall := by
  induction reads with
  | done => exact .nil
  | text _ _ ahead reads ih =>
      rw [List.isChain_cons]
      refine ⟨?_, ih⟩
      intro next isNext
      exact .inr (reads.beginsOrEnds_iff.mp ahead next isNext)
  | call _ _ ih =>
      rw [List.isChain_cons]
      exact ⟨fun _ _ => .inl rfl, ih⟩

end Reads

/-- The calls that the parser lists are the calls among the nodes that it lists. -/
theorem map_call_calls (source : Text) :
    (parse source).calls.map Node.call = (parse source).nodes.filter Node.isCall := by
  rw [calls_parse, callNodes]
  induction (parse source).nodes with
  | nil => rfl
  | cons node nodes ih =>
      cases node with
      | text value span => exact ih
      | call directive => exact congrArg (Node.call directive :: ·) ih

theorem mem_calls_iff {source : Text} {call : Call} :
    call ∈ (parse source).calls ↔ Node.call call ∈ (parse source).nodes := by
  rw [calls_parse, callNodes, List.mem_filterMap]
  constructor
  · rintro ⟨node, member, isCall⟩
    cases node with
    | text value span => cases isCall
    | call directive =>
        cases isCall
        exact member
  · intro member
    exact ⟨_, member, rfl⟩

theorem wellFormed_of_mem_calls {source : Text} {call : Call} (member : call ∈ (parse source).calls) :
    call.toInvocation.WellFormed :=
  ((parse_reads source).derives_of_mem [] rfl (mem_calls_iff.mp member)).1.wellFormed

/-- The nodes of a parsed document tile its source: they lie one behind the
other from the start to the end, none is empty, each is written as the source
has it at its span, and the source is what they are written as.  Calls stand
between double braces, and no two runs of text are neighbours. -/
theorem parse_tiles (source : Text) :
    Tiles source 0 (parse source).nodes ∧
      ((parse source).nodes = [] ↔ source = []) ∧
      (∀ call ∈ (parse source).calls,
        call.raw.startsWith Call.opener ∧ call.raw.endsWith Call.closer) ∧
      ((parse source).nodes.IsChain fun node next => node.isCall ∨ next.isCall) ∧
      (parse source).calls.map Node.call = (parse source).nodes.filter Node.isCall ∧
      (parse source).reconstruct = source := by
  have reads := parse_reads source
  have tiles : Tiles source 0 (parse source).nodes := reads.tiles [] rfl
  refine ⟨tiles, ?_, ?_, reads.alternate, map_call_calls _, ?_⟩
  · rw [tiles.eq_nil_iff, eq_comm, List.length_eq_zero_iff]
  · intro call member
    exact (reads.derives_of_mem [] rfl (mem_calls_iff.mp member)).1.braced
  · rw [reconstruct, tiles.flatMap_raw, List.drop_zero]

end Document

end Directive
