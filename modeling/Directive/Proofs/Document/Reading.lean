import Directive.Document.Parse
import Directive.Proofs.Call.Reading

/-!
# Documents as sequences of runs and calls

`Document.Reads` says how a text falls into nodes, without the counters and the
pending run of the parser.  The parser produces such a sequence, and no text
has a second one.
-/

namespace Directive

namespace Call

/-- No call begins within a run that has another text behind it. -/
def Absent (run rest : Text) : Prop :=
  ∀ before after, run = before ++ after → after ≠ [] → recognize? (after ++ rest) = none

/-- The text is at its end, or a call begins there. -/
def BeginsOrEnds (text : Text) : Prop :=
  text = [] ∨ ∃ found, recognize? text = some found

theorem absent_nil (rest : Text) : Absent [] rest := by
  intro before after split nonempty
  exact absurd (List.append_eq_nil_iff.mp split.symm).2 nonempty

theorem absent_cons_iff {unit : CodeUnit} {run rest : Text} :
    Absent (unit :: run) rest ↔
      recognize? (unit :: (run ++ rest)) = none ∧ Absent run rest := by
  constructor
  · intro absent
    refine ⟨absent [] (unit :: run) rfl (by simp), ?_⟩
    intro before after split nonempty
    exact absent (unit :: before) after (by simp [split]) nonempty
  · intro both before after split nonempty
    obtain ⟨here, later⟩ := both
    cases before with
    | nil =>
        obtain rfl : unit :: run = after := split
        exact here
    | cons head before =>
        obtain ⟨rfl, runEq⟩ := List.cons.inj split
        exact later before after runEq nonempty

theorem absent_append_iff {first second rest : Text} :
    Absent (first ++ second) rest ↔ Absent first (second ++ rest) ∧ Absent second rest := by
  induction first with
  | nil => simp [absent_nil]
  | cons unit first ih => simp [absent_cons_iff, ih, and_assoc]

theorem absent_of_notMem {run rest : Text} (braceless : 0x7B ∉ run) : Absent run rest := by
  intro before after split nonempty
  apply Option.eq_none_iff_forall_ne_some.mpr
  intro found recognized
  obtain ⟨raw, remaining, textEq, -, derives⟩ := recognize?_eq_some_iff.mp recognized
  cases after with
  | nil => exact nonempty rfl
  | cons first others =>
      cases derives with
      | mk =>
          obtain ⟨rfl, -⟩ := List.cons.inj textEq
          exact braceless (by simp [split])

theorem Absent.recognize?_drop {run rest : Text} (absent : Absent run rest) {passed : Nat}
    (within : passed < run.length) : recognize? ((run ++ rest).drop passed) = none := by
  have some : run.drop passed ≠ [] := by
    intro empty
    exact absurd (List.drop_eq_nil_iff.mp empty) (by omega)
  rw [List.drop_append_of_le_length (by omega)]
  exact absent _ _ (List.take_append_drop passed run).symm some

theorem recognize?_length {text : Text} {invocation : Invocation} {length : Nat}
    (recognized : recognize? text = some (invocation, length)) :
    0 < length ∧ length ≤ text.length := by
  obtain ⟨raw, rest, rfl, rfl, derives⟩ := recognize?_eq_some_iff.mp recognized
  cases derives
  simp [opener]

end Call

namespace Document

/-- The nodes as which a text is read that begins at an offset.  A run of text
is not empty, and it goes on to the next call or to the end. -/
inductive Reads (index : LineIndex) : (offset : Nat) → Text → List Node → Prop where
  | done {offset : Nat} : Reads index offset [] []
  | text {offset : Nat} {value rest : Text} {nodes : List Node} :
      value ≠ [] → Call.Absent value rest → Call.BeginsOrEnds rest →
      Reads index (offset + value.length) rest nodes →
      Reads index offset (value ++ rest)
        (.text value ⟨offset, offset + value.length⟩ :: nodes)
  | call {offset : Nat} {raw rest : Text} {invocation : Invocation} {nodes : List Node} :
      Call.recognize? (raw ++ rest) = some (invocation, raw.length) →
      Reads index (offset + raw.length) rest nodes →
      Reads index offset (raw ++ rest)
        (.call (callAt index offset raw.length invocation (raw ++ rest)) :: nodes)

/-! ## The parser reads -/

theorem reads_textRun {index : LineIndex} {offset : Nat} {run rest : Text} {nodes : List Node}
    (within : run.length ≤ offset) (absent : Call.Absent run.reverse rest)
    (ahead : Call.BeginsOrEnds rest) (reads : Reads index offset rest nodes) :
    Reads index (offset - run.length) (run.reverse ++ rest) (textRun run offset ++ nodes) := by
  cases run with
  | nil => simpa [textRun] using reads
  | cons unit run =>
      have start : offset - (unit :: run).length + (unit :: run).reverse.length = offset := by
        simp only [List.length_reverse]
        omega
      have further : Reads index (offset - (unit :: run).length + (unit :: run).reverse.length)
          rest nodes := by
        rw [start]
        exact reads
      have text := Reads.text (by simp) absent ahead further
      have spanEq : (⟨(offset : Int) - (unit :: run).length, offset⟩ : Span) =
          ⟨(offset - (unit :: run).length : Nat),
            (offset - (unit :: run).length : Nat) + (unit :: run).reverse.length⟩ := by
        simp only [List.length_reverse, Span.mk.injEq]
        omega
      simpa only [textRun, List.isEmpty_cons, Bool.false_eq_true, if_false, spanEq,
        List.cons_append, List.nil_append] using text

/-- The invariant of the parser: no call begins in the pending run, and there is
no pending run while a call is passed over. -/
theorem readFrom_reads (index : LineIndex) (skip offset : Nat) (run text : Text)
    (enough : skip ≤ text.length) (within : run.length ≤ offset) (single : skip = 0 ∨ run = [])
    (absent : Call.Absent run.reverse (text.drop skip)) :
    Reads index (offset + skip - run.length) (run.reverse ++ text.drop skip)
      (readFrom index skip offset run text).nodes := by
  fun_induction readFrom index skip offset run text with
  | case1 skip offset run =>
      obtain rfl : skip = 0 := by simpa using enough
      have ended : Reads index offset [] [] := .done
      have reads := reads_textRun within (by simpa using absent) (.inl rfl) ended
      simpa using reads
  | case2 skip offset run unit rest ih =>
      have reads := ih (by simpa using enough) (by omega) (by simp_all) (by simpa using absent)
      have start : offset + 1 + skip = offset + (skip + 1) := by omega
      simpa [start] using reads
  | case3 offset run unit rest invocation length recognized call later ih =>
      obtain ⟨positive, fits⟩ := Call.recognize?_length recognized
      obtain ⟨raw, remaining, textEq, rfl, -⟩ := Call.recognize?_eq_some_iff.mp recognized
      have remainingEq : rest.drop (raw.length - 1) = remaining := by
        cases raw with
        | nil => simp at positive
        | cons first others =>
            obtain ⟨-, rfl⟩ := List.cons.inj textEq
            simp
      have further : Reads index (offset + raw.length) remaining
          (readFrom index (raw.length - 1) (offset + 1) [] rest).nodes := by
        have reads := ih (by simp at fits; omega) (by simp) (by simp) (Call.absent_nil _)
        have start : offset + 1 + (raw.length - 1) = offset + raw.length := by omega
        simpa [start, remainingEq] using reads
      have here : Reads index offset (unit :: rest)
          (.call (callAt index offset raw.length invocation (unit :: rest)) ::
            (readFrom index (raw.length - 1) (offset + 1) [] rest).nodes) := by
        rw [textEq] at recognized ⊢
        exact .call recognized further
      exact reads_textRun within absent (.inr ⟨_, recognized⟩) here
  | case4 offset run unit rest missed ih =>
      have longer : Call.Absent (unit :: run).reverse rest := by
        rw [List.reverse_cons, Call.absent_append_iff]
        exact ⟨absent, Call.absent_cons_iff.mpr ⟨missed, Call.absent_nil rest⟩⟩
      have reads := ih (Nat.zero_le _) (by simpa using within) (by simp) longer
      simpa using reads

theorem parse_reads (source : Text) :
    Reads (.ofText source) 0 source (parse source).nodes := by
  simpa [parse] using readFrom_reads (.ofText source) 0 0 [] source (Nat.zero_le _)
    (Nat.zero_le _) (.inl rfl) (Call.absent_nil _)

theorem filterMap_call?_textRun (run : Text) (stop : Nat) :
    (textRun run stop).filterMap Node.call? = [] := by
  rw [textRun]
  split <;> rfl

/-- The parser lists every call that it reads twice: among the nodes, and among the
calls. -/
theorem calls_readFrom (index : LineIndex) (skip offset : Nat) (run text : Text) :
    (readFrom index skip offset run text).calls =
      (readFrom index skip offset run text).nodes.filterMap Node.call? := by
  fun_induction readFrom index skip offset run text with
  | case1 skip offset run => exact (filterMap_call?_textRun run offset).symm
  | case2 skip offset run unit rest ih => exact ih
  | case3 offset run unit rest invocation length recognized call later ih =>
      have listed : (textRun run offset ++ .call call :: later.nodes).filterMap Node.call? =
          call :: later.nodes.filterMap Node.call? := by
        rw [List.filterMap_append, filterMap_call?_textRun]
        rfl
      exact (congrArg (call :: ·) ih).trans listed.symm
  | case4 offset run unit rest missed ih => exact ih

theorem calls_parse (source : Text) : (parse source).calls = (parse source).callNodes :=
  calls_readFrom _ _ _ _ _

/-! ## Only the parser's nodes are read -/

theorem readFrom_skip (index : LineIndex) (skip offset : Nat) (text : Text)
    (enough : skip ≤ text.length) :
    readFrom index skip offset [] text =
      readFrom index 0 (offset + skip) [] (text.drop skip) := by
  induction skip generalizing offset text with
  | zero => simp
  | succ skip ih =>
      cases text with
      | nil => simp at enough
      | cons unit rest =>
          have later := ih (offset + 1) rest (by simpa using enough)
          have start : offset + 1 + skip = offset + (skip + 1) := by omega
          simpa [readFrom, start] using later

theorem readFrom_of_absent (index : LineIndex) (offset : Nat) (run value rest : Text)
    (absent : Call.Absent value rest) :
    readFrom index 0 offset run (value ++ rest) =
      readFrom index 0 (offset + value.length) (value.reverse ++ run) rest := by
  induction value generalizing offset run with
  | nil => rfl
  | cons unit value ih =>
      obtain ⟨here, later⟩ := Call.absent_cons_iff.mp absent
      have start : offset + (unit :: value).length = offset + 1 + value.length := by
        simp only [List.length_cons]
        omega
      rw [List.cons_append, readFrom, here, start, List.reverse_cons, List.append_assoc]
      exact ih (offset + 1) (unit :: run) later

theorem nodes_readFrom_of_beginsOrEnds (index : LineIndex) (offset : Nat) (run : Text) {rest : Text}
    (ahead : Call.BeginsOrEnds rest) :
    (readFrom index 0 offset run rest).nodes =
      textRun run offset ++ (readFrom index 0 offset [] rest).nodes := by
  rcases ahead with rfl | ⟨⟨invocation, length⟩, recognized⟩
  · simp [readFrom, textRun]
  · cases rest with
    | nil => exact absurd (Call.recognize?_length recognized) (by simp; omega)
    | cons unit rest => simp [readFrom, recognized, textRun]

theorem Reads.nodes_readFrom {index : LineIndex} {offset : Nat} {text : Text}
    {nodes : List Node} (reads : Reads index offset text nodes) :
    (readFrom index 0 offset [] text).nodes = nodes := by
  induction reads with
  | done => rfl
  | @text offset value rest nodes nonempty absent ahead _ ih =>
      have run : textRun value.reverse (offset + value.length) =
          [.text value ⟨offset, offset + value.length⟩] := by
        have more : value.reverse.isEmpty = false := by simpa using nonempty
        simp [textRun, more]
      rw [readFrom_of_absent index offset [] value rest absent, List.append_nil,
        nodes_readFrom_of_beginsOrEnds index _ _ ahead, run, ih]
      rfl
  | @call offset raw rest invocation nodes recognized _ ih =>
      obtain ⟨positive, fits⟩ := Call.recognize?_length recognized
      obtain ⟨first, others, rfl⟩ : ∃ first others, raw = first :: others := by
        cases raw with
        | nil => simp at positive
        | cons first others => exact ⟨first, others, rfl⟩
      have skipped := readFrom_skip index others.length (offset + 1) (others ++ rest) (by simp)
      have start : offset + 1 + others.length = offset + (first :: others).length := by
        simp only [List.length_cons]
        omega
      have nodesEq := congrArg Document.nodes skipped
      rw [List.drop_left, start, ih] at nodesEq
      rw [List.cons_append] at recognized ⊢
      simp [readFrom, recognized, textRun, nodesEq]

/-- Nodes that a source falls into are the nodes that the parser gives. -/
theorem Reads.nodes_eq {source : Text} {nodes : List Node}
    (reads : Reads (.ofText source) 0 source nodes) : (parse source).nodes = nodes :=
  reads.nodes_readFrom

/-- A text without opening braces is one run. -/
theorem nodes_parse_of_notMem {source : Text} (some : source ≠ []) (braceless : 0x7B ∉ source) :
    (parse source).nodes = [.text source ⟨0, source.length⟩] := by
  have reads : Reads (.ofText source) 0 (source ++ []) [_] :=
    .text some (Call.absent_of_notMem braceless) (.inl rfl) .done
  rw [List.append_nil] at reads
  simpa using reads.nodes_eq

end Document

end Directive
