import Mathlib.Data.List.DropRight
import Mathlib.Order.Monotone.Basic
import Directive.Proofs.Document.Tiling
import Directive.Proofs.LineIndex

/-!
# Exact positions

The line feeds before an offset count its line, and its column counts from behind
the last of them.  The search in the index of a text finds this position for
every offset, whatever was asked for before.  Positions increase with the
offset, so the calls of a document lie one behind the other by their lines and
columns too, and a position belongs to one offset only.
-/

namespace Directive

/-- The position of an offset: one line more than there are line feeds before it,
and a column counted from behind the last of them. -/
def Text.positionAt (text : Text) (offset : Nat) : Position :=
  ⟨(text.take offset).count 0x0A + 1,
    offset - ((text.take offset).rdropWhile (· != 0x0A)).length + 1⟩

/-! ## The last line before an offset -/

namespace LineIndex

theorem starts_concat (text : Text) (unit : CodeUnit) :
    (ofText (text ++ [unit])).starts =
      if unit = 0x0A then (ofText text).starts.push (text.length + 1)
      else (ofText text).starts := by
  have parts := lineStartsFrom_append 0 #[0] text [unit]
  rw [Nat.zero_add] at parts
  exact parts

/-- There is a line for every line feed and the first one, and the last of them
begins behind the last line feed. -/
theorem last_start (text : Text) :
    (ofText text).starts.size = text.count 0x0A + 1 ∧
      (ofText text).startOf (text.count 0x0A) = (text.rdropWhile (· != 0x0A)).length := by
  induction text using List.reverseRecOn with
  | nil => exact ⟨rfl, rfl⟩
  | append_singleton text unit ih =>
      obtain ⟨size, start⟩ := ih
      by_cases feed : unit = 0x0A
      · subst feed
        have starts := starts_concat text 0x0A
        rw [if_pos rfl] at starts
        constructor
        · simp [starts, size]
        · simp [startOf, starts, ← size]
      · have starts := starts_concat text unit
        rw [if_neg feed] at starts
        have count : (text ++ [unit]).count 0x0A = text.count 0x0A := by simp [feed]
        rw [count, List.rdropWhile_concat_pos _ _ _ (by simpa using feed), ← start, startOf,
          startOf, starts]
        exact ⟨size, rfl⟩

theorem locate_eq_positionAt (text : Text) (offset : Nat) :
    (ofText text).locate offset = text.positionAt offset := by
  obtain ⟨size, start⟩ := last_start (text.take offset)
  rw [locate_eq_onLastLine, onLastLine, size, Nat.add_sub_cancel, start, Text.positionAt,
    Int.natCast_add]
  rfl

end LineIndex

/-! ## Asking again -/

namespace LineLookup

variable {lookup : LineLookup}

/-- An index that was kept is the one of the text. -/
def Kept (lookup : LineLookup) : Prop :=
  ∀ index ∈ lookup.index?, index = .ofText lookup.text

theorem kept_ofText (text : Text) : (ofText text).Kept := by
  intro index kept
  cases kept

theorem locate_of_kept (kept : lookup.Kept) (offset : Int) :
    lookup.locate offset = ((LineIndex.ofText lookup.text).locate offset,
      ⟨lookup.text, some (.ofText lookup.text)⟩) := by
  have same : lookup.index?.getD (.ofText lookup.text) = .ofText lookup.text := by
    cases built : lookup.index? with
    | none => rfl
    | some index => exact kept index built
  rw [locate, same]

/-- What is asked for earlier changes no answer. -/
theorem locateAll_of_kept (kept : lookup.Kept) (offsets : List Int) :
    (lookup.locateAll offsets).1 = offsets.map (LineIndex.ofText lookup.text).locate := by
  induction offsets generalizing lookup with
  | nil => rfl
  | cons offset offsets ih =>
      have next : Kept ⟨lookup.text, some (.ofText lookup.text)⟩ := by
        intro index built
        exact (Option.some.inj built).symm
      simp only [locateAll, locate_of_kept kept, ih next, List.map_cons]

end LineLookup

/-! ## Positions in order -/

namespace Position

/-- On an earlier line, or further left on the same one. -/
def Precedes (first second : Position) : Prop :=
  first.line < second.line ∨ first.line = second.line ∧ first.column < second.column

instance : IsTrans Position Precedes where
  trans first second third before after := by
    unfold Precedes at *
    omega

theorem Precedes.ne {first second : Position} (precedes : first.Precedes second) :
    first ≠ second := by
  rintro rfl
  unfold Precedes at precedes
  omega

end Position

namespace Text

theorem positionAt_precedes_succ (text : Text) (offset : Nat) :
    (text.positionAt offset).Precedes (text.positionAt (offset + 1)) := by
  unfold positionAt Position.Precedes
  rw [List.take_add_one]
  cases text[offset]? with
  | none =>
      rw [Option.toList_none, List.append_nil]
      right
      exact ⟨rfl, by dsimp only; omega⟩
  | some unit =>
      rw [Option.toList_some]
      by_cases feed : unit = 0x0A
      · left
        have more : (text.take offset ++ [unit]).count 0x0A =
            (text.take offset).count 0x0A + 1 := by simp [feed]
        rw [more]
        dsimp only
        omega
      · right
        have same : (text.take offset ++ [unit]).count 0x0A =
            (text.take offset).count 0x0A := by simp [feed]
        rw [same, List.rdropWhile_concat_pos _ _ _ (by simpa using feed)]
        exact ⟨rfl, by dsimp only; omega⟩

theorem positionAt_precedes {first second : Nat} (text : Text) (before : first < second) :
    (text.positionAt first).Precedes (text.positionAt second) :=
  Nat.rel_of_forall_rel_succ_of_lt Position.Precedes text.positionAt_precedes_succ before

theorem positionAt_injective (text : Text) : Function.Injective text.positionAt := by
  intro first second same
  rcases Nat.lt_trichotomy first second with before | equal | behind
  · exact absurd same (text.positionAt_precedes before).ne
  · exact equal
  · exact absurd same.symm (text.positionAt_precedes behind).ne

end Text

/-! ## Calls -/

namespace Document

namespace Reads

variable {index : LineIndex} {offset : Nat} {text source : Text} {nodes : List Node}

theorem located_of_mem (reads : Reads index offset text nodes) {call : Call}
    (member : call ∈ nodes.filterMap Node.call?) :
    ∃ start : Nat, offset ≤ start ∧ call.span.start = start ∧
      call.position = index.locate start := by
  induction reads with
  | done => cases member
  | text _ _ _ _ ih =>
      obtain ⟨start, behind, located⟩ := ih member
      exact ⟨start, by omega, located⟩
  | @call offset raw rest invocation nodes _ _ ih =>
      rcases List.mem_cons.mp member with rfl | later
      · exact ⟨offset, Nat.le_refl offset, rfl, rfl⟩
      · obtain ⟨start, behind, located⟩ := ih later
        exact ⟨start, by omega, located⟩

theorem precede (reads : Reads (.ofText source) offset text nodes) :
    (nodes.filterMap Node.call?).Pairwise fun call next =>
      call.position.Precedes next.position := by
  generalize sameIndex : LineIndex.ofText source = index at reads
  induction reads with
  | done => exact .nil
  | text _ _ _ _ ih => exact ih
  | @call offset raw rest invocation nodes recognized reads ih =>
      refine List.pairwise_cons.mpr ⟨?_, ih⟩
      intro next member
      obtain ⟨start, behind, -, positionEq⟩ := reads.located_of_mem member
      obtain ⟨positive, -⟩ := Call.recognize?_length recognized
      rw [positionEq, ← sameIndex, callAt, LineIndex.locate_eq_positionAt,
        LineIndex.locate_eq_positionAt]
      exact source.positionAt_precedes (by omega)

end Reads

/-- For all offsets, asked for in any order, the positions are those that the line
feeds before them give.  Every call of a parsed document carries the position
of its start, the positions increase along the calls, and no two offsets have
the same one. -/
theorem locate_exact (source : Text) :
    (∀ offsets : List Nat,
      ((LineLookup.ofText source).locateAll (offsets.map Nat.cast)).1 =
        offsets.map source.positionAt) ∧
    (∀ call ∈ (parse source).calls, ∃ start : Nat, call.span.start = start ∧
      call.position = source.positionAt start) ∧
    ((parse source).calls.Pairwise fun call next => call.position.Precedes next.position) ∧
    ∀ first second : Nat,
      (LineIndex.ofText source).locate first = (LineIndex.ofText source).locate second →
        first = second := by
  have reads := parse_reads source
  rw [calls_parse]
  refine ⟨?_, ?_, reads.precede, ?_⟩
  · intro offsets
    rw [LineLookup.locateAll_of_kept (LineLookup.kept_ofText source), List.map_map]
    apply List.map_congr_left
    intro offset _
    exact LineIndex.locate_eq_positionAt source offset
  · intro call member
    obtain ⟨start, -, startEq, positionEq⟩ := reads.located_of_mem member
    rw [LineIndex.locate_eq_positionAt] at positionEq
    exact ⟨start, startEq, positionEq⟩
  · intro first second same
    rw [LineIndex.locate_eq_positionAt, LineIndex.locate_eq_positionAt] at same
    exact source.positionAt_injective same

/-- An offset behind the end is on the last line. -/
example : Text.positionAt (Text.ofString "a\n\nb") 9 = ⟨3, 7⟩ := by
  decide

end Document

end Directive
