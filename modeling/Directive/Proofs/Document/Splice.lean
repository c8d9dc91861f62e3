import Directive.Proofs.Document.Tiling
import Directive.Proofs.Render.Sequence

/-!
# Splicing texts into a source

A text is edited by putting other texts in the place of some of its spans.  The
nodes of a document tile its source, so to fill texts in for some of its calls
is to edit the source at the spans of these calls and nowhere else.
-/

namespace Directive

namespace Text

/-- The text from an offset on, with another text in the place of each span.
The spans come in the order of the text and do not overlap. -/
def spliceFrom (text : Text) (offset : Int) : List (Span × Text) → Text
  | [] => slice text offset text.length
  | (span, replacement) :: edits =>
      slice text offset span.start ++ replacement ++ spliceFrom text span.stop edits

def splice (text : Text) (edits : List (Span × Text)) : Text :=
  spliceFrom text 0 edits

theorem splice_nil (text : Text) : splice text [] = text :=
  slice_length text 0

theorem spliceFrom_cons_here (text replacement : Text) (offset stop : Nat)
    (edits : List (Span × Text)) :
    spliceFrom text offset ((⟨offset, stop⟩, replacement) :: edits) =
      replacement ++ spliceFrom text stop edits := by
  have nothing : slice text offset offset = [] := by
    rw [slice_ofNat, List.drop_eq_nil_iff, List.length_take]
    exact Nat.min_le_left _ _
  rw [spliceFrom, nothing, List.nil_append]

/-- What comes before the first edit stays. -/
theorem slice_append_spliceFrom {text : Text} {offset stop : Nat} {edits : List (Span × Text)}
    (before : offset ≤ stop) (inside : stop ≤ text.length)
    (behind : ∀ edit ∈ edits, (stop : Int) ≤ edit.1.start) :
    slice text offset stop ++ spliceFrom text stop edits = spliceFrom text offset edits := by
  cases edits with
  | nil => exact slice_append before inside
  | cons edit edits =>
      have later : (stop : Int) ≤ edit.1.start := behind edit List.mem_cons_self
      obtain ⟨start, startEq⟩ : ∃ start : Nat, edit.1.start = start :=
        Int.eq_ofNat_of_zero_le (by omega)
      rw [spliceFrom, spliceFrom, startEq, ← slice_append before (by omega : stop ≤ start),
        List.append_assoc, List.append_assoc, List.append_assoc]

end Text

/-- A call, with the text to fill in for it if it is not to stay as it was
written. -/
structure Filling where
  call : Call
  text? : Option Text

namespace Filling

def text (filling : Filling) : Text :=
  filling.text?.getD filling.call.raw

def edit? (filling : Filling) : Option (Span × Text) :=
  filling.text?.map (filling.call.span, ·)

theorem exists_call_of_mem_edits {fillings : List Filling} {edit : Span × Text}
    (member : edit ∈ fillings.filterMap edit?) :
    ∃ call ∈ fillings.map Filling.call, call.span = edit.1 := by
  obtain ⟨filling, isFilling, isEdit⟩ := List.mem_filterMap.mp member
  obtain ⟨text, -, rfl⟩ := Option.map_eq_some_iff.mp isEdit
  exact ⟨filling.call, List.mem_map_of_mem isFilling, rfl⟩

end Filling

namespace Document.Tiles

variable {source : Text} {offset : Nat} {nodes : List Node} {fillings : List Filling}

theorem offset_le_start (tiles : Tiles source offset nodes) :
    ∀ node ∈ nodes, (offset : Int) ≤ node.span.start := by
  induction nodes generalizing offset with
  | nil => simp
  | cons node nodes ih =>
      obtain ⟨stop, spanEq, before, -, later⟩ := tiles.tail
      rw [List.forall_mem_cons, spanEq]
      refine ⟨Int.le_refl _, ?_⟩
      intro next member
      have behind := ih later next member
      omega

theorem offset_le_edit (tiles : Tiles source offset nodes)
    (complete : fillings.map Filling.call = nodes.filterMap Node.call?) :
    ∀ edit ∈ fillings.filterMap Filling.edit?, (offset : Int) ≤ edit.1.start := by
  intro edit member
  obtain ⟨call, isCall, spanEq⟩ := Filling.exists_call_of_mem_edits member
  rw [complete] at isCall
  obtain ⟨node, isNode, nodeEq⟩ := List.mem_filterMap.mp isCall
  have behind := tiles.offset_le_start node isNode
  cases node with
  | text value span => cases nodeEq
  | call directive =>
      cases nodeEq
      rw [← spanEq]
      exact behind

theorem fill_eq_spliceFrom (tiles : Tiles source offset nodes)
    (complete : fillings.map Filling.call = nodes.filterMap Node.call?) :
    Node.fill nodes (fillings.map Filling.text) =
      Text.spliceFrom source offset (fillings.filterMap Filling.edit?) := by
  induction nodes generalizing offset fillings with
  | nil =>
      obtain rfl : fillings = [] := List.map_eq_nil_iff.mp complete
      simp [tiles.ended rfl, Node.fill, Text.spliceFrom, Text.slice_length]
  | cons node nodes ih =>
      obtain ⟨stop, spanEq, before, rawEq, later⟩ := tiles.tail
      -- a node that stays joins what the edits behind it leave
      have stays : ∀ {fillings : List Filling},
          fillings.map Filling.call = nodes.filterMap Node.call? →
          node.raw ++ Node.fill nodes (fillings.map Filling.text) =
            Text.spliceFrom source offset (fillings.filterMap Filling.edit?) := by
        intro fillings complete
        rw [ih later complete, rawEq]
        exact Text.slice_append_spliceFrom (Nat.le_of_lt before) later.offset_le
          (later.offset_le_edit complete)
      cases node with
      | text value span => exact stays complete
      | call directive =>
          obtain ⟨⟨call, text?⟩, others, rfl, sameCall, completeOthers⟩ :=
            List.map_eq_cons_iff.mp complete
          obtain rfl : call = directive := sameCall
          cases text? with
          | none => exact stays completeOthers
          | some text =>
              have editEq : Filling.edit? ⟨call, some text⟩ = some (⟨offset, stop⟩, text) :=
                congrArg (fun span => some (span, text)) spanEq
              rw [List.map_cons, Node.fill, ih later completeOthers,
                List.filterMap_cons_some editEq, Text.spliceFrom_cons_here, Filling.text,
                Option.getD_some]

/-- To fill the calls of a document in is to edit the source at the calls that do
not stay. -/
theorem fill_eq_splice (tiles : Tiles source 0 nodes)
    (complete : fillings.map Filling.call = nodes.filterMap Node.call?) :
    Node.fill nodes (fillings.map Filling.text) =
      Text.splice source (fillings.filterMap Filling.edit?) :=
  tiles.fill_eq_spliceFrom complete

end Document.Tiles

end Directive
