import Directive.Proofs.Placeholder.Collision
import Directive.Proofs.Placeholder.Pipeline
import Directive.Proofs.Placeholder.Restoring

/-!
# Where the tokens stand

The text of an extraction is the texts between the calls, joined by the token.
The token collides with nothing exactly if the places at which they are joined
are those that are found from left to right.  So what a search finds in the
text of an extraction are its calls, and no earlier token has this property.
-/

namespace Directive

/-- Reading from left to right finds the needle at these spans and nowhere
else. -/
def Text.FoundAt (needle text : Text) (spans : List Span) : Prop :=
  ∃ places, Leftmost needle text places ∧ spans = places.map (Span.wide needle.length)

/-- The text of a node, none for a call. -/
def Node.prose : Node → Text
  | .text value _ => value
  | .call _ => []

/-- The text of a document without its calls. -/
def Document.prose (document : Document) : Text :=
  document.nodes.flatMap Node.prose

theorem Span.wide_injective (width : Nat) : Function.Injective (Span.wide width) := by
  intro place other same
  exact Int.ofNat_inj.mp (Span.mk.inj same).1

namespace Placeholder

/-- With the token in the place of every call, reading from left to right finds
it at the calls and nowhere else. -/
def Exact (token : Text) (document : Document) : Prop :=
  Text.FoundAt token (substitute token document).text
    ((substitute token document).calls.map PlacedCall.span)

variable {token placeholder : Text} {pieces : List Text} {document : Document}

/-! ## The text and the spans of a substitution -/

theorem text_substituteFrom (token : Text) (offset : Nat) (gap : Text) (nodes : List Node) :
    gap ++ (substituteFrom token offset nodes).1 = Text.join token (Node.gaps gap nodes) := by
  induction nodes generalizing offset gap with
  | nil => simp [substituteFrom, Node.gaps, Text.join]
  | cons node nodes ih =>
      cases node with
      | text value span =>
          have others := ih (offset + value.length) (gap ++ value)
          rw [List.append_assoc] at others
          exact others
      | call directive =>
          have others := ih (offset + token.length) []
          rw [List.nil_append] at others
          rw [Node.gaps, Text.join_cons (gaps_ne_nil [] nodes), ← others, List.append_assoc]
          rfl

theorem spans_substituteFrom (token : Text) (offset : Nat) (gap : Text) (nodes : List Node) :
    (substituteFrom token (offset + gap.length) nodes).2.map PlacedCall.span =
      (Text.joints token.length offset (Node.gaps gap nodes)).map (Span.wide token.length) := by
  induction nodes generalizing offset gap with
  | nil => rfl
  | cons node nodes ih =>
      cases node with
      | text value span =>
          have others := ih offset (gap ++ value)
          rw [List.length_append, ← Nat.add_assoc] at others
          exact others
      | call directive =>
          have others := ih (offset + gap.length + token.length) []
          rw [List.length_nil, Nat.add_zero] at others
          rw [Node.gaps, Text.joints_cons (gaps_ne_nil [] nodes), List.map_cons, ← others]
          rfl

theorem text_substitute (token : Text) (document : Document) :
    (substitute token document).text = Text.join token (Node.gaps [] document.nodes) :=
  text_substituteFrom token 0 [] document.nodes

theorem spans_substitute (token : Text) (document : Document) :
    (substitute token document).calls.map PlacedCall.span =
      (Text.joints token.length 0 (Node.gaps [] document.nodes)).map (Span.wide token.length) :=
  spans_substituteFrom token 0 [] document.nodes

/-! ## Free tokens are the ones that are found -/

theorem leftmost_join_iff (proper : token ≠ []) (nonempty : pieces ≠ []) :
    Text.Leftmost token (Text.join token pieces) (Text.joints token.length 0 pieces) ↔
      collisions token pieces = 0 := by
  induction pieces with
  | nil => contradiction
  | cons piece pieces ih =>
      rw [collisions, Nat.add_eq_zero_iff, List.length_eq_zero_iff, strays_eq_nil_iff]
      cases pieces with
      | nil =>
          have absent := findFrom_eq_none_iff_strays proper 0 piece
          rw [Text.findFrom_eq_none_iff proper, strays_eq_nil_iff] at absent
          simp only [Text.join, Text.joints, Text.leftmost_nil_iff, absent, List.isEmpty_nil,
            if_true, collisions, and_true]
      | cons next pieces =>
          rw [Text.join_cons (by simp), List.append_assoc, Text.joints_zero_cons (by simp),
            Text.leftmost_cons_iff, ih (by simp)]
          simp only [List.isEmpty_cons, Bool.false_eq_true, if_false]
          refine and_congr_left' (forall_congr' fun place => forall_congr' fun within => ?_)
          rw [startsWith_drop_gap _ (Nat.le_of_lt within)]

theorem exact_iff (proper : token ≠ []) :
    Exact token document ↔ isExact (substitute token document) = true := by
  rw [isExact_substitute_iff proper, ← leftmost_join_iff proper (gaps_ne_nil [] _), Exact,
    Text.FoundAt, text_substitute, spans_substitute]
  constructor
  · intro found
    obtain ⟨places, leftmost, same⟩ := found
    rw [List.map_injective_iff.mpr (Span.wide_injective _) same]
    exact leftmost
  · intro leftmost
    exact ⟨_, leftmost, rfl⟩

/-! ## Texts in the places of the tokens -/

theorem fill_map (write : Call → Text) (nodes : List Node) :
    Node.fill nodes ((nodes.filterMap Node.call?).map write) =
      nodes.flatMap fun node => (node.call?.map write).getD node.raw := by
  induction nodes with
  | nil => rfl
  | cons node nodes ih =>
      cases node with
      | text value span => exact congrArg (value ++ ·) ih
      | call directive => exact congrArg (write directive ++ ·) ih

/-- Writing something else for every token of a substitution writes it for every
call of the document. -/
theorem splice_substitute (token : Text) (document : Document) (write : Call → Text) :
    (substitute token document).text.splice
        ((substitute token document).calls.map fun placed => (placed.span, write placed.call)) =
      document.nodes.flatMap fun node => (node.call?.map write).getD node.raw := by
  have calls : (substitute token document).calls.map (fun placed => write placed.call) =
      (document.nodes.filterMap Node.call?).map write := by
    rw [← calls_substituteFrom token 0 document.nodes, List.map_map]
    rfl
  have enough : ((document.nodes.filterMap Node.call?).map write).length + 1 =
      (Node.gaps [] document.nodes).length := by
    rw [List.length_map, length_gaps]
  rw [← List.zip_map', calls, spans_substitute, text_substitute]
  refine (splice_join token enough).trans ?_
  rw [interleave_gaps [] document.nodes _ (List.length_map _), List.nil_append, fill_map]

end Placeholder

/-! ## Spans at which a needle is found -/

namespace Text.FoundAt

variable {needle text : Text} {spans : List Span}

theorem slice_eq (proper : needle ≠ []) (found : FoundAt needle text spans) :
    ∀ span ∈ spans, 0 ≤ span.start ∧ span.start < span.stop ∧
      slice text span.start span.stop = needle := by
  have positive := List.length_pos_of_ne_nil proper
  obtain ⟨places, leftmost, rfl⟩ := found
  intro span member
  obtain ⟨place, isPlace, rfl⟩ := List.mem_map.mp member
  refine ⟨Int.natCast_nonneg place, Int.ofNat_lt.mpr (Nat.lt_add_of_pos_right positive), ?_⟩
  obtain ⟨behind, textEq⟩ := startsWith_eq_true_iff.mp (leftmost.occurs place isPlace)
  refine (slice_ofNat text place (place + needle.length)).trans ?_
  rw [List.drop_take, Nat.add_sub_cancel_left, textEq, List.take_left]

theorem apart (found : FoundAt needle text spans) :
    spans.Pairwise fun span next => span.stop ≤ next.start := by
  obtain ⟨places, leftmost, rfl⟩ := found
  exact List.pairwise_map.mpr (leftmost.apart.imp Int.ofNat_le.mpr)

end Text.FoundAt

namespace Placeholder

/-- An extraction has the calls of the document in order, each with a token for
which its span is cut out of the text.  The spans lie one behind the other, they
are what is found of the token in the text from left to right, and without them
the text is that of the document between its calls.  The token is the placeholder
if it is found only at the calls, and otherwise the placeholder with the least
number behind it for which that is so. -/
theorem extract_exact {document : Document} {placeholder : Text} {extraction : Extraction}
    (extracted : extract document placeholder = .ok extraction) :
    extraction.calls.map PlacedCall.call = document.callNodes ∧
      (∀ placed ∈ extraction.calls, 0 ≤ placed.span.start ∧
        placed.span.start < placed.span.stop ∧
        Text.slice extraction.text placed.span.start placed.span.stop =
          extraction.placeholder) ∧
      (extraction.calls.Pairwise fun placed next => placed.span.stop ≤ next.span.start) ∧
      extraction.text.splice (extraction.calls.map fun placed => (placed.span, [])) =
        document.prose ∧
      extraction.text.splice (extraction.calls.map fun placed => (placed.span, placed.call.raw)) =
        document.reconstruct ∧
      Text.FoundAt extraction.placeholder extraction.text
        (extraction.calls.map PlacedCall.span) ∧
      extraction = substitute extraction.placeholder document ∧
      (extraction.placeholder = placeholder ∨
        ¬ Exact placeholder document ∧ ∃ number, 1 ≤ number ∧ number ≤ 1000 ∧
          extraction.placeholder = placeholder ++ Text.ofNat number ∧
          ∀ earlier, 1 ≤ earlier → earlier < number →
            ¬ Exact (placeholder ++ Text.ofNat earlier) document) := by
  obtain ⟨shown, attempt, within, exactly, earlierFail, rfl⟩ := extract_eq_ok_iff.mp extracted
  have proper := token_ne_nil shown attempt
  have found : Text.FoundAt _ _ _ := (exact_iff proper).mpr exactly
  refine ⟨calls_substituteFrom _ _ _, ?_, List.pairwise_map.mp found.apart, ?_, ?_, found,
    rfl, ?_⟩
  · intro placed member
    exact found.slice_eq proper placed.span (List.mem_map_of_mem member)
  · refine (splice_substitute _ document fun _ => []).trans (List.flatMap_congr ?_)
    intro node _
    cases node <;> rfl
  · refine (splice_substitute _ document Call.raw).trans (List.flatMap_congr ?_)
    intro node _
    cases node <;> rfl
  · have missed : ∀ earlier < attempt, ¬ Exact (Placeholder.token placeholder earlier) document := by
      intro earlier before isExact
      have fits := (exact_iff (token_ne_nil shown earlier)).mp isExact
      rw [earlierFail earlier before] at fits
      cases fits
    rcases Nat.eq_zero_or_pos attempt with rfl | positive
    · exact .inl (token_zero placeholder)
    · have plain := missed 0 positive
      rw [token_zero] at plain
      refine .inr ⟨plain, attempt, positive, within, token_of_pos placeholder positive, ?_⟩
      intro earlier tried before
      rw [← token_of_pos placeholder tried]
      exact missed earlier before

/-- The placeholder overlaps itself and goes on from the text into the first
token, so it is found in front of the call.  Its first number makes it found
where it stands. -/
theorem extract_exact_overlapping :
    ∃ extraction,
      extract (Document.parse (Text.ofString "a\x7b\x7bf()\x7d\x7d1x\x7b\x7bg()\x7d\x7d"))
          (Text.ofString "aa") = .ok extraction ∧
        extraction.text = Text.ofString "aaa11xaa1" ∧
        Text.FoundAt (Text.ofString "aa1") (Text.ofString "aaa11xaa1") [⟨1, 4⟩, ⟨6, 9⟩] ∧
        ¬ Exact (Text.ofString "aa")
          (Document.parse (Text.ofString "a\x7b\x7bf()\x7d\x7d1x\x7b\x7bg()\x7d\x7d")) := by
  have extracted := extract_eq_ok_iff.mpr
    ⟨(by decide : Text.isBlank (Text.ofString "aa") = false), 1, by decide,
      (by decide : isExact (substitute _ (Document.parse
        (Text.ofString "a\x7b\x7bf()\x7d\x7d1x\x7b\x7bg()\x7d\x7d"))) = true), (by
      intro earlier before
      obtain rfl : earlier = 0 := by omega
      decide), rfl⟩
  obtain ⟨-, -, -, -, -, found, -, plain | ⟨notExact, -⟩⟩ := extract_exact extracted
  · exact absurd plain (by decide)
  · exact ⟨_, extracted, by decide, found, notExact⟩

end Placeholder

end Directive
