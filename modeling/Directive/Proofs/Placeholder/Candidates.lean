import Mathlib.Combinatorics.Enumerative.DoubleCounting
import Mathlib.Order.Interval.Finset.Nat
import Directive.Proofs.Document.Reading
import Directive.Proofs.Placeholder.Collision
import Directive.Proofs.Text.Digits

/-!
# Enough tokens

Tokens whose numbers have three digits are equally long, so no two of them are
found at one place, and wherever one of them is found the placeholder is found
too.  There are 900 of them.  If the placeholder is found at fewer places, one
of its tokens is free.  A text that holds all tokens has none that is free.
-/

namespace Directive.Placeholder

variable {token gap placeholder : Text} {gaps : List Text}

/-! ## Tokens of equal length -/

/-- The numbers of three digits. -/
def threeDigits : Finset Nat :=
  Finset.Icc 100 999

theorem length_ofNat {number : Nat} (member : number ∈ threeDigits) :
    (Text.ofNat number).length = 3 := by
  obtain ⟨low, high⟩ := Finset.mem_Icc.mp member
  have atMost : (Nat.toDigits 10 number).length ≤ 3 :=
    (Nat.length_toDigits_le_iff (by decide) (by decide)).mpr (by omega)
  have more : ¬ (Nat.toDigits 10 number).length ≤ 2 := by
    rw [Nat.length_toDigits_le_iff (by decide) (by decide)]
    omega
  rw [Text.ofNat_eq_map, List.length_map]
  omega

/-- A text that begins behind another one with itself is determined by that one
and by its own length. -/
theorem eq_of_prefix_append {lead first second : Text} (proper : lead ≠ [])
    (sameLength : first.length = second.length) (firstLeads : first <+: lead ++ first)
    (secondLeads : second <+: lead ++ second) : first = second := by
  have positive := List.length_pos_of_ne_nil proper
  apply List.ext_getElem?
  intro place
  induction place using Nat.strong_induction_on with
  | _ place ih =>
      by_cases within : place < first.length
      · have firstUnit := List.prefix_iff_getElem?.mp firstLeads place within
        have secondUnit :=
          List.prefix_iff_getElem?.mp secondLeads place (sameLength ▸ within)
        rw [← List.getElem?_eq_getElem, List.getElem?_append] at firstUnit secondUnit
        rw [← firstUnit, ← secondUnit]
        by_cases early : place < lead.length
        · rw [if_pos early, if_pos early]
        · rw [if_neg early, if_neg early]
          exact ih (place - lead.length) (by omega)
      · rw [List.getElem?_eq_none (by omega), List.getElem?_eq_none (by omega)]

/-! ## Counting -/

variable {number other : Nat}

theorem token_of_mem (member : number ∈ threeDigits) :
    Placeholder.token placeholder number = placeholder ++ Text.ofNat number :=
  token_of_pos placeholder (Nat.le_trans (by decide) (Finset.mem_Icc.mp member).1)

/-- The tail behind a gap is the token or nothing, and a stray goes on into it. -/
theorem prefix_of_mem_strays {place : Nat} {last : Bool}
    (stray : place ∈ strays token gap (if last then [] else token)) :
    place < gap.length ∧ token <+: gap.drop place ++ token := by
  obtain ⟨within, begins⟩ := mem_strays_iff.mp stray
  refine ⟨within, ?_⟩
  rw [Text.startsWith, List.isPrefixOf_iff_prefix,
    List.drop_append_of_le_length (Nat.le_of_lt within)] at begins
  cases last with
  | true =>
      simp only [if_true, List.append_nil] at begins
      exact begins.trans (List.prefix_append _ _)
  | false => simpa using begins

theorem mem_strays_of_append {place : Nat} {last : Bool} {digits : Text}
    (stray : place ∈ strays (placeholder ++ digits) gap
      (if last then [] else placeholder ++ digits)) :
    place ∈ strays placeholder gap (if last then [] else placeholder) := by
  obtain ⟨within, begins⟩ := mem_strays_iff.mp stray
  refine mem_strays_iff.mpr ⟨within, ?_⟩
  rw [Text.startsWith, List.isPrefixOf_iff_prefix] at begins ⊢
  rw [List.drop_append_of_le_length (Nat.le_of_lt within)] at begins ⊢
  have leads := (List.prefix_append placeholder digits).trans begins
  cases last with
  | true => exact leads
  | false =>
      have whole : gap.drop place ++ placeholder <+: gap.drop place ++ (placeholder ++ digits) := by
        rw [← List.append_assoc]
        exact List.prefix_append _ digits
      exact List.prefix_of_prefix_length_le leads whole (by simp)

/-- No two numbers of three digits make tokens that are found at one place. -/
theorem number_eq_of_mem_strays {place : Nat} {last : Bool} (member : number ∈ threeDigits)
    (otherMember : other ∈ threeDigits)
    (stray : place ∈ strays (Placeholder.token placeholder number) gap
      (if last then [] else Placeholder.token placeholder number))
    (otherStray : place ∈ strays (Placeholder.token placeholder other) gap
      (if last then [] else Placeholder.token placeholder other)) : number = other := by
  obtain ⟨within, leads⟩ := prefix_of_mem_strays stray
  obtain ⟨-, otherLeads⟩ := prefix_of_mem_strays otherStray
  have proper : gap.drop place ≠ [] := by
    intro empty
    have beyond := List.drop_eq_nil_iff.mp empty
    omega
  rw [token_of_mem member] at leads
  rw [token_of_mem otherMember] at otherLeads
  have sameLength : (placeholder ++ Text.ofNat number).length =
      (placeholder ++ Text.ofNat other).length := by
    rw [List.length_append, List.length_append, length_ofNat member, length_ofNat otherMember]
  have same := eq_of_prefix_append proper sameLength leads otherLeads
  exact Text.ofNat_injective (List.append_cancel_left same)

/-- The numbers whose tokens are found in a gap are no more than the places of
the gap at which the placeholder is found. -/
theorem card_strays_le (placeholder gap : Text) (last : Bool) :
    (threeDigits.filter fun number =>
        strays (Placeholder.token placeholder number) gap
          (if last then [] else Placeholder.token placeholder number) ≠ []).card ≤
      (strays placeholder gap (if last then [] else placeholder)).length := by
  refine Nat.le_trans ?_ (List.toFinset_card_le _)
  apply Finset.card_le_card_of_forall_subsingleton fun number place =>
    place ∈ strays (Placeholder.token placeholder number) gap
      (if last then [] else Placeholder.token placeholder number)
  · intro number found
    obtain ⟨member, some⟩ := Finset.mem_filter.mp found
    obtain ⟨place, stray⟩ := List.exists_mem_of_ne_nil _ some
    refine ⟨place, List.mem_toFinset.mpr ?_, stray⟩
    rw [token_of_mem member] at stray
    exact mem_strays_of_append stray
  · intro place _ number found other otherFound
    obtain ⟨numberFound, stray⟩ := found
    obtain ⟨otherNumberFound, otherStray⟩ := otherFound
    exact number_eq_of_mem_strays (Finset.mem_filter.mp numberFound).1
      (Finset.mem_filter.mp otherNumberFound).1 stray otherStray

theorem card_collisions_le (placeholder : Text) (gaps : List Text) :
    (threeDigits.filter fun number =>
        collisions (Placeholder.token placeholder number) gaps ≠ 0).card ≤
      collisions placeholder gaps := by
  induction gaps with
  | nil => simp [collisions]
  | cons gap gaps ih =>
      have either : (threeDigits.filter fun number =>
            collisions (Placeholder.token placeholder number) (gap :: gaps) ≠ 0) ⊆
          (threeDigits.filter fun number =>
            strays (Placeholder.token placeholder number) gap
              (if gaps.isEmpty then [] else Placeholder.token placeholder number) ≠ []) ∪
          (threeDigits.filter fun number =>
            collisions (Placeholder.token placeholder number) gaps ≠ 0) := by
        intro number found
        rw [← Finset.filter_or, Finset.mem_filter]
        obtain ⟨member, collides⟩ := Finset.mem_filter.mp found
        refine ⟨member, ?_⟩
        rw [collisions, ne_eq, Nat.add_eq_zero_iff, List.length_eq_zero_iff] at collides
        exact Classical.not_and_iff_not_or_not.mp collides
      calc
        _ ≤ _ := Finset.card_le_card either
        _ ≤ _ := Finset.card_union_le _ _
        _ ≤ _ := Nat.add_le_add (card_strays_le placeholder gap gaps.isEmpty) ih

/-- If the placeholder is found at fewer than 900 places, some token is free. -/
theorem exists_free_token (few : collisions placeholder gaps < 900) :
    ∃ attempt ≤ maxAttempts, collisions (Placeholder.token placeholder attempt) gaps = 0 := by
  have count : threeDigits.card = 900 := Nat.card_Icc 100 999
  have fewer := Nat.lt_of_le_of_lt (card_collisions_le placeholder gaps) few
  rw [← count] at fewer
  obtain ⟨number, member, free⟩ := Finset.exists_mem_notMem_of_card_lt_card fewer
  have within : number ≤ maxAttempts :=
    Nat.le_trans (Finset.mem_Icc.mp member).2 (by decide)
  refine ⟨number, within, ?_⟩
  simpa [member] using free

/-- Extraction returns exactly if the placeholder is free, or is with a number from 1
to 1000 behind it, and otherwise reports that nothing derived from it is.  It
returns if the placeholder is found at fewer than 900 places of the text between
the calls. -/
theorem extract_returns_iff (document : Document) {placeholder : Text}
    (shown : placeholder.isBlank = false) :
    ((∃ extraction, extract document placeholder = .ok extraction) ↔
      collisions placeholder (Node.gaps [] document.nodes) = 0 ∨
        ∃ number, 1 ≤ number ∧ number ≤ 1000 ∧
          collisions (placeholder ++ Text.ofNat number) (Node.gaps [] document.nodes) = 0) ∧
    ((∃ extraction, extract document placeholder = .ok extraction) ∨
      extract document placeholder = .error (.noFreePlaceholder placeholder)) ∧
    (collisions placeholder (Node.gaps [] document.nodes) < 900 →
      ∃ extraction, extract document placeholder = .ok extraction) := by
  refine ⟨exists_extract_eq_ok_iff shown, ?_, ?_⟩
  · cases result : extract document placeholder with
    | ok extraction => exact .inl ⟨extraction, rfl⟩
    | error fault =>
        obtain ⟨-, rfl⟩ := (extract_eq_error_iff shown).mp result
        exact .inr rfl
  · intro few
    have free := (@exists_token_iff placeholder fun token =>
      collisions token (Node.gaps [] document.nodes) = 0).mp (exists_free_token few)
    exact (exists_extract_eq_ok_iff shown).mpr free

/-- The placeholder and its first number stand in the text, and the placeholder
is found at two places. -/
theorem extract_returns_twice_found :
    Text.isBlank [0x61] = false ∧
      collisions [0x61]
        (Node.gaps [] (Document.parse (Text.ofString "aa1\x7b\x7bf()\x7d\x7d")).nodes) = 2 ∧
      ∃ extraction,
        extract (Document.parse (Text.ofString "aa1\x7b\x7bf()\x7d\x7d")) [0x61] =
          .ok extraction := by
  have shown : Text.isBlank [0x61] = false := by decide
  have found : collisions [0x61]
      (Node.gaps [] (Document.parse (Text.ofString "aa1\x7b\x7bf()\x7d\x7d")).nodes) = 2 := by
    decide
  have returns := (extract_returns_iff
    (Document.parse (Text.ofString "aa1\x7b\x7bf()\x7d\x7d")) shown).2.2
  exact ⟨shown, found, returns (by rw [found]; decide)⟩

/-! ## A text without a free token -/

/-- All tokens that are tried for a placeholder, one behind the other. -/
def tokens (placeholder : Text) : Text :=
  (List.range (maxAttempts + 1)).flatMap (Placeholder.token placeholder)

theorem brace_notMem_tokens (braceless : 0x7B ∉ placeholder) : 0x7B ∉ tokens placeholder := by
  intro member
  obtain ⟨attempt, -, member⟩ := List.mem_flatMap.mp member
  rw [Placeholder.token] at member
  split at member
  · exact braceless member
  · rcases List.mem_append.mp member with early | late
    · exact braceless early
    · exact absurd (Text.isDigit_of_mem_ofNat late) (by decide)

theorem collisions_ne_zero (proper : token ≠ []) (before after : Text) :
    collisions token [before ++ token ++ after] ≠ 0 := by
  intro none
  have nothing : strays token (before ++ token ++ after) [] = [] := by
    simpa [collisions] using none
  have positive := List.length_pos_of_ne_nil proper
  have missed := strays_eq_nil_iff.mp nothing before.length (by
    rw [List.length_append, List.length_append]
    omega)
  rw [List.append_nil, List.append_assoc, List.drop_left] at missed
  have found : Text.startsWith (token ++ after) token = true :=
    Text.startsWith_eq_true_iff.mpr ⟨after, rfl⟩
  rw [missed] at found
  cases found

theorem extract_tokens (shown : placeholder.isBlank = false) (braceless : 0x7B ∉ placeholder) :
    extract (Document.parse (tokens placeholder)) placeholder =
      .error (.noFreePlaceholder placeholder) := by
  refine (extract_eq_error_iff shown).mpr ⟨?_, rfl⟩
  intro attempt within
  obtain ⟨before, after, attempts⟩ :=
    List.append_of_mem (List.mem_range.mpr (Nat.lt_succ_of_le within))
  have proper := token_ne_nil shown attempt
  have tokensEq : tokens placeholder = before.flatMap (Placeholder.token placeholder) ++
      Placeholder.token placeholder attempt ++
        after.flatMap (Placeholder.token placeholder) := by
    rw [tokens, attempts, List.flatMap_append, List.flatMap_cons, List.append_assoc]
  have some : tokens placeholder ≠ [] := by
    rw [tokensEq]
    simp [proper]
  rw [Document.nodes_parse_of_notMem some (brace_notMem_tokens braceless), Node.gaps, Node.gaps,
    List.nil_append, tokensEq]
  exact collisions_ne_zero proper _ _

/-- The author's text has the placeholder and all its numbered variants. -/
theorem extract_tokens_fails :
    Text.isBlank [0x61] = false ∧
      extract (Document.parse (tokens [0x61])) [0x61] = .error (.noFreePlaceholder [0x61]) :=
  ⟨by decide, extract_tokens (by decide) (by decide)⟩

end Directive.Placeholder
