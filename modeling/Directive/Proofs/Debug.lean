import Directive.Debug
import Directive.Proofs.Text.Pieces

/-!
# Which namespaces a setting shows

Some namespace of the family is shown exactly if the setting lists `*` or a
pattern that itself begins like a namespace of the family.  The question without
a namespace looks for the patterns that cover the whole family, and so overlooks
a setting that lists single namespaces only.
-/

namespace Directive.Debug

/-- The namespaces of the library: that of the family, and those below it. -/
def OfFamily (name : Text) : Prop :=
  name = family ∨ family ++ [0x3A] <+: name

/-- The patterns that show every namespace of the family. -/
def CoversFamily (pattern : Text) : Prop :=
  pattern = Text.ofString "*" ∨ pattern = family ∨ pattern = family ++ wildcard

/-- The setting has the pattern between two commas, apart from white space. -/
def Lists (setting : Option Text) (pattern : Text) : Prop :=
  pattern ≠ [] ∧ ∃ piece ∈ (setting.getD []).splitOn 0x2C, Text.trim piece = pattern

/-- Some namespace of the library is shown. -/
def ShowsFamily (setting : Option Text) : Prop :=
  ∃ name, OfFamily name ∧ isEnabled setting (some name) = true

variable {setting : Option Text} {pattern name outer : Text}

/-! ## Patterns -/

theorem mem_patterns_iff : pattern ∈ patterns (setting.getD []) ↔ Lists setting pattern := by
  simp [patterns, Lists, Text.split_singleton, and_comm]

theorem isWithin_eq_true_iff :
    isWithin outer name = true ↔ name = outer ∨ outer ++ [0x3A] <+: name := by
  simp [isWithin, Text.startsWith, List.isPrefixOf_iff_prefix]

theorem exists_eq_append_wildcard (ends : Text.endsWith pattern wildcard = true) :
    ∃ outer, pattern = outer ++ wildcard ∧
      pattern.take (pattern.length - wildcard.length) = outer := by
  obtain ⟨outer, rfl⟩ := List.isSuffixOf_iff_suffix.mp ends
  exact ⟨outer, rfl, by simp⟩

theorem OfFamily.ne_nil (ofFamily : OfFamily name) : name ≠ [] := by
  rintro rfl
  rcases ofFamily with same | below
  · cases same
  · simp at below

theorem OfFamily.of_below (ofFamily : OfFamily outer) (below : outer ++ [0x3A] <+: name) :
    OfFamily name := by
  rcases ofFamily with rfl | above
  · exact .inr below
  · exact .inr (above.trans ((List.prefix_append outer [0x3A]).trans below))

/-- A colon stands in no namespace above the family. -/
theorem OfFamily.of_above (ofFamily : OfFamily name) (below : outer ++ [0x3A] <+: name) :
    OfFamily outer := by
  have noColon : ¬ outer ++ [0x3A] <+: family := by
    intro leads
    have colon : (0x3A : CodeUnit) ∈ family := leads.subset (by simp)
    exact absurd colon (by decide)
  rcases ofFamily with rfl | above
  · exact absurd below noColon
  · rcases List.prefix_or_prefix_of_prefix below above with shorter | longer
    · rcases List.prefix_concat_iff.mp shorter with same | leads
      · exact .inl (List.append_cancel_right same)
      · exact absurd leads noColon
    · rcases List.prefix_concat_iff.mp longer with same | leads
      · exact .inl (List.append_cancel_right same).symm
      · exact .inr leads

/-- Without a namespace, the patterns count that cover the family. -/
theorem admits_nil_iff : admits pattern [] = true ↔ CoversFamily pattern := by
  simp [admits, CoversFamily]

/-- What shows a namespace of the family is `*`, or it begins like such a
namespace. -/
theorem ofFamily_of_admits (ofFamily : OfFamily name) (admitted : admits pattern name = true) :
    pattern = Text.ofString "*" ∨ OfFamily pattern := by
  simp only [admits, Bool.or_eq_true, Bool.and_eq_true, decide_eq_true_eq] at admitted
  rcases admitted with ((all | ⟨covers, -⟩) | ⟨-, rfl⟩) | ⟨⟨-, ends⟩, within⟩
  · exact .inl all
  · rcases covers with rfl | rfl
    · exact .inr (.inl rfl)
    · exact .inr (.inr ⟨[0x2A], rfl⟩)
  · exact .inr ofFamily
  · obtain ⟨outer, rfl, outerEq⟩ := exists_eq_append_wildcard ends
    rw [outerEq] at within
    have outerOfFamily : OfFamily outer := by
      rcases isWithin_eq_true_iff.mp within with rfl | below
      · exact ofFamily
      · exact ofFamily.of_above below
    exact .inr (outerOfFamily.of_below ⟨[0x2A], by simp [wildcard]; rfl⟩)

theorem admits_self (nonempty : pattern ≠ []) : admits pattern pattern = true := by
  simp [admits, nonempty]

/-! ## Settings -/

theorem isEnabled_none_iff :
    isEnabled setting none = true ↔ ∃ pattern, Lists setting pattern ∧ CoversFamily pattern := by
  simp [isEnabled, mem_patterns_iff, admits_nil_iff]

theorem isEnabled_some_iff :
    isEnabled setting (some name) = true ↔
      ∃ pattern, Lists setting pattern ∧ admits pattern name = true := by
  simp [isEnabled, mem_patterns_iff]

theorem showsFamily_iff :
    ShowsFamily setting ↔
      ∃ pattern, Lists setting pattern ∧ (pattern = Text.ofString "*" ∨ OfFamily pattern) := by
  constructor
  · rintro ⟨name, ofFamily, shown⟩
    obtain ⟨pattern, listed, admitted⟩ := isEnabled_some_iff.mp shown
    exact ⟨pattern, listed, ofFamily_of_admits ofFamily admitted⟩
  · rintro ⟨pattern, listed, rfl | ofFamily⟩
    · exact ⟨family, .inl rfl, isEnabled_some_iff.mpr ⟨_, listed, by simp [admits]⟩⟩
    · -- a pattern of the family shows the namespace that is spelt like it
      exact ⟨pattern, ofFamily,
        isEnabled_some_iff.mpr ⟨pattern, listed, admits_self ofFamily.ne_nil⟩⟩

theorem CoversFamily.all_or_ofFamily (covers : CoversFamily pattern) :
    pattern = Text.ofString "*" ∨ OfFamily pattern := by
  rcases covers with all | rfl | rfl
  · exact .inl all
  · exact .inr (.inl rfl)
  · exact .inr (.inr ⟨[0x2A], rfl⟩)

/-- The question without a namespace is never answered with a false yes.  It is
answered rightly exactly if the setting lists a pattern that covers the family, or
none of the family at all; otherwise each of those it lists shows a part of the
family, and the answer is a false no. -/
theorem isEnabled_none_exact (setting : Option Text) :
    (isEnabled setting none = true → ShowsFamily setting) ∧
      ((isEnabled setting none = true ↔ ShowsFamily setting) ↔
        (∃ pattern, Lists setting pattern ∧ CoversFamily pattern) ∨
          ∀ pattern, Lists setting pattern → ¬ OfFamily pattern) := by
  rw [isEnabled_none_iff, showsFamily_iff]
  have sound : (∃ pattern, Lists setting pattern ∧ CoversFamily pattern) →
      ∃ pattern, Lists setting pattern ∧ (pattern = Text.ofString "*" ∨ OfFamily pattern) := by
    rintro ⟨pattern, listed, covers⟩
    exact ⟨pattern, listed, covers.all_or_ofFamily⟩
  refine ⟨sound, ?_, ?_⟩
  · intro agree
    by_cases covered : ∃ pattern, Lists setting pattern ∧ CoversFamily pattern
    · exact .inl covered
    · refine .inr ?_
      intro pattern listed ofFamily
      exact covered (agree.mpr ⟨pattern, listed, .inr ofFamily⟩)
  · rintro (covered | none)
    · exact iff_of_true covered (sound covered)
    · refine ⟨sound, ?_⟩
      rintro ⟨pattern, listed, all | ofFamily⟩
      · exact ⟨pattern, listed, .inl all⟩
      · exact absurd ofFamily (none pattern listed)

/-- A setting that lists only the namespace of the engine shows its output, but is
not counted as showing any. -/
theorem engine_shown_uncounted :
    isEnabled (some engine) none = false ∧ OfFamily engine ∧
      isEnabled (some engine) (some engine) = true := by
  refine ⟨by decide, .inr ⟨Text.ofString "shortcode", rfl⟩, by decide⟩

end Directive.Debug
