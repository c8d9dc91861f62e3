import Directive.Proofs.Literal.Completeness

/-!
# Aligned texts

Two texts are aligned when they are the same outside calls and have the same
strings within calls.  What stands between the strings of a call may differ.

A reader that starts in a run and does not see the calls of the text may enter
one of them only through a string that it opens before.  Such a string closes
in both texts at the same mark, and behind that mark the reader is within a
string of the call, never between two of them.  So the parts of a call carry
over from the one text to the other.
-/

namespace Directive

/-- A unit that neither opens a call nor encloses a string. -/
def CodeUnit.isPlain (unit : CodeUnit) : Bool :=
  unit != 0x7B && (Quote.ofUnit? unit).isNone

namespace CodeUnit

theorem isPlain_of_isSpacing {unit : CodeUnit} (spacing : isSpacing unit) : isPlain unit := by
  grind [isSpacing, isPlain, Quote.ofUnit?]

theorem isPlain_of_isDigit {unit : CodeUnit} (digit : isDigit unit) : isPlain unit := by
  grind [isDigit, isPlain, Quote.ofUnit?]

theorem isPlain_of_startsIdentifier {unit : CodeUnit} (starts : startsIdentifier unit) :
    isPlain unit := by
  grind [startsIdentifier, isPlain, Quote.ofUnit?]

theorem isPlain_of_continuesIdentifier {unit : CodeUnit} (continues : continuesIdentifier unit) :
    isPlain unit := by
  rw [continuesIdentifier, Bool.or_eq_true] at continues
  rcases continues with starts | digit
  · exact isPlain_of_startsIdentifier starts
  · exact isPlain_of_isDigit digit

end CodeUnit

def Plain (text : Text) : Prop :=
  ∀ unit ∈ text, CodeUnit.isPlain unit

instance (text : Text) : Decidable (Plain text) :=
  List.decidableBAll (fun unit => CodeUnit.isPlain unit = true) text

theorem Quote.isPlain_unit (quote : Quote) : CodeUnit.isPlain quote.unit = false := by
  cases quote <;> decide

theorem Quote.unit_ne_brace (quote : Quote) : quote.unit ≠ 0x7B := by
  cases quote <;> decide

theorem Quote.unit_injective {quote other : Quote} (same : quote.unit = other.unit) :
    quote = other := by
  cases quote <;> cases other <;> simp_all [unit]

/-! ## Plain texts -/

namespace Plain

theorem append {first second : Text} (left : Plain first) (right : Plain second) :
    Plain (first ++ second) := by
  intro unit member
  rcases List.mem_append.mp member with here | there
  · exact left unit here
  · exact right unit there

theorem cons {unit : CodeUnit} {text : Text} (head : CodeUnit.isPlain unit)
    (tail : Plain text) : Plain (unit :: text) :=
  List.forall_mem_cons.mpr ⟨head, tail⟩

theorem nil : Plain [] := by
  simp [Plain]

theorem of_spacing {text : Text} (spacing : Spacing text) : Plain text := by
  intro unit member
  exact CodeUnit.isPlain_of_isSpacing (spacing unit member)

/-- A separator with the spacing around it. -/
theorem separator {before after : Text} {unit : CodeUnit} (beforeBlank : Spacing before)
    (isPlain : CodeUnit.isPlain unit) (afterBlank : Spacing after) :
    Plain (before ++ unit :: after) :=
  (of_spacing beforeBlank).append (cons isPlain (of_spacing afterBlank))

theorem of_digits {text : Text} (digits : ∀ unit ∈ text, CodeUnit.isDigit unit) :
    Plain text := by
  intro unit member
  exact CodeUnit.isPlain_of_isDigit (digits unit member)

theorem of_identifier {name : Text} (identifier : name.isIdentifier) : Plain name := by
  cases name with
  | nil => exact nil
  | cons first others =>
      simp only [Text.isIdentifier_cons, Bool.and_eq_true, List.all_eq_true] at identifier
      obtain ⟨starts, continues⟩ := identifier
      apply cons (CodeUnit.isPlain_of_startsIdentifier starts)
      intro unit member
      exact CodeUnit.isPlain_of_continuesIdentifier (continues unit member)

theorem of_wholeNumber {whole : Text} (isWhole : WholeNumber whole) : Plain whole := by
  cases isWhole with
  | zero => exact cons rfl nil
  | digits first _ rest => exact of_digits (List.forall_mem_cons.mpr ⟨first, rest⟩)

theorem of_int {lexeme : Text} (isInt : IntLexeme lexeme) : Plain lexeme := by
  cases isInt with
  | plain whole => exact of_wholeNumber whole
  | signed whole => exact cons rfl (of_wholeNumber whole)

theorem of_float {lexeme : Text} (isFloat : FloatLexeme lexeme) : Plain lexeme := by
  cases isFloat with
  | mk isInt _ places => exact (of_int isInt).append (cons rfl (of_digits places))

theorem head?_append_ne {first second : Text} (isPlain : Plain first) (nonempty : first ≠ []) :
    (first ++ second).head? ≠ some 0x7B := by
  cases first with
  | nil => exact absurd rfl nonempty
  | cons unit first =>
      intro same
      obtain rfl : unit = 0x7B := by simpa using same
      exact absurd (isPlain _ List.mem_cons_self) (by decide)

end Plain

/-! ## The relation -/

/-- Where in a text one is: outside calls, between the strings of a call, or
within a string of a call. -/
inductive Region where
  | run
  | call
  | string (quote : Quote)

inductive Aligned : Region → Text → Text → Prop where
  | done : Aligned .run [] []
  | unit {unit : CodeUnit} {text other : Text} :
      Aligned .run text other → Aligned .run (unit :: text) (unit :: other)
  | enter {text other : Text} :
      Aligned .call text other → Aligned .run (0x7B :: 0x7B :: text) (0x7B :: 0x7B :: other)
  | left {unit : CodeUnit} {text other : Text} :
      CodeUnit.isPlain unit → Aligned .call text other → Aligned .call (unit :: text) other
  | right {unit : CodeUnit} {text other : Text} :
      CodeUnit.isPlain unit → Aligned .call text other → Aligned .call text (unit :: other)
  | quote {quote : Quote} {text other : Text} :
      Aligned (.string quote) text other →
      Aligned .call (quote.unit :: text) (quote.unit :: other)
  | leave {text other : Text} : Aligned .run text other → Aligned .call text other
  | inside {quote : Quote} {unit : CodeUnit} {text other : Text} :
      unit ≠ quote.unit → Aligned (.string quote) text other →
      Aligned (.string quote) (unit :: text) (unit :: other)
  | unquote {quote : Quote} {text other : Text} :
      Aligned .call text other →
      Aligned (.string quote) (quote.unit :: text) (quote.unit :: other)

namespace Aligned

theorem run_append {text other : Text} (run : Text) (aligned : Aligned .run text other) :
    Aligned .run (run ++ text) (run ++ other) := by
  induction run with
  | nil => exact aligned
  | cons unit run ih => exact .unit ih

theorem string_append {quote : Quote} {value text other : Text} (inside : quote.unit ∉ value)
    (aligned : Aligned .call text other) :
    Aligned (.string quote) (value ++ quote.unit :: text) (value ++ quote.unit :: other) := by
  induction value with
  | nil => exact .unquote aligned
  | cons unit value ih =>
      obtain ⟨different, later⟩ := List.ne_and_not_mem_of_not_mem_cons inside
      exact .inside different.symm (ih later)

end Aligned

/-! ## Parts of a call that match -/

/-- Two texts that may stand at the same place between strings of a call. -/
def Matches (first second : Text) : Prop :=
  ∀ text other : Text, Aligned .call text other →
    Aligned .call (first ++ text) (second ++ other)

namespace Matches

theorem append {first second third fourth : Text} (before : Matches first second)
    (after : Matches third fourth) : Matches (first ++ third) (second ++ fourth) := by
  intro text other aligned
  rw [List.append_assoc, List.append_assoc]
  exact before _ _ (after _ _ aligned)

theorem of_plain {first second : Text} (left : Plain first) (right : Plain second) :
    Matches first second := by
  intro text other aligned
  have written : Aligned .call text (second ++ other) := by
    induction second with
    | nil => exact aligned
    | cons unit second ih =>
        obtain ⟨head, tail⟩ := List.forall_mem_cons.mp right
        exact .right head (ih tail)
  induction first with
  | nil => exact written
  | cons unit first ih =>
      obtain ⟨head, tail⟩ := List.forall_mem_cons.mp left
      exact .left head (ih tail)

theorem string {quote : Quote} {value : Text} (inside : quote.unit ∉ value) :
    Matches (quote.unit :: value ++ [quote.unit]) (quote.unit :: value ++ [quote.unit]) := by
  intro text other aligned
  have quoted := Aligned.quote (Aligned.string_append inside aligned)
  simpa using quoted

end Matches

/-! ## Parts of a call that carry over -/

/-- The texts are aligned at a place that is not between strings of a call. -/
def Open (text other : Text) : Prop :=
  ∃ region, region ≠ Region.call ∧ Aligned region text other

/-- Where the text stands, its counterpart begins with a text of a kind. -/
def Carries (kind : Text → Prop) (text : Text) : Prop :=
  ∀ rest other : Text, Open (text ++ rest) other →
    ∃ written remaining, other = written ++ remaining ∧ kind written ∧ Open rest remaining

theorem Open.cons_of_plain {unit : CodeUnit} {rest other : Text}
    (isPlain : CodeUnit.isPlain unit) (opened : Open (unit :: rest) other) :
    ∃ remaining, other = unit :: remaining ∧ Open rest remaining := by
  obtain ⟨region, notCall, aligned⟩ := opened
  cases aligned with
  | unit later => exact ⟨_, rfl, _, notCall, later⟩
  | enter later => exact absurd isPlain (by decide)
  | inside _ later => exact ⟨_, rfl, _, notCall, later⟩
  | @unquote quote _ _ later => simp [Quote.isPlain_unit] at isPlain
  | left _ _ => exact absurd rfl notCall
  | right _ _ => exact absurd rfl notCall
  | quote _ => exact absurd rfl notCall
  | leave _ => exact absurd rfl notCall

/-- A string that begins at an open place does not begin within a string that
has the same mark. -/
theorem Open.cons_of_quote {quote : Quote} {rest other : Text}
    (opened : Open (quote.unit :: rest) other) :
    ∃ region remaining, other = quote.unit :: remaining ∧ region ≠ .string quote ∧
      Aligned region rest remaining := by
  obtain ⟨region, notCall, aligned⟩ := opened
  generalize headEq : quote.unit = head at aligned
  cases aligned with
  | unit later => exact ⟨_, _, rfl, by simp, later⟩
  | enter later => exact absurd headEq quote.unit_ne_brace
  | @inside enclosing _ _ _ different later =>
      refine ⟨_, _, rfl, ?_, later⟩
      intro same
      cases same
      exact different headEq.symm
  | unquote later => exact ⟨_, _, rfl, by simp, later⟩
  | left _ _ => exact absurd rfl notCall
  | right _ _ => exact absurd rfl notCall
  | quote _ => exact absurd rfl notCall
  | leave _ => exact absurd rfl notCall

/-- A text has the given mark, and the places behind the mark are open. -/
def Closes (quote : Quote) (rest other : Text) : Prop :=
  ∃ written remaining, other = written ++ quote.unit :: remaining ∧
    quote.unit ∉ written ∧ Open rest remaining

theorem Closes.here {quote : Quote} {rest other : Text} (opened : Open rest other) :
    Closes quote rest (quote.unit :: other) :=
  ⟨[], other, rfl, by simp, opened⟩

theorem Closes.cons {quote : Quote} {unit : CodeUnit} {rest other : Text}
    (closes : Closes quote rest other) (different : quote.unit ≠ unit) :
    Closes quote rest (unit :: other) := by
  obtain ⟨written, remaining, rfl, absent, opened⟩ := closes
  exact ⟨unit :: written, remaining, rfl, by simp [different, absent], opened⟩

/-- Where the mark is, if it is searched for from a unit on. -/
theorem cons_eq_value {mark unit : CodeUnit} {text value rest : Text}
    (split : unit :: text = value ++ mark :: rest) (inside : mark ∉ value) :
    (unit = mark ∧ text = rest) ∨
      ∃ others, mark ≠ unit ∧ text = others ++ mark :: rest ∧ mark ∉ others := by
  cases value with
  | nil =>
      obtain ⟨unitEq, textEq⟩ := List.cons.inj split
      exact .inl ⟨unitEq, textEq⟩
  | cons head others =>
      obtain ⟨rfl, textEq⟩ := List.cons.inj split
      obtain ⟨different, later⟩ := List.ne_and_not_mem_of_not_mem_cons inside
      exact .inr ⟨others, different, textEq, later⟩

/-- The mark that closes a string stands in both texts, and it closes the string
at an open place.  The induction is on the alignment; the region is never a
string with the mark itself, since such a string would begin with the mark. -/
theorem Aligned.closes {region : Region} {text other value rest : Text} {quote : Quote}
    (aligned : Aligned region text other) (outside : region ≠ .string quote)
    (textEq : text = value ++ quote.unit :: rest) (inside : quote.unit ∉ value) :
    Closes quote rest other := by
  induction aligned generalizing value with
  | done => simp at textEq
  | unit later ih =>
      rcases cons_eq_value textEq inside with ⟨rfl, rfl⟩ | ⟨others, different, split, absent⟩
      · exact .here ⟨.run, by simp, later⟩
      · exact (ih (by simp) split absent).cons different
  | enter later ih =>
      rcases cons_eq_value textEq inside with ⟨same, -⟩ | ⟨others, different, split, absent⟩
      · exact absurd same.symm quote.unit_ne_brace
      rcases cons_eq_value split absent with ⟨same, -⟩ | ⟨others, -, split, absent⟩
      · exact absurd same.symm quote.unit_ne_brace
      · exact ((ih (by simp) split absent).cons different).cons different
  | left isPlain _ ih =>
      rcases cons_eq_value textEq inside with ⟨rfl, -⟩ | ⟨others, -, split, absent⟩
      · simp [Quote.isPlain_unit] at isPlain
      · exact ih (by simp) split absent
  | right isPlain _ ih =>
      refine (ih outside textEq inside).cons ?_
      intro same
      subst same
      simp [Quote.isPlain_unit] at isPlain
  | @quote other _ _ later ih =>
      rcases cons_eq_value textEq inside with ⟨same, rfl⟩ | ⟨others, different, split, absent⟩
      · obtain rfl := Quote.unit_injective same
        exact .here ⟨.string other, by simp, later⟩
      · refine (ih ?_ split absent).cons different
        intro same
        cases same
        exact different rfl
  | leave _ ih => exact ih (by simp) textEq inside
  | @inside other unit _ _ notClosed later ih =>
      rcases cons_eq_value textEq inside with ⟨rfl, rfl⟩ | ⟨others, different, split, absent⟩
      · exact .here ⟨.string other, by simp, later⟩
      · exact (ih outside split absent).cons different
  | @unquote other _ _ _ ih =>
      rcases cons_eq_value textEq inside with ⟨same, -⟩ | ⟨others, different, split, absent⟩
      · exact absurd (by rw [Quote.unit_injective same]) outside
      · exact (ih (by simp) split absent).cons different

namespace Carries

theorem mono {kind wider : Text → Prop} {text : Text} (carries : Carries kind text)
    (within : ∀ written, kind written → wider written) : Carries wider text := by
  intro rest other opened
  obtain ⟨written, remaining, otherEq, isKind, further⟩ := carries _ _ opened
  exact ⟨written, remaining, otherEq, within written isKind, further⟩

theorem append {first second : Text} {kind nextKind : Text → Prop}
    (before : Carries kind first) (after : Carries nextKind second) :
    Carries (fun written => ∃ left right, written = left ++ right ∧ kind left ∧ nextKind right)
      (first ++ second) := by
  intro rest other opened
  rw [List.append_assoc] at opened
  obtain ⟨left, middle, rfl, leftKind, further⟩ := before _ _ opened
  obtain ⟨right, remaining, rfl, rightKind, furthest⟩ := after _ _ further
  exact ⟨left ++ right, remaining, by simp, ⟨left, right, rfl, leftKind, rightKind⟩, furthest⟩

theorem plain {text : Text} (isPlain : Plain text) : Carries (· = text) text := by
  intro rest other opened
  induction text generalizing other with
  | nil => exact ⟨[], other, rfl, rfl, opened⟩
  | cons unit text ih =>
      obtain ⟨head, tail⟩ := List.forall_mem_cons.mp isPlain
      obtain ⟨middle, rfl, further⟩ := Open.cons_of_plain head opened
      obtain ⟨written, remaining, rfl, rfl, furthest⟩ := ih tail _ further
      exact ⟨unit :: written, remaining, rfl, rfl, furthest⟩

theorem append_plain {text tail : Text} {kind : Text → Prop} (before : Carries kind text)
    (isPlain : Plain tail) :
    Carries (fun written => ∃ left, written = left ++ tail ∧ kind left) (text ++ tail) := by
  apply (before.append (plain isPlain)).mono
  intro written parts
  obtain ⟨left, _, rfl, leftKind, rfl⟩ := parts
  exact ⟨left, rfl, leftKind⟩

theorem plain_append {lead text : Text} {kind : Text → Prop} (isPlain : Plain lead)
    (after : Carries kind text) :
    Carries (fun written => ∃ right, written = lead ++ right ∧ kind right) (lead ++ text) := by
  apply ((plain isPlain).append after).mono
  intro written parts
  obtain ⟨_, right, rfl, rfl, rightKind⟩ := parts
  exact ⟨right, rfl, rightKind⟩

theorem string {quote : Quote} {value : Text} (inside : quote.unit ∉ value) :
    Carries (fun written => ∃ other, written = quote.unit :: other ++ [quote.unit] ∧
      quote.unit ∉ other) (quote.unit :: value ++ [quote.unit]) := by
  intro rest other opened
  have textEq : quote.unit :: value ++ [quote.unit] ++ rest =
      quote.unit :: (value ++ quote.unit :: rest) := by simp
  rw [textEq] at opened
  obtain ⟨region, middle, rfl, outside, further⟩ := Open.cons_of_quote opened
  obtain ⟨written, remaining, rfl, absent, furthest⟩ := further.closes outside rfl inside
  exact ⟨_, remaining, by simp, ⟨written, rfl, absent⟩, furthest⟩

end Carries

end Directive
