import Directive.Proofs.Alignment
import Directive.Proofs.Call.Reading

/-!
# Aligned calls

The canonical form of a call matches the text that the call was read from.
Conversely, where a call stands in the first of two aligned texts, a call stands
in the second: it has the same shape, and perhaps other strings.
-/

namespace Directive

/-! ## Canonical forms match -/

namespace Literal

mutual

theorem Derives.matches_format {room : Nat} {text : Text} {literal : Literal}
    (derives : Derives room text literal) : Matches literal.format text := by
  cases derives with
  | yes => exact .of_plain (by decide) (by decide)
  | no => exact .of_plain (by decide) (by decide)
  | string inside =>
      rw [format]
      exact .string inside
  | int isInt _ => exact .of_plain (.of_int isInt) (.of_int isInt)
  | float isFloat _ => exact .of_plain (.of_float isFloat) (.of_float isFloat)
  | empty spacing =>
      have written : Plain (0x5B :: _ ++ [0x5D]) :=
        .append (.cons rfl (.of_spacing spacing)) (by decide)
      exact .of_plain (by decide) written
  | @array _ before body items spacing itemsDerive =>
      have opening : Matches [0x5B] (0x5B :: before) :=
        .of_plain (by decide) (.cons rfl (.of_spacing spacing))
      have closing : Matches [0x5D] [0x5D] := .of_plain (by decide) (by decide)
      exact (opening.append itemsDerive.matches_formatItems).append closing

theorem DerivesItems.matches_formatItems {room : Nat} {body : Text} {items : List Literal}
    (derives : DerivesItems room body items) : Matches (formatItems items) body := by
  cases derives with
  | last item spacing =>
      have behind : Matches [] _ := .of_plain .nil (.of_spacing spacing)
      simpa [formatItems] using item.matches_format.append behind
  | @lastComma _ text before after literal item beforeBlank afterBlank =>
      have behind : Matches [] (before ++ 0x2C :: after) :=
        .of_plain .nil (.separator beforeBlank rfl afterBlank)
      simpa [formatItems] using item.matches_format.append behind
  | @cons _ text before after rest literal items item beforeBlank afterBlank others =>
      have separator : Matches [0x2C, 0x20] (before ++ 0x2C :: after) :=
        .of_plain (by decide) (.separator beforeBlank rfl afterBlank)
      have all := (item.matches_format.append separator).append others.matches_formatItems
      cases items with
      | nil => exact absurd others.length_pos (by simp)
      | cons next items => simpa [formatItems] using all

end

end Literal

namespace Argument

theorem Derives.matches_format {text : Text} {argument : Argument}
    (derives : Derives text argument) : Matches argument.format text := by
  cases derives with
  | @mk _ before after _ identifier beforeBlank afterBlank value =>
      have name : Plain argument.name := .of_identifier identifier
      have leading : Matches (argument.name ++ [0x3D])
          (argument.name ++ before ++ 0x3D :: after) :=
        .of_plain (name.append (by decide))
          ((name.append (.of_spacing beforeBlank)).append (.cons rfl (.of_spacing afterBlank)))
      simpa [Argument.format] using leading.append value.matches_format

theorem DerivesList.matches_join {text : Text} {arguments : List Argument}
    (derives : DerivesList text arguments) :
    Matches (Text.join (Text.ofString ", ") (arguments.map Argument.format)) text := by
  induction derives with
  | last argument spacing =>
      have behind : Matches [] _ := .of_plain .nil (.of_spacing spacing)
      simpa [Text.join] using argument.matches_format.append behind
  | @cons _ before after rest _ arguments argument beforeBlank afterBlank others ih =>
      have separator : Matches (Text.ofString ", ") (before ++ 0x2C :: after) :=
        .of_plain (by decide) (.separator beforeBlank rfl afterBlank)
      have all := (argument.matches_format.append separator).append ih
      cases arguments with
      | nil => cases others
      | cons next arguments => simpa [Text.join] using all

theorem DerivesAll.matches_join {text : Text} {arguments : List Argument}
    (derives : DerivesAll text arguments) :
    Matches (Text.join (Text.ofString ", ") (arguments.map Argument.format)) text := by
  cases derives with
  | none => exact .of_plain .nil .nil
  | some list => exact list.matches_join

end Argument

/-- Behind the opening braces. -/
theorem Invocation.Derives.matches_format {text : Text} {invocation : Invocation}
    (derives : Invocation.Derives text invocation) :
    ∃ canonical written, invocation.format = Call.opener ++ canonical ∧
      text = Call.opener ++ written ∧ Matches canonical written := by
  cases derives with
  | @mk _ beforeName afterName beforeArguments body afterBody beforeNameBlank identifier
      afterNameBlank beforeArgumentsBlank arguments afterBodyBlank =>
      have name : Plain invocation.name := .of_identifier identifier
      have leading : Matches (0x20 :: invocation.name ++ [0x28])
          (beforeName ++ invocation.name ++ afterName ++ 0x28 :: beforeArguments) :=
        .of_plain (.append (.cons rfl name) (by decide))
          ((((Plain.of_spacing beforeNameBlank).append name).append
            (.of_spacing afterNameBlank)).append (.cons rfl (.of_spacing beforeArgumentsBlank)))
      have closing : Matches (0x29 :: 0x20 :: Call.closer) (0x29 :: afterBody ++ Call.closer) :=
        .of_plain (by decide) (.append (.cons rfl (.of_spacing afterBodyBlank)) (by decide))
      have opening : Text.ofString "\x7b\x7b " = Call.opener ++ [0x20] := rfl
      have ending : Text.ofString ") \x7d\x7d" = 0x29 :: 0x20 :: Call.closer := rfl
      refine ⟨_, _, ?_, ?_, (leading.append arguments.matches_join).append closing⟩
      · simp [Invocation.format, opening, ending]
      · simp

/-! ## Calls carry over -/

namespace Literal

mutual

theorem Derives.carries {room : Nat} {text : Text} {literal : Literal}
    (derives : Derives room text literal) :
    Carries (fun written => ∃ other, Derives room written other) text := by
  cases derives with
  | yes =>
      apply (Carries.plain (by decide : Plain (Text.ofString "true"))).mono
      intro written same
      subst same
      exact ⟨_, .yes⟩
  | no =>
      apply (Carries.plain (by decide : Plain (Text.ofString "false"))).mono
      intro written same
      subst same
      exact ⟨_, .no⟩
  | string inside =>
      apply (Carries.string inside).mono
      intro written enclosed
      obtain ⟨other, rfl, absent⟩ := enclosed
      exact ⟨_, .string absent⟩
  | int isInt safe =>
      apply (Carries.plain (.of_int isInt)).mono
      intro written same
      subst same
      exact ⟨_, .int isInt safe⟩
  | float isFloat finite =>
      apply (Carries.plain (.of_float isFloat)).mono
      intro written same
      subst same
      exact ⟨_, .float isFloat finite⟩
  | @empty _ spacing blank =>
      have written : Plain (0x5B :: spacing ++ [0x5D]) :=
        .append (.cons rfl (.of_spacing blank)) (by decide)
      apply (Carries.plain written).mono
      intro written same
      subst same
      exact ⟨_, .empty blank⟩
  | @array _ before body _ blank items =>
      have opening : Plain (0x5B :: before) := .cons rfl (.of_spacing blank)
      have closing : Plain [0x5D] := by decide
      apply ((Carries.plain_append opening items.carries).append_plain closing).mono
      intro written parts
      obtain ⟨_, rfl, body, rfl, others, othersDerive⟩ := parts
      exact ⟨_, .array blank othersDerive⟩

theorem DerivesItems.carries {room : Nat} {body : Text} {items : List Literal}
    (derives : DerivesItems room body items) :
    Carries (fun written => ∃ others, DerivesItems room written others) body := by
  cases derives with
  | last item blank =>
      apply (item.carries.append_plain (.of_spacing blank)).mono
      intro written parts
      obtain ⟨text, rfl, other, otherDerives⟩ := parts
      exact ⟨_, .last otherDerives blank⟩
  | @lastComma _ _ before after _ item beforeBlank afterBlank =>
      have comma : Plain (0x2C :: after) := .cons rfl (.of_spacing afterBlank)
      apply ((item.carries.append_plain (.of_spacing beforeBlank)).append_plain comma).mono
      intro written parts
      obtain ⟨_, rfl, text, rfl, other, otherDerives⟩ := parts
      exact ⟨_, .lastComma otherDerives beforeBlank afterBlank⟩
  | @cons _ _ before after _ _ _ item beforeBlank afterBlank items =>
      have comma : Plain (0x2C :: after) := .cons rfl (.of_spacing afterBlank)
      have leading := (item.carries.append_plain (.of_spacing beforeBlank)).append_plain comma
      apply (leading.append items.carries).mono
      intro written parts
      obtain ⟨_, _, rfl, ⟨_, rfl, text, rfl, other, otherDerives⟩, others, rest⟩ := parts
      exact ⟨_, .cons otherDerives beforeBlank afterBlank rest⟩

end

end Literal

namespace Argument

theorem Derives.carries {text : Text} {argument : Argument} (derives : Derives text argument) :
    Carries (fun written => ∃ other, Derives written other) text := by
  cases derives with
  | @mk _ before after _ identifier beforeBlank afterBlank value =>
      have equals : Plain (0x3D :: after) := .cons rfl (.of_spacing afterBlank)
      have leading := ((Plain.of_identifier identifier).append (.of_spacing beforeBlank)).append
        equals
      apply (Carries.plain_append leading value.carries).mono
      intro written parts
      obtain ⟨text, rfl, other, otherValue⟩ := parts
      have otherDerives : Derives _ ⟨argument.name, other⟩ :=
        .mk identifier beforeBlank afterBlank otherValue
      exact ⟨_, otherDerives⟩

theorem DerivesList.carries {text : Text} {arguments : List Argument}
    (derives : DerivesList text arguments) :
    Carries (fun written => ∃ others, DerivesList written others) text := by
  induction derives with
  | last argument blank =>
      apply (argument.carries.append_plain (.of_spacing blank)).mono
      intro written parts
      obtain ⟨text, rfl, other, otherDerives⟩ := parts
      exact ⟨_, .last otherDerives blank⟩
  | @cons _ before after _ _ _ argument beforeBlank afterBlank _ ih =>
      have comma : Plain (0x2C :: after) := .cons rfl (.of_spacing afterBlank)
      have leading := (argument.carries.append_plain (.of_spacing beforeBlank)).append_plain comma
      apply (leading.append ih).mono
      intro written parts
      obtain ⟨_, _, rfl, ⟨_, rfl, text, rfl, other, otherDerives⟩, others, rest⟩ := parts
      exact ⟨_, .cons otherDerives beforeBlank afterBlank rest⟩

theorem DerivesAll.carries {text : Text} {arguments : List Argument}
    (derives : DerivesAll text arguments) :
    Carries (fun written => ∃ others, DerivesAll written others) text := by
  cases derives with
  | none =>
      apply (Carries.plain .nil).mono
      intro written same
      subst same
      exact ⟨_, .none⟩
  | some list =>
      apply list.carries.mono
      intro written found
      obtain ⟨others, othersDerive⟩ := found
      exact ⟨_, .some othersDerive⟩

end Argument

/-- Behind the opening braces, which are not followed by another brace. -/
theorem Invocation.Derives.carries {text : Text} {invocation : Invocation}
    (derives : Invocation.Derives text invocation) :
    ∃ body, text = Call.opener ++ body ∧ (∀ rest, (body ++ rest).head? ≠ some 0x7B) ∧
      Carries (fun written => ∃ other, Invocation.Derives (Call.opener ++ written) other)
        body := by
  cases derives with
  | @mk _ beforeName afterName beforeArguments body afterBody beforeNameBlank identifier
      afterNameBlank beforeArgumentsBlank arguments afterBodyBlank =>
      have leading : Plain
          (beforeName ++ invocation.name ++ afterName ++ 0x28 :: beforeArguments) :=
        (((Plain.of_spacing beforeNameBlank).append (.of_identifier identifier)).append
          (.of_spacing afterNameBlank)).append (.cons rfl (.of_spacing beforeArgumentsBlank))
      have closing : Plain (0x29 :: afterBody ++ Call.closer) :=
        .append (.cons rfl (.of_spacing afterBodyBlank)) (by decide)
      refine ⟨_, ?_, fun rest => ?_,
        (Carries.plain_append leading (arguments.carries.append_plain closing)).mono ?_⟩
      · simp
      · rw [List.append_assoc]
        exact leading.head?_append_ne (by simp)
      · intro written parts
        obtain ⟨_, rfl, text, rfl, others, othersDerive⟩ := parts
        refine ⟨⟨invocation.name, others⟩, ?_⟩
        have otherDerives : Invocation.Derives _ ⟨invocation.name, others⟩ :=
          .mk beforeNameBlank identifier afterNameBlank beforeArgumentsBlank othersDerive
            afterBodyBlank
        simpa using otherDerives

/-- A call that begins in a run of the first text begins in the second text too.
The opening braces do not belong to a later call, since that call would go on
with a third brace. -/
theorem Call.recognize?_of_aligned {unit : CodeUnit} {text other : Text}
    (aligned : Aligned .run text other)
    (recognized : ∃ found, Call.recognize? (unit :: text) = some found) :
    ∃ found, Call.recognize? (unit :: other) = some found := by
  obtain ⟨⟨invocation, length⟩, found⟩ := recognized
  obtain ⟨raw, rest, textEq, -, derives⟩ := Call.recognize?_eq_some_iff.mp found
  obtain ⟨body, rfl, unbraced, carries⟩ := derives.carries
  have pieces : unit :: text = 0x7B :: 0x7B :: (body ++ rest) := textEq
  obtain ⟨rfl, rfl⟩ := List.cons.inj pieces
  generalize tailEq : body ++ rest = tail at aligned
  cases aligned with
  | unit behind =>
      have opened : Open (body ++ rest) _ := ⟨.run, by simp, tailEq ▸ behind⟩
      obtain ⟨written, remaining, rfl, ⟨otherInvocation, otherDerives⟩, -⟩ := carries _ _ opened
      have begins := Call.recognize?_eq_some_iff.mpr ⟨_, remaining, rfl, rfl, otherDerives⟩
      exact ⟨_, begins⟩
  | enter _ =>
      have braced := unbraced rest
      simp [tailEq] at braced

end Directive
