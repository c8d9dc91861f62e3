import Directive.Proofs.Literal.Completeness

/-!
# Calls by the grammar

The reader of calls agrees with the grammar in both directions.  A call ends
with its closing braces, so here nothing is asked of the text behind it: a text
begins with at most one call, and that call is recognized.
-/

namespace Directive

namespace CodeUnit

theorem isSpacing_of_startsIdentifier {unit : CodeUnit} (starts : startsIdentifier unit) :
    isSpacing unit = false := by
  grind [startsIdentifier, isSpacing]

theorem continuesIdentifier_of_isSpacing {unit : CodeUnit} (spacing : isSpacing unit) :
    continuesIdentifier unit = false := by
  grind [continuesIdentifier, startsIdentifier, isDigit, isSpacing]

theorem ne_of_startsIdentifier {unit : CodeUnit} (starts : startsIdentifier unit) :
    unit ≠ 0x29 ∧ unit ≠ 0x7B := by
  grind [startsIdentifier]

end CodeUnit

theorem Text.isIdentifier_head {name : Text} (identifier : name.isIdentifier) :
    ∃ first others, name = first :: others ∧ CodeUnit.startsIdentifier first := by
  cases name with
  | nil => simp [Text.isIdentifier] at identifier
  | cons first others =>
      simp only [Text.isIdentifier_cons, Bool.and_eq_true] at identifier
      exact ⟨first, others, rfl, identifier.1⟩

theorem Argument.Derives.head {text : Text} {argument : Argument}
    (derives : Argument.Derives text argument) :
    ∃ first others, text = first :: others ∧ CodeUnit.startsIdentifier first := by
  cases derives with
  | mk identifier _ _ _ =>
      obtain ⟨first, others, nameEq, starts⟩ := Text.isIdentifier_head identifier
      exact ⟨first, _, by rw [nameEq]; rfl, starts⟩

theorem Argument.DerivesList.head {body : Text} {arguments : List Argument}
    (derives : Argument.DerivesList body arguments) :
    ∃ first others, body = first :: others ∧ CodeUnit.startsIdentifier first := by
  cases derives with
  | last derives _ =>
      obtain ⟨first, others, rfl, starts⟩ := derives.head
      exact ⟨first, _, rfl, starts⟩
  | cons derives _ _ _ =>
      obtain ⟨first, others, rfl, starts⟩ := derives.head
      exact ⟨first, _, rfl, starts⟩

theorem Argument.DerivesList.length_le {body : Text} {arguments : List Argument}
    (derives : Argument.DerivesList body arguments) : arguments.length ≤ body.length := by
  induction derives with
  | last derives _ =>
      obtain ⟨first, others, rfl, -⟩ := derives.head
      simp
  | cons derives _ _ _ ih =>
      obtain ⟨first, others, rfl, -⟩ := derives.head
      simp
      omega

theorem Argument.DerivesAll.head {body : Text} {arguments : List Argument}
    (derives : Argument.DerivesAll body arguments) (rest : Text) :
    ∃ first others, body ++ 0x29 :: rest = first :: others ∧
      CodeUnit.isSpacing first = false := by
  cases derives with
  | none => exact ⟨0x29, rest, rfl, rfl⟩
  | some derives =>
      obtain ⟨first, others, rfl, starts⟩ := derives.head
      exact ⟨first, _, rfl, CodeUnit.isSpacing_of_startsIdentifier starts⟩

theorem bind_eq_ok_iff {ε α β : Type} {first : Except ε α} {continue_ : α → Except ε β}
    {result : β} :
    first >>= continue_ = .ok result ↔
      ∃ value, first = .ok value ∧ continue_ value = .ok result := by
  cases first <;> simp [bind, Except.bind]

namespace Call

/-! ## From the reading to the grammar -/

theorem expect_eq_ok_iff {text : Text} {cursor next : Cursor} :
    expect text cursor = .ok next ↔ next.Follows cursor text := by
  rw [← Cursor.eat?_eq_some_iff]
  cases eaten : cursor.eat? text <;> simp [expect, eaten]

theorem readName_follows {cursor next : Cursor} {name : Text}
    (result : readName cursor = .ok (name, next)) :
    next.Follows cursor name ∧ name.isIdentifier := by
  cases found : cursor.identifier? with
  | none => simp [readName, found] at result
  | some pair =>
      simp only [readName, found, Except.ok.injEq] at result
      subst result
      exact Cursor.identifier?_follows found

theorem readLiteral_follows {argument : Text} {cursor next : Cursor} {literal : Literal}
    (result : readLiteral argument cursor = .ok (literal, next)) :
    ∃ text, next.Follows cursor text ∧ Literal.Derives Literal.maxNesting text literal := by
  cases found : Literal.readAt 0 cursor with
  | error failure => simp [readLiteral, found] at result
  | ok pair =>
      simp only [readLiteral, found, Except.ok.injEq] at result
      subst result
      exact Literal.truthful_read Literal.maxNesting found

theorem readArgument_follows {cursor next : Cursor} {argument : Argument}
    (result : readArgument cursor = .ok (argument, next)) :
    ∃ text, next.Follows cursor text ∧ Argument.Derives text argument := by
  simp only [readArgument, bind_eq_ok_iff] at result
  obtain ⟨⟨name, afterName⟩, nameRead, afterEquals, equalsRead, ⟨value, last⟩, valueRead,
    resultEq⟩ := result
  cases resultEq
  obtain ⟨nameFollows, identifier⟩ := readName_follows nameRead
  obtain ⟨before, beforeBlank, beforeFollows⟩ := afterName.skipSpacing_follows
  have equalsFollows := expect_eq_ok_iff.mp equalsRead
  obtain ⟨after, afterBlank, afterFollows⟩ := afterEquals.skipSpacing_follows
  obtain ⟨text, textFollows, derives⟩ := readLiteral_follows valueRead
  have follows := (((nameFollows.trans beforeFollows).trans equalsFollows).trans
    afterFollows).trans textFollows
  exact ⟨name ++ before ++ 0x3D :: after ++ text, by simpa using follows,
    @Argument.Derives.mk ⟨name, value⟩ _ _ _ identifier beforeBlank afterBlank derives⟩

theorem readArguments_follows {bound : Text} {cursor next : Cursor} {arguments : List Argument}
    (result : readArguments bound cursor = .ok (arguments, next)) :
    ∃ body, next.Follows cursor (body ++ [0x29]) ∧ Argument.DerivesList body arguments := by
  induction bound generalizing cursor next arguments with
  | nil => simp [readArguments] at result
  | cons unit bound ih =>
      simp only [readArguments, bind_eq_ok_iff] at result
      obtain ⟨⟨argument, afterArgument⟩, argumentRead, result⟩ := result
      obtain ⟨text, textFollows, derives⟩ := readArgument_follows argumentRead
      obtain ⟨before, beforeBlank, beforeFollows⟩ := afterArgument.skipSpacing_follows
      have reached := textFollows.trans beforeFollows
      cases closed : afterArgument.skipSpacing.eat? [0x29] with
      | some close =>
          simp only [closed] at result
          cases result
          exact ⟨_, reached.trans (Cursor.eat?_eq_some_iff.mp closed), .last derives beforeBlank⟩
      | none =>
          simp only [closed, bind_eq_ok_iff] at result
          obtain ⟨afterComma, commaRead, ⟨others, close⟩, othersRead, resultEq⟩ := result
          cases resultEq
          obtain ⟨after, afterBlank, afterFollows⟩ := afterComma.skipSpacing_follows
          obtain ⟨rest, restFollows, restDerives⟩ := ih othersRead
          have follows := ((reached.trans (expect_eq_ok_iff.mp commaRead)).trans
            afterFollows).trans restFollows
          exact ⟨text ++ before ++ 0x2C :: after ++ rest, by simpa using follows,
            .cons derives beforeBlank afterBlank restDerives⟩

theorem readArgumentList_follows {cursor next : Cursor} {arguments : List Argument}
    (result : readArgumentList cursor = .ok (arguments, next)) :
    ∃ body, next.Follows cursor (body ++ [0x29]) ∧ Argument.DerivesAll body arguments := by
  cases closed : cursor.eat? [0x29] with
  | some close =>
      simp only [readArgumentList, closed, Except.ok.injEq, Prod.mk.injEq] at result
      obtain ⟨rfl, rfl⟩ := result
      exact ⟨[], Cursor.eat?_eq_some_iff.mp closed, .none⟩
  | none =>
      simp only [readArgumentList, closed] at result
      obtain ⟨body, follows, derives⟩ := readArguments_follows result
      exact ⟨body, follows, .some derives⟩

theorem read_follows {cursor next : Cursor} {invocation : Invocation}
    (result : read cursor = .ok (invocation, next)) :
    ∃ raw, next.Follows cursor raw ∧ Invocation.Derives raw invocation := by
  simp only [read, bind_eq_ok_iff] at result
  obtain ⟨opened, openerRead, ⟨name, afterName⟩, nameRead, parenthesis, parenthesisRead,
    ⟨arguments, afterArguments⟩, argumentsRead, last, closerRead, resultEq⟩ := result
  cases resultEq
  have openerFollows := expect_eq_ok_iff.mp openerRead
  obtain ⟨beforeName, beforeNameBlank, beforeNameFollows⟩ := opened.skipSpacing_follows
  obtain ⟨nameFollows, identifier⟩ := readName_follows nameRead
  obtain ⟨afterNameText, afterNameBlank, afterNameFollows⟩ := afterName.skipSpacing_follows
  have parenthesisFollows := expect_eq_ok_iff.mp parenthesisRead
  obtain ⟨beforeArguments, beforeArgumentsBlank, beforeArgumentsFollow⟩ :=
    parenthesis.skipSpacing_follows
  obtain ⟨body, bodyFollows, derives⟩ := readArgumentList_follows argumentsRead
  obtain ⟨afterBody, afterBodyBlank, afterBodyFollows⟩ := afterArguments.skipSpacing_follows
  have closerFollows := expect_eq_ok_iff.mp closerRead
  have toParenthesis := (((openerFollows.trans beforeNameFollows).trans nameFollows).trans
    afterNameFollows).trans parenthesisFollows
  have follows := (((toParenthesis.trans beforeArgumentsFollow).trans bodyFollows).trans
    afterBodyFollows).trans closerFollows
  refine ⟨opener ++ beforeName ++ name ++ afterNameText ++ 0x28 ::
    beforeArguments ++ body ++ 0x29 :: afterBody ++ closer, by simpa using follows, ?_⟩
  exact @Invocation.Derives.mk ⟨name, arguments⟩ _ _ _ _ _ beforeNameBlank identifier
    afterNameBlank beforeArgumentsBlank derives afterBodyBlank

/-! ## From the grammar to the reading -/

theorem readName_eq_ok {cursor next : Cursor} {name : Text} (identifier : name.isIdentifier)
    (follows : next.Follows cursor name)
    (stops : next.Faces fun unit => CodeUnit.continuesIdentifier unit = false) :
    readName cursor = .ok (name, next) := by
  simp [readName, Cursor.identifier?_eq_some follows identifier stops]

theorem readLiteral_eq_ok {name text : Text} {literal : Literal} {cursor next : Cursor}
    (derives : Literal.Derives Literal.maxNesting text literal)
    (follows : next.Follows cursor text)
    (ends : next.Faces fun unit => CodeUnit.endsLiteral unit) :
    readLiteral name cursor = .ok (literal, next) := by
  have found : Literal.readAt 0 cursor = .ok (literal, next) := derives.read_eq_ok follows ends
  simp [readLiteral, found]

theorem readArgument_eq_ok {cursor next : Cursor} {text : Text} {argument : Argument}
    (derives : Argument.Derives text argument) (follows : next.Follows cursor text)
    (ends : next.Faces fun unit => CodeUnit.endsLiteral unit) :
    readArgument cursor = .ok (argument, next) := by
  cases derives with
  | @mk _ before after text identifier beforeBlank afterBlank literalDerives =>
      obtain ⟨first, others, textEq, starts⟩ := literalDerives.head
      have pieces : next.Follows cursor
          (argument.name ++ (before ++ 0x3D :: (after ++ first :: others))) := by
        simpa [textEq] using follows
      obtain ⟨afterName, nameFollows, equalsFollow⟩ := pieces.split
      have nameRead : readName cursor = .ok (argument.name, afterName) :=
        readName_eq_ok identifier nameFollows (equalsFollow.faces_spacing beforeBlank
          (fun _ => CodeUnit.continuesIdentifier_of_isSpacing) rfl)
      obtain ⟨afterEquals, equals, restFollows⟩ :=
        (equalsFollow.skipSpacing beforeBlank rfl).eat?_cons
      have atLiteral := restFollows.skipSpacing afterBlank
        (CodeUnit.isSpacing_of_startsLiteral starts)
      rw [← textEq] at atLiteral
      have literalRead : readLiteral argument.name afterEquals.skipSpacing =
          .ok (argument.value, next) := readLiteral_eq_ok literalDerives atLiteral ends
      simp [readArgument, expect, nameRead, equals, literalRead, bind, Except.bind, pure,
        Except.pure]

theorem readArguments_eq_ok {cursor next : Cursor} {body bound : Text}
    {arguments : List Argument} (derives : Argument.DerivesList body arguments)
    (enough : arguments.length ≤ bound.length) (follows : next.Follows cursor (body ++ [0x29])) :
    readArguments bound cursor = .ok (arguments, next) := by
  induction derives generalizing bound cursor with
  | @last text after argument derives blank =>
      cases bound with
      | nil => simp at enough
      | cons unit bound =>
          have pieces : next.Follows cursor (text ++ (after ++ [0x29])) := by
            simpa using follows
          obtain ⟨afterArgument, textFollows, tailFollows⟩ := pieces.split
          have argumentRead : readArgument cursor = .ok (argument, afterArgument) :=
            readArgument_eq_ok derives textFollows (tailFollows.faces_endsLiteral blank rfl)
          have closed : afterArgument.skipSpacing.eat? [0x29] = some next :=
            Cursor.eat?_eq_some (tailFollows.skipSpacing blank rfl)
          simp [readArguments, argumentRead, closed, bind, Except.bind, pure, Except.pure]
  | @cons text before after rest argument arguments derives beforeBlank afterBlank others ih =>
      cases bound with
      | nil => simp at enough
      | cons unit bound =>
          obtain ⟨first, more, restEq, starts⟩ := others.head
          have pieces : next.Follows cursor
              (text ++ (before ++ 0x2C :: (after ++ first :: (more ++ [0x29])))) := by
            simpa [restEq] using follows
          obtain ⟨afterArgument, textFollows, tailFollows⟩ := pieces.split
          have argumentRead : readArgument cursor = .ok (argument, afterArgument) :=
            readArgument_eq_ok derives textFollows (tailFollows.faces_endsLiteral beforeBlank rfl)
          have atComma := tailFollows.skipSpacing beforeBlank rfl
          have notClosed : afterArgument.skipSpacing.eat? [0x29] = none :=
            atComma.eat?_eq_none (by decide)
          obtain ⟨afterComma, comma, restFollows⟩ := atComma.eat?_cons
          have atOthers := restFollows.skipSpacing afterBlank
            (CodeUnit.isSpacing_of_startsIdentifier starts)
          have othersRead : readArguments bound afterComma.skipSpacing =
              .ok (arguments, next) :=
            ih (by simpa using enough) (by simpa [restEq] using atOthers)
          simp [readArguments, expect, argumentRead, notClosed, comma, othersRead, bind,
            Except.bind, pure, Except.pure]

theorem readArgumentList_eq_ok {cursor next : Cursor} {body : Text} {arguments : List Argument}
    (derives : Argument.DerivesAll body arguments)
    (follows : next.Follows cursor (body ++ [0x29])) :
    readArgumentList cursor = .ok (arguments, next) := by
  cases derives with
  | none =>
      have closed : cursor.eat? [0x29] = some next := Cursor.eat?_eq_some follows
      simp [readArgumentList, closed]
  | some derives =>
      obtain ⟨first, others, bodyEq, starts⟩ := derives.head
      have leads : next.Follows cursor (first :: (others ++ [0x29])) := by
        simpa [bodyEq] using follows
      have notClosed : cursor.eat? [0x29] = none :=
        leads.eat?_eq_none (CodeUnit.ne_of_startsIdentifier starts).1
      have enough : arguments.length ≤ cursor.rest.length := by
        have atMost := derives.length_le
        rw [follows.1, List.append_assoc, List.length_append]
        omega
      simp [readArgumentList, notClosed, readArguments_eq_ok derives enough follows]

theorem read_eq_ok {cursor next : Cursor} {raw : Text} {invocation : Invocation}
    (derives : Invocation.Derives raw invocation) (follows : next.Follows cursor raw) :
    read cursor = .ok (invocation, next) := by
  cases derives with
  | @mk _ beforeName afterName beforeArguments body afterBody beforeNameBlank identifier
      afterNameBlank beforeArgumentsBlank argumentsDerive afterBodyBlank =>
      obtain ⟨first, others, nameEq, starts⟩ := Text.isIdentifier_head identifier
      have pieces : next.Follows cursor (opener ++ (beforeName ++ (invocation.name ++
          (afterName ++ 0x28 :: (beforeArguments ++ (body ++ [0x29] ++
            (afterBody ++ closer))))))) := by
        simpa using follows
      obtain ⟨opened, openerEaten, afterOpener⟩ := pieces.eat?
      have atName := afterOpener.skipSpacing_of_head beforeNameBlank
        ⟨first, _, by rw [nameEq]; rfl, CodeUnit.isSpacing_of_startsIdentifier starts⟩
      obtain ⟨named, nameFollows, afterNameFollows⟩ := atName.split
      have nameRead : readName opened.skipSpacing = .ok (invocation.name, named) :=
        readName_eq_ok identifier nameFollows (afterNameFollows.faces_spacing afterNameBlank
          (fun _ => CodeUnit.continuesIdentifier_of_isSpacing) rfl)
      obtain ⟨parenthesis, parenthesisEaten, afterParenthesis⟩ :=
        (afterNameFollows.skipSpacing afterNameBlank rfl).eat?_cons
      have atArguments := afterParenthesis.skipSpacing_of_head beforeArgumentsBlank
        (by simpa using argumentsDerive.head (afterBody ++ closer))
      obtain ⟨closed, argumentsFollow, afterArguments⟩ := atArguments.split
      have argumentsRead : readArgumentList parenthesis.skipSpacing =
          .ok (invocation.arguments, closed) :=
        readArgumentList_eq_ok argumentsDerive argumentsFollow
      have closerEaten : closed.skipSpacing.eat? closer = some next :=
        Cursor.eat?_eq_some (afterArguments.skipSpacing afterBodyBlank rfl)
      simp [read, expect, openerEaten, nameRead, parenthesisEaten, argumentsRead, closerEaten,
        bind, Except.bind, pure, Except.pure]

/-- The calls that are recognized are those that a beginning of the text derives. -/
theorem recognize?_eq_some_iff {text : Text} {invocation : Invocation} {length : Nat} :
    recognize? text = some (invocation, length) ↔
      ∃ raw rest, text = raw ++ rest ∧ raw.length = length ∧
        Invocation.Derives raw invocation := by
  constructor
  · intro recognized
    cases result : read (Cursor.start text) with
    | error overflow => simp [recognize?, result] at recognized
    | ok pair =>
        obtain ⟨found, next⟩ := pair
        simp only [recognize?, result, Option.some.injEq, Prod.mk.injEq] at recognized
        obtain ⟨rfl, rfl⟩ := recognized
        obtain ⟨raw, ⟨restEq, offsetEq⟩, derives⟩ := read_follows result
        refine ⟨raw, next.rest, restEq, ?_, derives⟩
        simpa [Cursor.start] using offsetEq.symm
  · intro begins
    obtain ⟨raw, rest, rfl, rfl, derives⟩ := begins
    have follows : Cursor.Follows ⟨raw.length, rest⟩ (Cursor.start (raw ++ rest)) raw := by
      simp [Cursor.Follows, Cursor.start]
    simp [recognize?, read_eq_ok derives follows]

/-- No call is the beginning of another one, and none can be understood in two
ways. -/
theorem derives_unique {raw rest otherRaw otherRest : Text} {invocation other : Invocation}
    (derives : Invocation.Derives raw invocation) (otherDerives : Invocation.Derives otherRaw other)
    (same : raw ++ rest = otherRaw ++ otherRest) : raw = otherRaw ∧ invocation = other := by
  have recognized : recognize? (raw ++ rest) = some (invocation, raw.length) :=
    recognize?_eq_some_iff.mpr ⟨raw, rest, rfl, rfl, derives⟩
  have otherRecognized : recognize? (raw ++ rest) = some (other, otherRaw.length) :=
    recognize?_eq_some_iff.mpr ⟨otherRaw, otherRest, same, rfl, otherDerives⟩
  have found := Option.some.inj (recognized.symm.trans otherRecognized)
  obtain ⟨sameInvocation, sameLength⟩ := Prod.mk.inj found
  exact ⟨(List.append_inj same sameLength).1, sameInvocation⟩

end Call

end Directive
