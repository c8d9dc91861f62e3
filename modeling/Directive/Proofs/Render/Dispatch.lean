import Directive.Render

/-!
# How a call ends

When a call is dispatched, its handler returns a text, or the call fails with a
fault that tells of it, or something else is thrown.  The last happens where the
registry throws, and where a handler throws a value without a text, since the
fault of the call would have to tell it.
-/

namespace Directive

section

variable {World : Type}

namespace Call

/-- The name of the call has a handler when it is looked up in the state. -/
def Resolves (resolve : Resolver World) (call : Call) (state : World) : Prop :=
  ∃ handler found, resolve call.name state = (.ok (some handler), found)

/-- The handler of the call returns the text when the call is dispatched in the
state. -/
def Returns (resolve : Resolver World) (call : Call) (state : World) (text : Text)
    (final : World) : Prop :=
  ∃ handler found, resolve call.name state = (.ok (some handler), found) ∧
    handler ⟨call.arguments⟩ call found = (.ok (.string text), final)

/-- The call fails with the fault when it is dispatched in the state. -/
inductive Fails (resolve : Resolver World) (call : Call) (state : World) :
    Fault → World → Prop where
  | unknown {final : World} :
      resolve call.name state = (.ok none, final) →
      Fails resolve call state (.unknownDirective call.site) final
  | threw {handler : Handler World} {thrown : Value} {reason : Text} {found final : World} :
      resolve call.name state = (.ok (some handler), found) →
      handler ⟨call.arguments⟩ call found = (.error thrown, final) →
      thrown.reason = .ok reason →
      Fails resolve call state (.directiveFailed call.site reason thrown) final
  | noString {handler : Handler World} {returned : Value} {reason : Text} {found final : World} :
      resolve call.name state = (.ok (some handler), found) →
      handler ⟨call.arguments⟩ call found = (.ok returned, final) →
      (∀ text, returned ≠ .string text) →
      (noStringError returned).reason = .ok reason →
      Fails resolve call state (.directiveFailed call.site reason (noStringError returned)) final

/-- What is thrown when the call is dispatched in the state is no fault that the
engine made of it: the registry throws, or the handler throws a value that has no
text, and asking for the text throws in its place. -/
inductive Escapes (resolve : Resolver World) (call : Call) (state : World) :
    Value → World → Prop where
  | registry {thrown : Value} {final : World} :
      resolve call.name state = (.error thrown, final) →
      Escapes resolve call state thrown final
  | wordless {handler : Handler World} {thrown escaped : Value} {found final : World} :
      resolve call.name state = (.ok (some handler), found) →
      handler ⟨call.arguments⟩ call found = (.error thrown, final) →
      thrown.reason = .error escaped →
      Escapes resolve call state escaped final

/-- The value is thrown when the call is dispatched in the state. -/
inductive Throws (resolve : Resolver World) (call : Call) (state : World) :
    Value → World → Prop where
  | fault {raised : Fault} {final : World} :
      call.Fails resolve state raised final → Throws resolve call state (.fault raised) final
  | escaped {escaped : Value} {final : World} :
      call.Escapes resolve state escaped final → Throws resolve call state escaped final

variable {resolve : Resolver World} {call : Call} {state final : World} {text : Text}
  {raised : Fault} {thrown : Value}

theorem Fails.isFromCall (fails : call.Fails resolve state raised final) :
    raised.isFromCall = true := by
  cases fails <;> rfl

theorem Fails.context_eq (fails : call.Fails resolve state raised final) :
    raised.context = .ofRecord call.site.toRecord := by
  cases fails <;> rfl

theorem resolves_iff :
    call.Resolves resolve state ↔
      ∃ handler, (resolve call.name state).1 = .ok (some handler) := by
  constructor
  · intro resolves
    obtain ⟨handler, found, resolved⟩ := resolves
    exact ⟨handler, by rw [resolved]⟩
  · intro resolved
    obtain ⟨handler, same⟩ := resolved
    exact ⟨handler, _, Prod.ext same rfl⟩

theorem Returns.resolves (returns : call.Returns resolve state text final) :
    call.Resolves resolve state := by
  obtain ⟨handler, found, resolved, -⟩ := returns
  exact ⟨handler, found, resolved⟩

end Call

theorem callFault?_eq_some_iff {thrown : Value} {raised : Fault} :
    callFault? thrown = some raised ↔ thrown = .fault raised ∧ raised.isFromCall = true := by
  cases thrown with
  | fault told =>
      rw [callFault?]
      constructor
      · intro found
        obtain ⟨fromCall, rfl⟩ : told.isFromCall = true ∧ told = raised := by
          simpa using found
        exact ⟨rfl, fromCall⟩
      · intro reported
        obtain ⟨same, fromCall⟩ := reported
        cases same
        simp [fromCall]
  | _ => simp [callFault?]

variable {resolve : Resolver World} {call : Call} {state final : World} {text : Text}
  {thrown : Value}

theorem Call.Fails.callFault?_eq {raised : Fault} (fails : call.Fails resolve state raised final) :
    callFault? (.fault raised) = some raised :=
  callFault?_eq_some_iff.mpr ⟨rfl, fails.isFromCall⟩

/-- What is thrown and is no fault of a call has escaped. -/
theorem Call.Throws.escapes (throws : call.Throws resolve state thrown final)
    (unreported : callFault? thrown = none) : call.Escapes resolve state thrown final := by
  cases throws with
  | fault fails =>
      rw [fails.callFault?_eq] at unreported
      cases unreported
  | escaped escapes => exact escapes

/-- Dispatching a call comes to one of the endings. -/
theorem dispatch_cases (resolve : Resolver World) (call : Call) (state : World) :
    (∃ text final, dispatch resolve call state = (.ok text, final) ∧
      call.Returns resolve state text final) ∨
    ∃ thrown final, dispatch resolve call state = (.error thrown, final) ∧
      call.Throws resolve state thrown final := by
  rw [dispatch]
  split
  · next thrown final refused => exact .inr ⟨thrown, final, rfl, .escaped (.registry refused)⟩
  · next final missing => exact .inr ⟨_, final, rfl, .fault (.unknown missing)⟩
  · next handler found resolved =>
      split
      · next thrown final threw =>
          refine .inr ⟨_, final, rfl, ?_⟩
          rw [handlerFailure]
          cases reasonEq : thrown.reason with
          | ok reason => exact .fault (.threw resolved threw reasonEq)
          | error escaped => exact .escaped (.wordless resolved threw reasonEq)
      · next text final returned => exact .inl ⟨text, final, rfl, handler, found, resolved, returned⟩
      · next value final noString returned =>
          exact .inr ⟨_, final, rfl, .fault (.noString resolved returned noString rfl)⟩

theorem Call.Returns.dispatch (returns : call.Returns resolve state text final) :
    Directive.dispatch resolve call state = (.ok text, final) := by
  obtain ⟨handler, found, resolved, returned⟩ := returns
  simp only [Directive.dispatch, resolved, returned]

theorem Call.Throws.dispatch (throws : call.Throws resolve state thrown final) :
    Directive.dispatch resolve call state = (.error thrown, final) := by
  rw [Directive.dispatch]
  cases throws with
  | fault fails =>
      cases fails with
      | unknown missing => simp only [missing]
      | threw resolved threw reasonEq => simp only [resolved, threw, handlerFailure, reasonEq]
      | noString resolved returned noString reasonEq =>
          simp only [resolved, returned]
          rw [handlerFailure, reasonEq]
  | escaped escapes =>
      cases escapes with
      | registry refused => simp only [refused]
      | wordless resolved threw reasonEq => simp only [resolved, threw, handlerFailure, reasonEq]

theorem dispatch_eq_error_iff :
    dispatch resolve call state = (.error thrown, final) ↔
      call.Throws resolve state thrown final := by
  refine ⟨fun dispatched => ?_, Call.Throws.dispatch⟩
  rcases dispatch_cases resolve call state with ⟨_, _, same, -⟩ | ⟨_, _, same, throws⟩
  · rw [dispatched] at same
    cases same
  · rw [dispatched] at same
    cases same
    exact throws

/-- The fault of a call that fails does not escape as something else. -/
theorem Call.Fails.not_escapes {raised : Fault} {escaped : Value} {last : World}
    (fails : call.Fails resolve state raised final) :
    ¬ call.Escapes resolve state escaped last := by
  intro escapes
  cases escapes with
  | registry refused =>
      cases fails with
      | unknown missing => simp [missing] at refused
      | threw resolved _ _ => simp [resolved] at refused
      | noString resolved _ _ _ => simp [resolved] at refused
  | wordless resolvedAgain threwAgain noReason =>
      cases fails with
      | unknown missing => simp [missing] at resolvedAgain
      | threw resolved threw reasonEq =>
          cases resolved.symm.trans resolvedAgain
          cases threw.symm.trans threwAgain
          simp [reasonEq] at noReason
      | noString resolved returned _ _ =>
          cases resolved.symm.trans resolvedAgain
          cases returned.symm.trans threwAgain

end

end Directive
