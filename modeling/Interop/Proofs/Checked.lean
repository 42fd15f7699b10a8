/-
What was checked cannot fail when it is written.

A delegate is checked before a word is written, and writing it looks its conversions
up again: the parameters on their way in and on their way out, and the result in both
directions.  The check looked at the same ones.  So the error of the check is the
first error of all conversions there are, in order, and where there is none, writing
the wrapper cannot fail.
-/
import Interop.Delegate.Wrapper
import Interop.Proofs.FirstFailure

namespace Interop

/-! ### The conversions of a delegate -/

namespace Crossing

/-- The conversions of a parameter, to the host and back. -/
def outcomes (host : Host) (param : Crossing) : List Outcome :=
  [param.conversion host.nativeLanguage host.language,
    param.conversion host.language host.nativeLanguage]

end Crossing

/-- The conversions of a result, to native code and back; what is void has none. -/
def returnOutcomes (host : Host) (description : Description) (nullness : Nullness) :
    List Outcome :=
  if description.isVoid then []
  else
    [description.convert host.language host.nativeLanguage nullness,
      description.convert host.nativeLanguage host.language nullness]

/-- All conversions of a delegate, in the order in which they are checked. -/
def ResolvedDelegate.outcomes (delegate : ResolvedDelegate) : List Outcome :=
  delegate.params.flatMap (Crossing.outcomes delegate.host) ++
    returnOutcomes delegate.host delegate.returnDescription delegate.returnNullness

/-! ### The check -/

theorem error?_checkParams (host : Host) (params : List Crossing) :
    error? (checkParams host params) =
      firstError? (params.flatMap (Crossing.outcomes host)) := by
  induction params with
  | nil => rfl
  | cons param rest ih =>
      rw [List.flatMap_cons, firstError?_append, ← ih, checkParams]
      simp only [Crossing.outcomes, firstError?_cons, firstError?_nil, Option.or_none]
      cases param.conversion host.nativeLanguage host.language with
      | error error => rfl
      | ok _ => cases param.conversion host.language host.nativeLanguage <;> rfl

theorem error?_checkReturn (host : Host) (description : Description) (nullness : Nullness) :
    error? (checkReturn host description nullness) =
      firstError? (returnOutcomes host description nullness) := by
  unfold checkReturn returnOutcomes
  cases description.isVoid with
  | true => rfl
  | false =>
      rw [Bool.not_false, if_pos rfl, if_neg Bool.false_ne_true]
      cases description.convert host.language host.nativeLanguage nullness with
      | error error => rfl
      | ok _ => cases description.convert host.nativeLanguage host.language nullness <;> rfl

/-- The error of the check is the first one of the conversions. -/
theorem error?_checkConversions (delegate : ResolvedDelegate) :
    error? delegate.checkConversions = firstError? delegate.outcomes := by
  rw [ResolvedDelegate.outcomes, firstError?_append, ← error?_checkParams, ← error?_checkReturn,
    ResolvedDelegate.checkConversions]
  cases checkParams delegate.host delegate.params <;> rfl

/-! ### Writing -/

/-- Parameters arrive unless one of them cannot be converted, and then the first such decides. -/
theorem Crossing.error?_arriveAmong (source target written : Language) (params : List Crossing) :
    ∀ taken, error? (arriveAmong source target written taken params) =
      firstError? (params.map (·.conversion source target)) := by
  induction params with
  | nil => intro taken; rfl
  | cons param rest ih =>
      intro taken
      rw [arriveAmong, List.map_cons, firstError?_cons]
      cases param.conversion source target with
      | error error => rfl
      | ok template? =>
          cases template? with
          | none =>
              rw [← ih taken]
              simp only [ok_bind]
              cases arriveAmong source target written taken rest <;> rfl
          | some template =>
              rw [← ih (freshName param.name (valueMark target) taken :: taken)]
              simp only [ok_bind]
              cases arriveAmong source target written
                (freshName param.name (valueMark target) taken :: taken) rest <;> rfl

/-- What fails nowhere in a list does not fail in a part of it. -/
theorem firstError?_eq_none_of_subset {ε α : Type} {part whole : List (Except ε α)}
    (hpart : part ⊆ whole) (h : firstError? whole = none) : firstError? part = none := by
  unfold firstError? at h ⊢
  rw [List.findSome?_eq_none_iff] at h ⊢
  exact fun outcome hmem => h outcome (hpart hmem)

section

variable {delegate : ResolvedDelegate} (h : delegate.checkConversions = .ok ())

include h

theorem firstError?_outcomes_eq_none : firstError? delegate.outcomes = none := by
  rw [← error?_checkConversions, h]
  rfl

theorem exists_ok_of_mem_outcomes {outcome : Outcome} (hmem : outcome ∈ delegate.outcomes) :
    ∃ conversion, outcome = .ok conversion :=
  error?_eq_none_iff.mp
    (List.findSome?_eq_none_iff.mp (firstError?_outcomes_eq_none h) outcome hmem)

/-- Parameters of a checked delegate arrive on either side. -/
theorem exists_arrivals {source target : Language} (written : Language)
    (hmem : ∀ param, param.conversion source target ∈ Crossing.outcomes delegate.host param)
    (reserved : List String) :
    ∃ arrivals, Crossing.arrive source target written reserved delegate.params = .ok arrivals := by
  refine error?_eq_none_iff.mp ?_
  rw [Crossing.arrive, Crossing.error?_arriveAmong]
  refine firstError?_eq_none_of_subset ?_ (firstError?_outcomes_eq_none h)
  intro outcome houtcome
  obtain ⟨param, hparam, rfl⟩ := List.mem_map.mp houtcome
  refine List.mem_append_left _ (List.mem_flatMap.mpr ⟨param, hparam, hmem param⟩)

/-- The result of a checked delegate that returns one converts on either side. -/
theorem exists_returnConversion (hreturning : delegate.isReturning = true) {outcome : Outcome}
    (hmem : outcome ∈
      [delegate.returnDescription.convert delegate.host.language delegate.host.nativeLanguage
          delegate.returnNullness,
        delegate.returnDescription.convert delegate.host.nativeLanguage delegate.host.language
          delegate.returnNullness]) :
    ∃ conversion, outcome = .ok conversion := by
  refine exists_ok_of_mem_outcomes h (List.mem_append_right _ ?_)
  have hvoid : delegate.returnDescription.isVoid = false := by
    simpa [ResolvedDelegate.isReturning] using hreturning
  rwa [returnOutcomes, hvoid]

theorem exists_creator (symbols : NativeSymbols) :
    ∃ factory, Callback.creator delegate symbols = .ok factory := by
  obtain ⟨arrivals, harrivals⟩ := exists_arrivals h delegate.host.language
    (fun param => List.mem_cons_self) (Callback.reservedNames delegate.host)
  unfold Callback.creator Callback.callSteps
  dsimp only
  rw [harrivals]
  cases hreturning : delegate.isReturning with
  | false => exact ⟨_, rfl⟩
  | true =>
      obtain ⟨conversion, hconversion⟩ :=
        exists_returnConversion h hreturning List.mem_cons_self
      simp only [ok_bind, if_true]
      rw [hconversion]
      exact ⟨_, rfl⟩

theorem exists_invocation (symbols : NativeSymbols) :
    ∃ invocation, Invocation.ofDelegate delegate symbols = .ok invocation := by
  obtain ⟨arrivals, harrivals⟩ := exists_arrivals h delegate.host.language
    (fun param => List.mem_cons_of_mem _ List.mem_cons_self) Invocation.reservedNames
  unfold Invocation.ofDelegate Invocation.resultSteps
  dsimp only
  rw [harrivals]
  cases hreturning : delegate.isReturning with
  | false => exact ⟨_, rfl⟩
  | true =>
      obtain ⟨conversion, hconversion⟩ :=
        exists_returnConversion h hreturning (List.mem_cons_of_mem _ List.mem_cons_self)
      simp only [ok_bind, if_true]
      rw [hconversion]
      exact ⟨_, rfl⟩

/-- **A checked delegate can be written.** -/
theorem exists_wrapper (symbols : NativeSymbols) :
    ∃ wrapper, Wrapper.ofDelegate delegate symbols = .ok wrapper := by
  obtain ⟨factory, hfactory⟩ := exists_creator h symbols
  obtain ⟨invocation, hinvocation⟩ := exists_invocation h symbols
  unfold Wrapper.ofDelegate
  rw [hfactory, hinvocation]
  exact ⟨_, rfl⟩

end

end Interop
