/-
Resolving a delegate with nothing remembered.

Resolving a delegate surveys it first: what it is, whether its form is supported,
and what its types and the type of its base are described as.  None of this needs
the base to be resolved, and all of it is decided by reflection alone.  Then the
base is resolved, of which only the signature is kept, and last the conversions
are looked at.  `resolveAfresh` says this without a catalogue.

With a catalogue resolving is the same three things one after another, and each of
them comes to the same whatever was requested before.
-/
import Interop.Delegate.ResolvedDelegate
import Interop.Proofs.Requests

namespace Interop

/-! ### Without a catalogue -/

/-- A parameter, given what its type is described as. -/
def crossingWith (settings : Settings) (param : Param) (description : Description) : Crossing where
  name := param.name
  description := description
  passing := param.passing
  nullness := param.nullability.settleMember settings.unspecified description.defaultNullability

/-- What is known of a delegate before its base is resolved. -/
structure Survey where
  type : ManagedType
  signature : Signature
  description : Description
  returnDescription : Description
  params : List Crossing
  /-- What the base is described as, if there is one. -/
  baseDescription : Option Description

namespace Survey

/-- The delegate, given the signature of its base. -/
def delegate (found : Survey) (settings : Settings) (key : TypeKey)
    (baseSignature : Option Signature) : ResolvedDelegate where
  key := key
  host := settings.host
  description := found.description
  typeName := found.type.name
  fullTypeName := found.description.fullName
  hostTypeName := found.description.baseName settings.host.language
  hostBaseTypeName := match found.baseDescription with
    | some description => description.baseName settings.host.language
    | none => ResolvedDelegate.rootTypeName
  returnDescription := found.returnDescription
  returnNullness := found.signature.returnNullability.settleMember settings.unspecified
    found.returnDescription.defaultNullability
  params := found.params
  signature := found.signature
  baseSignature := baseSignature

/-- The delegate, if all its values can be converted. -/
def conclude (found : Survey) (settings : Settings) (key : TypeKey)
    (baseSignature : Option Signature) : Except Refusal ResolvedDelegate := do
  let delegate := found.delegate settings key baseSignature
  delegate.checkConversions.mapError .conversion
  return delegate

end Survey

section

variable (types : Reflection) (settings : Settings)

/-- A parameter with its type described from nothing. -/
def crossingAfresh (param : Param) : Except DescriptionError Crossing :=
  (describeAfresh types settings.unspecified param.type).map (crossingWith settings param)

/-- A base type described from nothing. -/
def describeBase : Option TypeKey → Except DescriptionError (Option Description)
  | none => .ok none
  | some base => (describeAfresh types settings.unspecified base).map some

/-- Everything that is looked at before the base is resolved. -/
def survey (key : TypeKey) : Except Refusal Survey := do
  let (type, _) ← namedDelegateAt types key
  let signature ← supportedSignature settings type
  let description ← (describeAfresh types settings.unspecified key).mapError .ofDescription
  let returnDescription ←
    (describeAfresh types settings.unspecified signature.returnType).mapError .ofDescription
  let params ← (signature.params.mapM (crossingAfresh types settings)).mapError .ofDescription
  let baseDescription ← (describeBase types settings type.base).mapError .ofDescription
  return { type, signature, description, returnDescription, params, baseDescription }

/-- The base that resolving a key goes on to, if it gets so far. -/
def baseToResolve (key : TypeKey) : Option TypeKey :=
  match survey types settings key with
  | .ok found => found.type.base
  | .error _ => none

/-- Resolves a delegate from nothing, along so many links of its chain of bases at most. -/
def resolveAfresh : Nat → TypeKey → Option (Except Refusal ResolvedDelegate)
  | 0, _ => none
  | links + 1, key =>
    match survey types settings key with
    | .error refusal => some (.error refusal)
    | .ok found =>
      match found.type.base with
      | none => some (found.conclude settings key none)
      | some base =>
        (resolveAfresh links base).map fun outcome =>
          found.conclude settings key (outcome.toOption.map (·.signature))

end

/-! ### What a survey has found -/

theorem namedDelegateAt_eq_ok {types : Reflection} {key : TypeKey} {type : ManagedType}
    {fullName : String} (h : namedDelegateAt types key = .ok (type, fullName)) :
    types.get? key = some type ∧ type.fullName = some fullName ∧ type.shape = .delegate := by
  unfold namedDelegateAt at h
  split at h
  · cases h
  · rename_i found hfound
    split at h
    · cases h
    · rename_i name hname
      split at h
      · rename_i hshape
        cases h
        exact ⟨hfound, hname, Shape.isDelegate_iff.mp hshape⟩
      · cases h

/-- What was surveyed was found one thing after another. -/
theorem survey_eq_ok {types : Reflection} {settings : Settings} {key : TypeKey} {found : Survey}
    (h : survey types settings key = .ok found) :
    ∃ fullName, namedDelegateAt types key = .ok (found.type, fullName) ∧
      supportedSignature settings found.type = .ok found.signature ∧
      describeAfresh types settings.unspecified key = .ok found.description ∧
      describeAfresh types settings.unspecified found.signature.returnType =
        .ok found.returnDescription ∧
      found.signature.params.mapM (crossingAfresh types settings) = .ok found.params := by
  unfold survey at h
  obtain ⟨⟨type, fullName⟩, hnamed, h⟩ := bind_eq_ok h
  obtain ⟨signature, hsigned, h⟩ := bind_eq_ok h
  obtain ⟨description, hown, h⟩ := bind_eq_ok h
  obtain ⟨returned, hreturn, h⟩ := bind_eq_ok h
  obtain ⟨params, hparams, h⟩ := bind_eq_ok h
  obtain ⟨base, -, h⟩ := bind_eq_ok h
  cases h
  exact ⟨fullName, hnamed, hsigned, mapError_eq_ok hown, mapError_eq_ok hreturn,
    mapError_eq_ok hparams⟩

/-! ### Work on delegates that no history can change -/

namespace Resolving

variable {α β : Type} {types : Reflection} {unspecified : Nullness}

variable (types unspecified) in
/-- The work has the same outcome, or none, on every catalogue that requests can lead to, and
leads to such a catalogue again. -/
def ComesTo (work : Resolving α) (outcome : Option (Except Refusal α)) : Prop :=
  ∀ catalogue : Catalogue, catalogue.Reached types unspecified →
    match outcome with
    | some result => ∃ after : Catalogue, after.Reached types unspecified ∧
        work.on catalogue = some (result, after)
    | none => work.on catalogue = none

theorem comesTo_noAnswer : (noAnswer : Resolving α).ComesTo types unspecified none :=
  fun catalogue _ => on_noAnswer catalogue

theorem comesTo_ofDecision (decision : Except Refusal α) :
    (ofDecision decision).ComesTo types unspecified (some decision) :=
  fun catalogue hreached => ⟨catalogue, hreached, on_ofDecision decision catalogue⟩

theorem comesTo_pure (value : α) :
    (pure value : Resolving α).ComesTo types unspecified (some (.ok value)) :=
  fun catalogue hreached => ⟨catalogue, hreached, on_pure value catalogue⟩

theorem comesTo_ofDescribing {work : Describing α} {outcome : Except DescriptionError α}
    (h : work.ComesTo types unspecified outcome) :
    (ofDescribing work).ComesTo types unspecified (some (outcome.mapError .ofDescription)) := by
  intro catalogue hreached
  obtain ⟨after, hafter, hon⟩ := h catalogue hreached
  refine ⟨after, hafter, ?_⟩
  rw [on_ofDescribing, hon]

theorem ComesTo.attempt {work : Resolving α} {outcome : Option (Except Refusal α)}
    (h : work.ComesTo types unspecified outcome) :
    (attempt work).ComesTo types unspecified (outcome.map fun result => .ok result.toOption) := by
  intro catalogue hreached
  have hwork := h catalogue hreached
  cases outcome with
  | none =>
      show (Resolving.attempt work).on catalogue = none
      rw [on_attempt, hwork]
      rfl
  | some result =>
      obtain ⟨after, hafter, hon⟩ := hwork
      refine ⟨after, hafter, ?_⟩
      rw [on_attempt, hon]
      rfl

theorem ComesTo.bind_error {work : Resolving α} {next : α → Resolving β} {refusal : Refusal}
    (h : work.ComesTo types unspecified (some (.error refusal))) :
    (work >>= next).ComesTo types unspecified (some (.error refusal)) := by
  intro catalogue hreached
  obtain ⟨after, hafter, hon⟩ := h catalogue hreached
  refine ⟨after, hafter, ?_⟩
  rw [on_bind, hon]

theorem ComesTo.bind_none {work : Resolving α} {next : α → Resolving β}
    (h : work.ComesTo types unspecified none) : (work >>= next).ComesTo types unspecified none := by
  intro catalogue hreached
  show (work >>= next).on catalogue = none
  rw [on_bind, h catalogue hreached]

/-- Work that succeeds leaves the decision to what follows. -/
theorem ComesTo.bind_ok {work : Resolving α} {next : α → Resolving β} {value : α}
    {outcome : Option (Except Refusal β)}
    (h : work.ComesTo types unspecified (some (.ok value)))
    (hnext : (next value).ComesTo types unspecified outcome) :
    (work >>= next).ComesTo types unspecified outcome := by
  intro catalogue hreached
  obtain ⟨middle, hmiddle, hon⟩ := h catalogue hreached
  rw [on_bind, hon]
  exact hnext middle hmiddle

theorem ofDescribing_pure (value : α) :
    ofDescribing (pure value) = (pure value : Resolving α) := rfl

theorem ofDescribing_map (work : Describing α) (f : α → β) :
    ofDescribing (do return f (← work)) = do return f (← ofDescribing work) := by
  refine funext fun catalogue => ?_
  show (ofDescribing (do return f (← work))).on catalogue =
    (do return f (← ofDescribing work) : Resolving β).on catalogue
  rw [on_bind, on_ofDescribing, on_ofDescribing, Describing.on_bind]
  rcases work.on catalogue with ⟨_ | _, _⟩ <;> rfl

/-- Work that is done one after another comes to what its outcomes come to one after another. -/
theorem ComesTo.bind {work : Resolving α} {next : α → Resolving β} {outcome : Except Refusal α}
    {following : α → Except Refusal β} (h : work.ComesTo types unspecified (some outcome))
    (hnext : ∀ value, (next value).ComesTo types unspecified (some (following value))) :
    (work >>= next).ComesTo types unspecified (some (outcome >>= following)) := by
  cases outcome with
  | error refusal => exact h.bind_error
  | ok value => exact h.bind_ok (hnext value)

end Resolving

/-! ### Surveying -/

section

variable (types : Reflection) (settings : Settings)

/-- Describes a base type. -/
def describingBase : Option TypeKey → Describing (Option Description)
  | none => return none
  | some base => do return some (← describe types settings.unspecified base)

/-- The survey of a delegate on a catalogue. -/
def surveying (key : TypeKey) : Resolving Survey := do
  let (type, _) ← Resolving.ofDecision (namedDelegateAt types key)
  let signature ← Resolving.ofDecision (supportedSignature settings type)
  let description ← Resolving.ofDescribing (describe types settings.unspecified key)
  let returnDescription ←
    Resolving.ofDescribing (describe types settings.unspecified signature.returnType)
  let params ← Resolving.ofDescribing (signature.params.mapM (crossingOf types settings))
  let baseDescription ← Resolving.ofDescribing (describingBase types settings type.base)
  return { type, signature, description, returnDescription, params, baseDescription }

/-- The signature of a base, if it resolves. -/
def resolvingBase (resolve : TypeKey → Resolving ResolvedDelegate) :
    Option TypeKey → Resolving (Option Signature)
  | none => return none
  | some base => do return (← Resolving.attempt (resolve base)).map (·.signature)

/-- Resolving surveys, resolves the base, and looks at the conversions. -/
theorem resolveWithin_succ (links : Nat) (key : TypeKey) :
    resolveWithin types settings (links + 1) key = do
      let found ← surveying types settings key
      let baseSignature ← resolvingBase (resolveWithin types settings links) found.type.base
      let delegate := found.delegate settings key baseSignature
      Resolving.ofConversion delegate.checkConversions
      return delegate := by
  rw [resolveWithin, surveying]
  simp only [bind_assoc, pure_bind]
  refine congrArg _ (funext fun (type, fullName) => ?_)
  refine congrArg _ (funext fun signature => ?_)
  refine congrArg _ (funext fun description => ?_)
  refine congrArg _ (funext fun returnDescription => ?_)
  refine congrArg _ (funext fun params => ?_)
  -- The base is described in the survey and resolved after it.
  cases type.base with
  | none =>
      simp only [resolveBase, describingBase, resolvingBase, Resolving.ofDescribing_pure,
        pure_bind]
      rfl
  | some base =>
      simp only [resolveBase, describingBase, resolvingBase, Resolving.ofDescribing_map,
        bind_assoc, pure_bind]
      rfl

theorem comesTo_crossingOf (param : Param) :
    (crossingOf types settings param).ComesTo types settings.unspecified
      (crossingAfresh types settings param) :=
  (Describing.comesTo_describe types settings.unspecified param.type).map _

theorem comesTo_describingBase (base : Option TypeKey) :
    (describingBase types settings base).ComesTo types settings.unspecified
      (describeBase types settings base) := by
  cases base with
  | none => exact fun catalogue hreached => ⟨catalogue, hreached, rfl⟩
  | some base => exact (Describing.comesTo_describe types settings.unspecified base).map some

/-- A survey finds what it finds from nothing. -/
theorem comesTo_surveying (key : TypeKey) :
    (surveying types settings key).ComesTo types settings.unspecified
      (some (survey types settings key)) := by
  have hdescribe := fun key => Resolving.comesTo_ofDescribing
    (Describing.comesTo_describe types settings.unspecified key)
  refine (Resolving.comesTo_ofDecision _).bind ?_
  rintro ⟨type, fullName⟩
  refine (Resolving.comesTo_ofDecision _).bind fun signature => ?_
  refine (hdescribe key).bind fun description => ?_
  refine (hdescribe signature.returnType).bind fun returnDescription => ?_
  refine (Resolving.comesTo_ofDescribing
    (Describing.ComesTo.mapM (comesTo_crossingOf types settings) _)).bind fun params => ?_
  refine (Resolving.comesTo_ofDescribing
    (comesTo_describingBase types settings _)).bind fun baseDescription => ?_
  exact Resolving.comesTo_pure _

variable {types settings} in
/-- Of a base only the signature is kept, and of a refusal nothing. -/
theorem comesTo_resolvingBase {resolve : TypeKey → Resolving ResolvedDelegate} {base : TypeKey}
    {outcome : Option (Except Refusal ResolvedDelegate)}
    (h : (resolve base).ComesTo types settings.unspecified outcome) :
    (resolvingBase resolve (some base)).ComesTo types settings.unspecified
      (outcome.map fun result => .ok (result.toOption.map (·.signature))) := by
  cases outcome with
  | none => exact h.attempt.bind_none
  | some result => exact h.attempt.bind_ok (Resolving.comesTo_pure _)

theorem comesTo_conclude (found : Survey) (key : TypeKey) (baseSignature : Option Signature) :
    (do
      let delegate := found.delegate settings key baseSignature
      Resolving.ofConversion delegate.checkConversions
      return delegate : Resolving ResolvedDelegate).ComesTo types settings.unspecified
      (some (found.conclude settings key baseSignature)) := by
  exact (Resolving.comesTo_ofDecision _).bind fun _ => Resolving.comesTo_pure _

/-- **Remembering changes nothing about resolving either.** -/
theorem comesTo_resolveWithin (links : Nat) :
    ∀ key, (resolveWithin types settings links key).ComesTo types settings.unspecified
      (resolveAfresh types settings links key) := by
  induction links with
  | zero => exact fun key => Resolving.comesTo_noAnswer
  | succ links ih =>
      intro key
      have hsurvey := comesTo_surveying types settings key
      rw [resolveWithin_succ, resolveAfresh]
      cases hfound : survey types settings key with
      | error refusal =>
          rw [hfound] at hsurvey
          exact hsurvey.bind_error
      | ok found =>
          rw [hfound] at hsurvey
          refine hsurvey.bind_ok ?_
          dsimp only
          cases found.type.base with
          | none =>
              exact (Resolving.comesTo_pure none).bind_ok
                (comesTo_conclude types settings found key none)
          | some base =>
              have hbase := comesTo_resolvingBase (ih base)
              dsimp only
              cases hresolved : resolveAfresh types settings links base with
              | none =>
                  rw [hresolved] at hbase
                  exact hbase.bind_none
              | some outcome =>
                  rw [hresolved] at hbase
                  exact hbase.bind_ok (comesTo_conclude types settings found key _)

end

end Interop
