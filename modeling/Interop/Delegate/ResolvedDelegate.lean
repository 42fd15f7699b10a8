/-
A delegate type with everything its bindings are written from.

All reasons to refuse a delegate for its own sake are found here, before a word is
written: what it is, how it passes its parameters, whether all types it mentions
can be described, and whether all its values can be converted both ways.

A delegate may be derived from another delegate, and then it is worth knowing
whether the other one gets bindings too, since only then is there an `invoke` to
override.  So resolving a delegate resolves its base first, and whatever the base
is refused for counts as having no base to override.  Bases are followed one by
one, and nothing keeps a base from leading back to where it came from.  So the
number of links that may be followed is given, and a chain that needs more has no
answer, which is not the same as a refusal.  A chain that ends passes each key at
most once, so as many links as there are keys are always enough for it.
-/
import Interop.Crossing
import Interop.Refusal
import Interop.Settings

namespace Interop

/-- Work on delegates.  It may describe types on the way, it may refuse, and it may have no
answer at all. -/
abbrev Resolving := ExceptT Refusal (StateT Catalogue Option)

namespace Resolving

variable {α β : Type}

/-- What work comes to on a catalogue, and the catalogue it leaves behind; `none` where it has no
answer. -/
def on (work : Resolving α) (catalogue : Catalogue) : Option (Except Refusal α × Catalogue) :=
  work.run.run catalogue

/-- Work that has no answer. -/
def noAnswer : Resolving α := ExceptT.mk (StateT.lift none)

/-- Describes; what cannot be described is refused. -/
def ofDescribing (work : Describing α) : Resolving α :=
  ExceptT.mk fun catalogue =>
    some ((work.on catalogue).1.mapError .ofDescription, (work.on catalogue).2)

/-- Decides without looking at the catalogue. -/
def ofDecision (decision : Except Refusal α) : Resolving α := ExceptT.mk (pure decision)

/-- Converts; what cannot be converted is refused. -/
def ofConversion (outcome : Except ConversionError α) : Resolving α :=
  ofDecision (outcome.mapError .conversion)

/-- Goes on without an answer where the work is refused. -/
def attempt (work : Resolving α) : Resolving (Option α) :=
  ExceptT.mk do
    let outcome ← work.run
    return .ok outcome.toOption

/-! ### What each kind of work does to the catalogue -/

theorem on_pure (value : α) (catalogue : Catalogue) :
    (pure value : Resolving α).on catalogue = some (.ok value, catalogue) := rfl

theorem on_noAnswer (catalogue : Catalogue) :
    (noAnswer : Resolving α).on catalogue = none := rfl

theorem on_ofDescribing (work : Describing α) (catalogue : Catalogue) :
    (ofDescribing work).on catalogue =
      some ((work.on catalogue).1.mapError .ofDescription, (work.on catalogue).2) := rfl

theorem on_ofDecision (decision : Except Refusal α) (catalogue : Catalogue) :
    (ofDecision decision).on catalogue = some (decision, catalogue) := rfl

theorem on_bind (work : Resolving α) (next : α → Resolving β) (catalogue : Catalogue) :
    (work >>= next).on catalogue =
      match work.on catalogue with
      | some (.ok value, after) => (next value).on after
      | some (.error refusal, after) => some (.error refusal, after)
      | none => none := by
  simp only [on, ExceptT.run_bind, StateT.run_bind]
  rcases work.run.run catalogue with _ | ⟨_ | _, _⟩ <;> rfl

theorem on_attempt (work : Resolving α) (catalogue : Catalogue) :
    (attempt work).on catalogue =
      (work.on catalogue).map fun (outcome, after) => (.ok outcome.toOption, after) := by
  simp only [on, attempt, ExceptT.run_mk, StateT.run_bind]
  rcases work.run.run catalogue with _ | ⟨_, _⟩ <;> rfl

end Resolving

/-- A delegate type, resolved for one host. -/
structure ResolvedDelegate where
  key : TypeKey
  host : Host
  description : Description
  /-- The short managed name. -/
  typeName : String
  fullTypeName : String
  /-- The name of the host's wrapper class. -/
  hostTypeName : String
  /-- The name of the class that the wrapper is derived from. -/
  hostBaseTypeName : String
  returnDescription : Description
  returnNullness : Nullness
  params : List Crossing
  signature : Signature
  /-- The signature of the base, where the base is a delegate that resolves. -/
  baseSignature : Option Signature
  deriving DecidableEq

namespace ResolvedDelegate

/-- The class that wrappers without a base type are derived from. -/
def rootTypeName : String := "DNObject"

def isReturning (delegate : ResolvedDelegate) : Bool := !delegate.returnDescription.isVoid

/-- Whether the delegate's `invoke` overrides that of its base. -/
def isOverride (delegate : ResolvedDelegate) : Bool :=
  match delegate.baseSignature with
  | some base => base.agrees delegate.signature
  | none => false

/-- The name of the type returned. -/
def returnTypeName (delegate : ResolvedDelegate) (language : Language) : String :=
  delegate.returnDescription.name (.result language delegate.returnNullness)

/-- The host's type of a closure that can stand for the delegate. -/
def closureType (delegate : ResolvedDelegate) : String :=
  let host := delegate.host.language
  Host.closureType (delegate.params.map (·.typeName host)) (delegate.returnTypeName host)

end ResolvedDelegate

/-! ### What a key has to name -/

/-- The delegate type at a key with its full name. -/
def namedDelegateAt (types : Reflection) (key : TypeKey) :
    Except Refusal (ManagedType × String) :=
  match types.get? key with
  | none => .error (.ofDescription (.unknownType key))
  | some type =>
    match type.fullName with
    | none => .error .noFullName
    | some fullName =>
      if type.shape.isDelegate then .ok (type, fullName) else .error .notADelegate

/-! ### What a signature has to be -/

/-- Whether a way of passing parameters is supported. -/
def Settings.supports (settings : Settings) : Passing → Bool
  | .byValue => true
  | .byRef => settings.features.byRefParameters
  | .readOnly | .output => false

/-- The first parameter that is passed in a way that is not supported refuses the delegate. -/
def checkPassing (settings : Settings) (params : List Param) : Except Refusal Unit :=
  match params.find? fun param => !settings.supports param.passing with
  | some param => .error (.unsupportedParameter settings.host param.passing)
  | none => .ok ()

/-- The signature of a delegate type, if bindings can be written for its form. -/
def supportedSignature (settings : Settings) (type : ManagedType) : Except Refusal Signature :=
  match type.invoke with
  | none => .error (.missingInvoke settings.host)
  | some signature => do
    if signature.returnsByRef then
      throw (.byRefReturn settings.host)
    checkPassing settings signature.params
    return signature

/-! ### What has to be converted -/

/-- Every parameter has to pass from native code to the host and back. -/
def checkParams (host : Host) : List Crossing → Except ConversionError Unit
  | [] => .ok ()
  | param :: rest => do
    discard <| param.conversion host.nativeLanguage host.language
    discard <| param.conversion host.language host.nativeLanguage
    checkParams host rest

/-- A value that is returned has to pass from the host to native code and back. -/
def checkReturn (host : Host) (description : Description) (nullness : Nullness) :
    Except ConversionError Unit := do
  if !description.isVoid then
    discard <| description.convert host.language host.nativeLanguage nullness
    discard <| description.convert host.nativeLanguage host.language nullness

/-- All conversions that the bindings of a delegate use. -/
def ResolvedDelegate.checkConversions (delegate : ResolvedDelegate) :
    Except ConversionError Unit := do
  checkParams delegate.host delegate.params
  checkReturn delegate.host delegate.returnDescription delegate.returnNullness

/-! ### Resolving -/

section

variable (types : Reflection) (settings : Settings)

/-- A parameter with its type described. -/
def crossingOf (param : Param) : Describing Crossing := do
  let description ← describe types settings.unspecified param.type
  return {
    name := param.name
    description
    passing := param.passing
    nullness :=
      param.nullability.settleMember settings.unspecified description.defaultNullability }

/-- A base type: the name of its wrapper class, and its signature if it resolves. -/
def resolveBase (resolve : TypeKey → Resolving ResolvedDelegate) :
    Option TypeKey → Resolving (String × Option Signature)
  | none => return (ResolvedDelegate.rootTypeName, none)
  | some base => do
    let description ← Resolving.ofDescribing (describe types settings.unspecified base)
    let resolved ← Resolving.attempt (resolve base)
    return (description.baseName settings.host.language, resolved.map (·.signature))

/-- Resolves a delegate and the delegates it is derived from, along so many links of the chain at
most. -/
def resolveWithin : Nat → TypeKey → Resolving ResolvedDelegate
  | 0, _ => Resolving.noAnswer
  | links + 1, key => do
    let (type, _) ← Resolving.ofDecision (namedDelegateAt types key)
    let signature ← Resolving.ofDecision (supportedSignature settings type)
    let description ← Resolving.ofDescribing (describe types settings.unspecified key)
    let returnDescription ←
      Resolving.ofDescribing (describe types settings.unspecified signature.returnType)
    let params ← Resolving.ofDescribing (signature.params.mapM (crossingOf types settings))
    let (hostBaseTypeName, baseSignature) ←
      resolveBase types settings (resolveWithin links) type.base
    let delegate : ResolvedDelegate := {
      key
      host := settings.host
      description
      typeName := type.name
      fullTypeName := description.fullName
      hostTypeName := description.baseName settings.host.language
      hostBaseTypeName
      returnDescription
      returnNullness := signature.returnNullability.settleMember settings.unspecified
        returnDescription.defaultNullability
      params
      signature
      baseSignature }
    Resolving.ofConversion delegate.checkConversions
    return delegate

/-- Resolves a delegate.  There is no answer where its chain of bases never ends. -/
def resolve (key : TypeKey) : Resolving ResolvedDelegate :=
  resolveWithin types settings (types.keys.length + 1) key

end

end Interop
