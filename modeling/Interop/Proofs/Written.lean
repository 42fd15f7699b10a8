/-
What finished bindings were written from.

Bindings are mostly text, and what holds of a text is seen best from the parts that
it was put together from.  So each step of writing is turned round here once: from
what it gave to the parts it was given.  The last step leads from the bindings of a
type back to its delegate, and from there to what reflection and the native layer
say of it.
-/
import Interop.Proofs.Requirements

namespace Interop

/-! ### Members -/

section

variable {delegate : ResolvedDelegate} {symbols : NativeSymbols}

theorem Callback.creator_eq_ok {factory : CallableFactory}
    (h : Callback.creator delegate symbols = .ok factory) :
    ∃ arrivals calling,
      Crossing.arrive delegate.host.nativeLanguage delegate.host.language delegate.host.language
        (reservedNames delegate.host) delegate.params = .ok arrivals ∧
      callSteps delegate symbols (callText arrivals) = .ok calling ∧
      factory = Callback.factory delegate.host creatorName symbols.functionType
        (bodySteps delegate symbols arrivals calling) := by
  obtain ⟨arrivals, harrivals, h⟩ := bind_eq_ok h
  obtain ⟨calling, hcalling, h⟩ := bind_eq_ok h
  cases h
  exact ⟨arrivals, calling, harrivals, hcalling, rfl⟩

theorem Invocation.ofDelegate_eq_ok {invocation : Invocation}
    (h : Invocation.ofDelegate delegate symbols = .ok invocation) :
    ∃ arrivals result,
      Crossing.arrive delegate.host.language delegate.host.nativeLanguage delegate.host.language
        reservedNames delegate.params = .ok arrivals ∧
      resultSteps delegate = .ok result ∧
      invocation = {
        isOverride := delegate.isOverride
        nativeFunction := symbols.invokeFunction
        nativeArguments := argumentsFor delegate.host arrivals
        isReturning := delegate.isReturning
        text := delegate.host.functionText
          (declaration delegate (bodySteps delegate symbols arrivals result)) } := by
  obtain ⟨arrivals, harrivals, h⟩ := bind_eq_ok h
  obtain ⟨result, hresult, h⟩ := bind_eq_ok h
  cases h
  exact ⟨arrivals, result, harrivals, hresult, rfl⟩

/-! ### Wrappers -/

namespace Wrapper

/-- The bindings are those of a delegate over its declarations. -/
structure WrittenFor (wrapper : Wrapper) (delegate : ResolvedDelegate) (symbols : NativeSymbols) :
    Prop where
  key : wrapper.key = delegate.key
  fullTypeName : wrapper.fullTypeName = delegate.fullTypeName
  createCallable : Callback.creator delegate symbols = .ok wrapper.createCallable
  createDestructor : wrapper.createDestructor = Callback.destructorCreator delegate symbols
  invoke : Invocation.ofDelegate delegate symbols = .ok wrapper.invoke

theorem ofDelegate_eq_ok {wrapper : Wrapper}
    (h : Wrapper.ofDelegate delegate symbols = .ok wrapper) :
    wrapper.WrittenFor delegate symbols := by
  obtain ⟨creator, hcreator, h⟩ := bind_eq_ok h
  obtain ⟨invocation, hinvocation, h⟩ := bind_eq_ok h
  cases h
  exact ⟨rfl, rfl, hcreator, rfl, hinvocation⟩

theorem conclude_eq_ok {wrapper : Wrapper}
    (h : Wrapper.conclude delegate symbols = .ok wrapper) :
    symbols.cTypeName = delegate.description.cTypeName ∧ wrapper.WrittenFor delegate symbols := by
  obtain ⟨_, hchecked, h⟩ := bind_eq_ok h
  refine ⟨?_, ofDelegate_eq_ok (mapError_eq_ok h)⟩
  unfold checkNativeLayer at hchecked
  split at hchecked
  · assumption
  · cases hchecked

/-- The names of the native declarations that the members mention. -/
theorem WrittenFor.symbols_eq {wrapper : Wrapper} (h : wrapper.WrittenFor delegate symbols) :
    wrapper.createCallable.returnType = symbols.functionType ∧
      wrapper.createDestructor.returnType = symbols.destructorFunctionType ∧
      wrapper.invoke.nativeFunction = symbols.invokeFunction := by
  obtain ⟨_, _, -, -, hcallable⟩ := Callback.creator_eq_ok h.createCallable
  obtain ⟨_, _, -, -, hinvoke⟩ := Invocation.ofDelegate_eq_ok h.invoke
  rw [hcallable, h.createDestructor, hinvoke]
  exact ⟨rfl, rfl, rfl⟩

theorem WrittenFor.isOverride_eq {wrapper : Wrapper} (h : wrapper.WrittenFor delegate symbols) :
    wrapper.invoke.isOverride = delegate.isOverride := by
  obtain ⟨_, _, -, -, hinvoke⟩ := Invocation.ofDelegate_eq_ok h.invoke
  rw [hinvoke]

theorem WrittenFor.isReturning_eq {wrapper : Wrapper} (h : wrapper.WrittenFor delegate symbols) :
    wrapper.invoke.isReturning = delegate.isReturning := by
  obtain ⟨_, _, -, -, hinvoke⟩ := Invocation.ofDelegate_eq_ok h.invoke
  rw [hinvoke]

end Wrapper

end

/-! ### Types with bindings -/

section

variable {types : Reflection} {settings : Settings} {native : NativeLayer} {key : TypeKey}

/-- A parameter is described by the description of its type. -/
theorem crossingAfresh_eq_ok {param : Param} {crossing : Crossing}
    (h : crossingAfresh types settings param = .ok crossing) :
    ∃ description, describeAfresh types settings.unspecified param.type = .ok description ∧
      crossing = crossingWith settings param description := by
  unfold crossingAfresh at h
  cases hdescribed : describeAfresh types settings.unspecified param.type with
  | error error =>
      rw [hdescribed] at h
      cases h
  | ok description =>
      rw [hdescribed] at h
      cases h
      exact ⟨description, rfl, rfl⟩

/-- Parameters that are described are those of the signature. -/
theorem exists_param_of_mem {params : List Param} {crossings : List Crossing}
    (h : params.mapM (crossingAfresh types settings) = .ok crossings) {crossing : Crossing}
    (hcrossing : crossing ∈ crossings) :
    ∃ param ∈ params, ∃ description,
      describeAfresh types settings.unspecified param.type = .ok description ∧
        crossing = crossingWith settings param description := by
  obtain ⟨param, hparam, hmade⟩ := exists_of_forall₂ (mapM_eq_ok_iff.mp h).flip hcrossing
  exact ⟨param, hparam, crossingAfresh_eq_ok hmade⟩

/-- Parameters keep their names when their types are described. -/
theorem map_name_of_crossingAfresh {params : List Param} {crossings : List Crossing}
    (h : params.mapM (crossingAfresh types settings) = .ok crossings) :
    params.map (·.name) = crossings.map (·.name) := by
  rw [← List.forall₂_eq_eq_eq, List.forall₂_map_left_iff, List.forall₂_map_right_iff]
  refine (mapM_eq_ok_iff.mp h).imp fun param crossing hcrossing => ?_
  obtain ⟨description, -, rfl⟩ := crossingAfresh_eq_ok hcrossing
  rfl

theorem survey_paramNames {found : Survey} (hsurvey : survey types settings key = .ok found) :
    found.signature.params.map (·.name) = found.params.map (·.name) := by
  obtain ⟨-, -, -, -, -, hparams⟩ := survey_eq_ok hsurvey
  exact map_name_of_crossingAfresh hparams

/-- A delegate that resolves was surveyed, and what it knows of its base is what resolving the base
gave. -/
theorem resolveAfresh_succ_eq_ok {links : Nat} {delegate : ResolvedDelegate}
    (h : resolveAfresh types settings (links + 1) key = some (.ok delegate)) :
    ∃ found baseSignature, survey types settings key = .ok found ∧
      delegate = found.delegate settings key baseSignature ∧
      delegate.checkConversions = .ok () ∧
      (found.type.base = none → baseSignature = none) ∧
      ∀ base, found.type.base = some base →
        ∃ outcome, resolveAfresh types settings links base = some outcome ∧
          baseSignature = outcome.toOption.map (·.signature) := by
  rw [resolveAfresh] at h
  cases hsurvey : survey types settings key with
  | error refusal =>
      rw [hsurvey] at h
      cases h
  | ok found =>
      rw [hsurvey] at h
      dsimp only at h
      cases hbase : found.type.base with
      | none =>
          rw [hbase] at h
          obtain ⟨hdelegate, hchecked⟩ := conclude_eq_ok (Option.some.inj h)
          exact ⟨found, none, rfl, hdelegate, hchecked, fun _ => rfl, by simp [hbase]⟩
      | some base =>
          rw [hbase] at h
          obtain ⟨outcome, houtcome, h⟩ := Option.map_eq_some_iff.mp h
          obtain ⟨hdelegate, hchecked⟩ := conclude_eq_ok h
          refine ⟨found, _, rfl, hdelegate, hchecked, by simp [hbase], ?_⟩
          intro other hother
          cases hbase.symm.trans hother
          exact ⟨outcome, houtcome, rfl⟩

/-- A type with bindings is a named delegate with declarations of its own, it resolves, and its
bindings are written for what it resolves to. -/
theorem wrapAfresh_eq_ok {wrapper : Wrapper}
    (h : wrapAfresh types settings native key = some (.ok wrapper)) :
    ∃ type fullName symbols delegate,
      namedDelegateAt types key = .ok (type, fullName) ∧
      native.get? key = some symbols ∧
      resolveAfresh types settings (types.keys.length + 1) key = some (.ok delegate) ∧
      symbols.cTypeName = Identifier.ofFullName fullName ∧
      wrapper.key = key ∧ wrapper.fullTypeName = fullName ∧
      wrapper.WrittenFor delegate symbols := by
  unfold wrapAfresh at h
  cases hnamed : namedDelegateAt types key with
  | error refusal =>
      rw [hnamed] at h
      cases h
  | ok named =>
      obtain ⟨type, fullName⟩ := named
      rw [hnamed] at h
      dsimp only at h
      unfold Wrapper.nativeSymbols at h
      cases hsymbols : native.get? key with
      | none =>
          rw [hsymbols] at h
          cases h
      | some symbols =>
          rw [hsymbols] at h
          obtain ⟨outcome, hresolved, h⟩ := Option.map_eq_some_iff.mp h
          cases outcome with
          | error refusal => cases h
          | ok delegate =>
              obtain ⟨hname, hwritten⟩ := Wrapper.conclude_eq_ok h
              obtain ⟨found, _, hsurvey, rfl, -⟩ := resolveAfresh_succ_eq_ok hresolved
              obtain ⟨-, hfull, hc⟩ := survey_names hsurvey hnamed
              exact ⟨type, fullName, symbols, _, rfl, rfl, hresolved, hname.trans hc,
                hwritten.key, hwritten.fullTypeName.trans hfull, hwritten⟩

/-- Whatever was requested before, bindings are those that are written from nothing. -/
theorem wrapAfresh_of_on {catalogue after : Catalogue} {outcome : Except Refusal Wrapper}
    (hreached : catalogue.Reached types settings.unspecified)
    (h : (wrap types settings native key).on catalogue = some (outcome, after)) :
    wrapAfresh types settings native key = some outcome :=
  ((comesTo_wrap types settings native key).answers.of_run hreached h).1

/-- And those are written whatever was requested before. -/
theorem exists_on_of_wrapAfresh {catalogue : Catalogue} {outcome : Except Refusal Wrapper}
    (hreached : catalogue.Reached types settings.unspecified)
    (h : wrapAfresh types settings native key = some outcome) :
    ∃ after, (wrap types settings native key).on catalogue = some (outcome, after) := by
  have hcomes := comesTo_wrap types settings native key catalogue hreached
  rw [h] at hcomes
  obtain ⟨after, -, hon⟩ := hcomes
  exact ⟨after, hon⟩

/-- Whatever was requested before, what resolves is what resolves from nothing. -/
theorem resolveAfresh_of_on {catalogue after : Catalogue}
    {outcome : Except Refusal ResolvedDelegate}
    (hreached : catalogue.Reached types settings.unspecified)
    (h : (resolve types settings key).on catalogue = some (outcome, after)) :
    resolveAfresh types settings (types.keys.length + 1) key = some outcome :=
  ((comesTo_resolveWithin types settings _ key).answers.of_run hreached h).1

/-- Resolving from an empty catalogue is resolving from nothing. -/
theorem exists_on_empty_iff {delegate : ResolvedDelegate} :
    (∃ after, (resolve types settings key).on .empty = some (.ok delegate, after)) ↔
      resolveAfresh types settings (types.keys.length + 1) key = some (.ok delegate) := by
  constructor
  · rintro ⟨after, h⟩
    exact resolveAfresh_of_on Catalogue.reached_empty h
  · intro h
    have hcomes := comesTo_resolveWithin types settings (types.keys.length + 1) key _
      Catalogue.reached_empty
    rw [h] at hcomes
    obtain ⟨after, -, hon⟩ := hcomes
    exact ⟨after, hon⟩

/-- Everything that the bindings of a type were made from: what reflection says of the type and of
what it returns, its declarations in the native layer, and what it resolves to. -/
structure Wrapper.MadeFrom (wrapper : Wrapper) (types : Reflection) (settings : Settings)
    (native : NativeLayer) (key : TypeKey) (type : ManagedType) (signature : Signature)
    (returned : ManagedType) (symbols : NativeSymbols) (delegate : ResolvedDelegate) : Prop where
  type_eq : types.get? key = some type
  signature_eq : type.invoke = some signature
  returned_eq : types.get? signature.returnType = some returned
  symbols_eq : native.get? key = some symbols
  /-- The declarations are those of the type's own name. -/
  name_eq : ∃ fullName, type.fullName = some fullName ∧
    symbols.cTypeName = Identifier.ofFullName fullName
  /-- The delegate is what resolving comes to with nothing requested before. -/
  resolved : ∃ left, (resolve types settings key).on .empty = some (.ok delegate, left)
  host_eq : delegate.host = settings.host
  /-- Its parameters are those of the signature, in order. -/
  params_eq : signature.params.mapM (crossingAfresh types settings) = .ok delegate.params
  /-- And so is what it returns. -/
  result_eq : describeAfresh types settings.unspecified signature.returnType =
    .ok delegate.returnDescription
  written : wrapper.WrittenFor delegate symbols

/-- Whatever was requested before, bindings are made from something. -/
theorem exists_madeFrom {catalogue after : Catalogue} {wrapper : Wrapper}
    (hreached : catalogue.Reached types settings.unspecified)
    (h : (wrap types settings native key).on catalogue = some (.ok wrapper, after)) :
    ∃ type signature returned symbols delegate,
      wrapper.MadeFrom types settings native key type signature returned symbols delegate := by
  obtain ⟨type, fullName, symbols, delegate, hnamed, hsymbols, hresolved, hname, -, -, hwritten⟩ :=
    wrapAfresh_eq_ok (wrapAfresh_of_on hreached h)
  obtain ⟨found, baseSignature, hsurvey, rfl, -⟩ := resolveAfresh_succ_eq_ok hresolved
  obtain ⟨rfl, -⟩ := survey_names hsurvey hnamed
  obtain ⟨-, -, hsigned, -, hresult, hparams⟩ := survey_eq_ok hsurvey
  obtain ⟨htype, hfull, -⟩ := namedDelegateAt_eq_ok hnamed
  obtain ⟨returned, _, _, hreturned, -⟩ := describeAlong_eq_ok hresult
  exact ⟨found.type, found.signature, returned, symbols, _,
    { type_eq := htype
      signature_eq := invoke_of_supportedSignature hsigned
      returned_eq := hreturned
      symbols_eq := hsymbols
      name_eq := ⟨fullName, hfull, hname⟩
      resolved := exists_on_empty_iff.mpr hresolved
      host_eq := rfl
      params_eq := hparams
      result_eq := hresult
      written := hwritten }⟩

namespace Wrapper

variable {wrapper : Wrapper} {type returned : ManagedType} {signature : Signature}
  {symbols : NativeSymbols} {delegate : ResolvedDelegate}

theorem MadeFrom.paramNames (h : wrapper.MadeFrom types settings native key type signature returned
    symbols delegate) : delegate.params.map (·.name) = signature.params.map (·.name) :=
  (map_name_of_crossingAfresh h.params_eq).symm

/-- How the result travels is decided by the shape of its type. -/
theorem MadeFrom.category_eq (h : wrapper.MadeFrom types settings native key type signature
    returned symbols delegate) : delegate.returnDescription.category = .ofShape returned.shape := by
  obtain ⟨found, _, _, hfound, -, -, -, hbuilt⟩ := describeAlong_eq_ok h.result_eq
  cases hfound.symm.trans h.returned_eq
  rw [hbuilt, Description.category_build]

/-- A delegate returns something unless its signature says void. -/
theorem MadeFrom.isReturning_iff (h : wrapper.MadeFrom types settings native key type signature
    returned symbols delegate) : delegate.isReturning = true ↔ returned.shape ≠ .void := by
  rw [ResolvedDelegate.isReturning, Description.isVoid, h.category_eq]
  cases returned.shape <;> simp [Category.ofShape, Category.isVoid]

end Wrapper

/-- Whether work came to a result can be told from the outside. -/
theorem exists_ok_of_isOk {α : Type} {run : Option (Except Refusal α × Catalogue)}
    (h : run.any (fun (outcome, _) => outcome.isOk) = true) :
    ∃ value after, run = some (.ok value, after) := by
  obtain ⟨⟨outcome, after⟩, hrun, hok⟩ := (Option.any_eq_true _ _).mp h
  cases outcome with
  | error refusal => cases hok
  | ok value => exact ⟨value, after, hrun⟩

end

end Interop
