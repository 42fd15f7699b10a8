/-
What a type has to meet to get bindings, and in which order it is asked.

Ten requirements are spread over finding the type, finding its declarations,
resolving it and comparing names.  Each is said here on its own, from reflection,
the settings and the native layer alone, with the refusal of a type that does not
meet it.  A requirement about something that an earlier one asks for has nothing
to object to where that is missing.

The first objection is what writing the bindings comes to, and where there is none
there are bindings.  The steps are taken one by one: what is surveyed before the
base is resolved, what is concluded after it, and what is written last, which
cannot fail any more.
-/
import Interop.Managed.TypeStore
import Interop.Proofs.Checked
import Interop.Proofs.Isolation

namespace Interop

/-! ### The requirements -/

/-- What is asked of a type before there are bindings of it. -/
inductive Requirement where
  /-- Reflection knows the type. -/
  | known
  /-- It has a full name. -/
  | named
  /-- It is a delegate. -/
  | delegate
  /-- The native layer has declarations for it. -/
  | declared
  /-- It has a signature. -/
  | signed
  /-- What it returns is not returned by reference. -/
  | returning
  /-- Its parameters are passed by value, or by reference where that is switched on. -/
  | passing
  /-- The types of its signature and its base can be described. -/
  | describable
  /-- All values that cross the boundary can be converted both ways. -/
  | convertible
  /-- The declarations of the native layer are its own. -/
  | matching
  deriving DecidableEq, Repr

namespace Requirement

/-- The requirements, the one that is asked first at the front. -/
def inOrder : List Requirement :=
  [known, named, delegate, declared, signed, returning, passing, describable, convertible,
    matching]

theorem mem_inOrder (requirement : Requirement) : requirement ∈ inOrder := by
  cases requirement <;> decide

end Requirement

/-- The types that a delegate's bindings mention, in the order in which they are described. -/
def mentioned (type : ManagedType) (signature : Signature) : List TypeKey :=
  signature.returnType :: signature.params.map (·.type) ++ type.base.toList

section

variable (types : Reflection) (settings : Settings) (native : NativeLayer) (key : TypeKey)

namespace Requirement

/-- The refusal of a type that does not meet a requirement. -/
def objection : Requirement → Option Refusal
  | known =>
    if (types.get? key).isSome then none else some (.unresolvableType (.unknownType key))
  | named => do
    let type ← types.get? key
    if type.fullName.isSome then none else some .noFullName
  | delegate => do
    let type ← types.get? key
    if type.shape = .delegate then none else some .notADelegate
  | declared => do
    let type ← types.get? key
    let fullName ← type.fullName
    if (native.get? key).isSome then none else some (.missingNativeLayer fullName)
  | signed => do
    let type ← types.get? key
    if type.invoke.isSome then none else some (.missingInvoke settings.host)
  | returning => do
    let type ← types.get? key
    let signature ← type.invoke
    if signature.returnsByRef then some (.byRefReturn settings.host) else none
  | passing => do
    let type ← types.get? key
    let signature ← type.invoke
    let param ← signature.params.find? fun param =>
      ¬(param.passing = .byValue ∨
        param.passing = .byRef ∧ settings.features.byRefParameters = true)
    return .unsupportedParameter settings.host param.passing
  | describable => do
    let type ← types.get? key
    let signature ← type.invoke
    let error ← firstError?
      ((mentioned type signature).map (describeAfresh types settings.unspecified))
    return .ofDescription error
  | convertible => do
    let type ← types.get? key
    let signature ← type.invoke
    let params ← (signature.params.mapM (crossingAfresh types settings)).toOption
    let returned ← (describeAfresh types settings.unspecified signature.returnType).toOption
    let error ← firstError?
      (params.flatMap (Crossing.outcomes settings.host) ++
        returnOutcomes settings.host returned
          (signature.returnNullability.settleMember settings.unspecified
            returned.defaultNullability))
    return .conversion error
  | matching => do
    let type ← types.get? key
    let fullName ← type.fullName
    let symbols ← native.get? key
    if symbols.cTypeName = Identifier.ofFullName fullName then none
    else some (.nativeLayerMismatch fullName (Identifier.ofFullName fullName) symbols.cTypeName)

end Requirement

end

/-! ### What is found at the key -/

section

variable {types : Reflection} {settings : Settings} {native : NativeLayer} {key : TypeKey}
  {type : ManagedType} {fullName : String} {signature : Signature}

open Requirement

variable (types settings native key) in
theorem error?_namedDelegateAt :
    error? (namedDelegateAt types key) =
      [known, named, delegate].findSome? (objection types settings native key) := by
  unfold namedDelegateAt
  cases htype : types.get? key with
  | none => simp [objection, htype, Refusal.ofDescription]
  | some type =>
      cases hname : type.fullName with
      | none => simp [objection, htype, hname]
      | some fullName =>
          by_cases hshape : type.shape = .delegate
          · simp [objection, htype, hname, hshape, Shape.isDelegate]
          · have hother : ¬type.shape.isDelegate = true := fun h =>
              hshape (Shape.isDelegate_iff.mp h)
            simp [objection, htype, hname, hshape, hother]

/-- A named delegate has no parts, so it can always be described itself. -/
theorem describeAfresh_of_named (unspecified : Nullness)
    (h : namedDelegateAt types key = .ok (type, fullName)) :
    describeAfresh types unspecified key =
      .ok (Description.build unspecified key type fullName []) := by
  obtain ⟨htype, hname, hshape⟩ := namedDelegateAt_eq_ok h
  rw [describeAfresh, describeAlong_of_named htype List.not_mem_nil hname, hshape]
  rfl

/-! ### What is asked of its signature -/

variable (settings) in
/-- The ways of passing that are supported are those that the requirement names. -/
theorem supports_iff (passing : Passing) :
    settings.supports passing = true ↔
      passing = .byValue ∨ passing = .byRef ∧ settings.features.byRefParameters = true := by
  cases passing <;> simp [Settings.supports]

variable (settings) in
theorem error?_checkPassing (params : List Param) :
    error? (checkPassing settings params) =
      (params.find? fun param =>
        ¬(param.passing = .byValue ∨
          param.passing = .byRef ∧ settings.features.byRefParameters = true)).map
        fun param => .unsupportedParameter settings.host param.passing := by
  have hsame : (fun param : Param => !settings.supports param.passing) = fun param =>
      decide ¬(param.passing = .byValue ∨
        param.passing = .byRef ∧ settings.features.byRefParameters = true) := by
    funext param
    simp [← supports_iff]
  rw [checkPassing, hsame]
  cases params.find? _ <;> rfl

variable (settings) in
theorem supportedSignature_of_invoke (h : type.invoke = some signature) :
    supportedSignature settings type =
      if signature.returnsByRef then .error (.byRefReturn settings.host)
      else (checkPassing settings signature.params).map fun _ => signature := by
  rw [supportedSignature, h]
  dsimp only
  cases signature.returnsByRef with
  | true => rfl
  | false => cases checkPassing settings signature.params <;> rfl

variable (settings native) in
theorem objection_passing (htype : types.get? key = some type)
    (hinvoke : type.invoke = some signature) :
    objection types settings native key passing =
      error? (checkPassing settings signature.params) := by
  rw [error?_checkPassing, Option.map_eq_bind]
  simp only [objection, htype, hinvoke, Option.bind_eq_bind, Option.bind_some]
  rfl

variable (settings native) in
theorem error?_supportedSignature (htype : types.get? key = some type) :
    error? (supportedSignature settings type) =
      [signed, returning, passing].findSome? (objection types settings native key) := by
  cases hinvoke : type.invoke with
  | none => simp [objection, supportedSignature, htype, hinvoke]
  | some signature =>
      rw [supportedSignature_of_invoke settings hinvoke]
      cases hreturns : signature.returnsByRef with
      | true => simp [objection, htype, hinvoke, hreturns]
      | false =>
          have hsigned : objection types settings native key signed = none := by
            simp [objection, htype, hinvoke]
          have hreturning : objection types settings native key returning = none := by
            simp [objection, htype, hinvoke, hreturns]
          simp only [List.findSome?_cons, List.findSome?_nil, hsigned, hreturning,
            objection_passing settings native htype hinvoke]
          cases checkPassing settings signature.params <;> rfl

/-- A signature that is supported is there, and all its parts are. -/
theorem supportedSignature_eq_ok (h : supportedSignature settings type = .ok signature) :
    type.invoke = some signature ∧ signature.returnsByRef = false ∧
      checkPassing settings signature.params = .ok () := by
  cases hinvoke : type.invoke with
  | none =>
      rw [supportedSignature, hinvoke] at h
      cases h
  | some found =>
      rw [supportedSignature_of_invoke settings hinvoke] at h
      split at h
      · cases h
      · rename_i hreturns
        cases hpassing : checkPassing settings found.params with
        | error refusal => rw [hpassing] at h; cases h
        | ok _ =>
            rw [hpassing] at h
            cases h
            exact ⟨rfl, by simpa using hreturns, hpassing⟩

theorem invoke_of_supportedSignature (h : supportedSignature settings type = .ok signature) :
    type.invoke = some signature :=
  (supportedSignature_eq_ok h).1

theorem supports_of_checkPassing {params : List Param}
    (h : checkPassing settings params = .ok ()) :
    ∀ param ∈ params, settings.supports param.passing = true := by
  unfold checkPassing at h
  split at h
  · cases h
  · rename_i hnone
    intro param hparam
    simpa using List.find?_eq_none.mp hnone param hparam

/-! ### What is surveyed -/

theorem error?_crossingAfresh (param : Param) :
    error? (crossingAfresh types settings param) =
      error? (describeAfresh types settings.unspecified param.type) :=
  error?_map ..

theorem error?_describeBase (base : Option TypeKey) :
    error? (describeBase types settings base) =
      firstError? (base.toList.map (describeAfresh types settings.unspecified)) := by
  cases base with
  | none => rfl
  | some base =>
      rw [describeBase, error?_map]
      simp

variable (types settings) in
/-- The first error of the types mentioned is that of the result, the parameters or the base. -/
theorem firstError?_mentioned (type : ManagedType) (signature : Signature) :
    firstError? ((mentioned type signature).map (describeAfresh types settings.unspecified)) =
      (error? (describeAfresh types settings.unspecified signature.returnType)).or
        ((error? (signature.params.mapM (crossingAfresh types settings))).or
          (error? (describeBase types settings type.base))) := by
  have hparams : firstError? (signature.params.map (crossingAfresh types settings)) =
      firstError?
        ((signature.params.map (·.type)).map (describeAfresh types settings.unspecified)) := by
    unfold firstError?
    rw [List.map_map, List.findSome?_map, List.findSome?_map]
    exact congrArg (List.findSome? · _) (funext error?_crossingAfresh)
  rw [error?_mapM, hparams, error?_describeBase, ← firstError?_append, ← List.map_append,
    ← firstError?_cons, ← List.map_cons]
  rfl

variable (settings native) in
theorem objection_describable (htype : types.get? key = some type)
    (hinvoke : type.invoke = some signature) :
    objection types settings native key describable =
      (firstError?
        ((mentioned type signature).map (describeAfresh types settings.unspecified))).map
        .ofDescription := by
  rw [Option.map_eq_bind]
  simp only [objection, htype, hinvoke, Option.bind_eq_bind, Option.bind_some]
  rfl

variable (settings native) in
/-- A survey of a named delegate fails where its signature is not supported or something cannot be
described. -/
theorem error?_survey (hnamed : namedDelegateAt types key = .ok (type, fullName)) :
    error? (survey types settings key) =
      [signed, returning, passing, describable].findSome?
        (objection types settings native key) := by
  have htype := (namedDelegateAt_eq_ok hnamed).1
  show _ = ([signed, returning, passing] ++ [describable]).findSome? _
  rw [List.findSome?_append, ← error?_supportedSignature settings native htype, survey, hnamed,
    ok_bind]
  dsimp only
  cases hsigned : supportedSignature settings type with
  | error refusal => rfl
  | ok signature =>
      have hinvoke := invoke_of_supportedSignature hsigned
      rw [ok_bind, describeAfresh_of_named settings.unspecified hnamed, error?_ok, Option.none_or,
        List.findSome?_singleton, objection_describable settings native htype hinvoke,
        firstError?_mentioned]
      cases describeAfresh types settings.unspecified signature.returnType with
      | error error => rfl
      | ok returned =>
          cases signature.params.mapM (crossingAfresh types settings) with
          | error error => rfl
          | ok params => cases describeBase types settings type.base <;> rfl

variable (native) in
/-- A base is resolved if nothing objects to its delegate before. -/
theorem baseToResolve_eq_some_iff {base : TypeKey} :
    baseToResolve types settings key = some base ↔
      ∃ type fullName, namedDelegateAt types key = .ok (type, fullName) ∧
        type.base = some base ∧
        [signed, returning, passing, describable].findSome?
          (objection types settings native key) = none := by
  unfold baseToResolve
  constructor
  · intro h
    cases hsurvey : survey types settings key with
    | error refusal => rw [hsurvey] at h; cases h
    | ok found =>
        rw [hsurvey] at h
        obtain ⟨fullName, hnamed, -⟩ := survey_eq_ok hsurvey
        refine ⟨found.type, fullName, hnamed, h, ?_⟩
        rw [← error?_survey settings native hnamed, hsurvey, error?_ok]
  · rintro ⟨type, fullName, hnamed, hbase, hnone⟩
    rw [← error?_survey settings native hnamed] at hnone
    obtain ⟨found, hsurvey⟩ := error?_eq_none_iff.mp hnone
    obtain ⟨name, hfound, -⟩ := survey_eq_ok hsurvey
    cases hnamed.symm.trans hfound
    rw [hsurvey]
    exact hbase

/-- A delegate type is described under its own name. -/
theorem survey_names {found : Survey} (hsurvey : survey types settings key = .ok found)
    (hnamed : namedDelegateAt types key = .ok (type, fullName)) :
    found.type = type ∧ found.description.fullName = fullName ∧
      found.description.cTypeName = Identifier.ofFullName fullName := by
  obtain ⟨name, hfound, -, hown, -⟩ := survey_eq_ok hsurvey
  cases hnamed.symm.trans hfound
  obtain ⟨-, -, hshape⟩ := namedDelegateAt_eq_ok hnamed
  rw [describeAfresh_of_named settings.unspecified hnamed] at hown
  rw [← Except.ok.inj hown]
  simp [Description.buildFullName, Description.buildCTypeName, hshape]

/-! ### What is concluded -/

variable (native) in
theorem objection_convertible {params : List Crossing} {returned : Description}
    (htype : types.get? key = some type) (hinvoke : type.invoke = some signature)
    (hparams : signature.params.mapM (crossingAfresh types settings) = .ok params)
    (hreturned : describeAfresh types settings.unspecified signature.returnType = .ok returned) :
    objection types settings native key convertible =
      (firstError?
        (params.flatMap (Crossing.outcomes settings.host) ++
          returnOutcomes settings.host returned
            (signature.returnNullability.settleMember settings.unspecified
              returned.defaultNullability))).map .conversion := by
  rw [Option.map_eq_bind]
  simp only [objection, htype, hinvoke, hparams, hreturned, Except.toOption, Option.bind_eq_bind,
    Option.bind_some]
  rfl

variable (native) in
theorem error?_conclude {found : Survey} (hsurvey : survey types settings key = .ok found)
    (baseSignature : Option Signature) :
    error? (found.conclude settings key baseSignature) =
      objection types settings native key convertible := by
  obtain ⟨fullName, hnamed, hsigned, -, hreturn, hparams⟩ := survey_eq_ok hsurvey
  have hconvertible : objection types settings native key convertible =
      (firstError? (found.delegate settings key baseSignature).outcomes).map .conversion :=
    objection_convertible native (namedDelegateAt_eq_ok hnamed).1
      (invoke_of_supportedSignature hsigned) hparams hreturn
  rw [hconvertible, ← error?_checkConversions, Survey.conclude]
  cases (found.delegate settings key baseSignature).checkConversions <;> rfl

/-- A delegate that resolves was surveyed, and its conversions were checked. -/
theorem conclude_eq_ok {found : Survey} {baseSignature : Option Signature}
    {delegate : ResolvedDelegate} (h : found.conclude settings key baseSignature = .ok delegate) :
    delegate = found.delegate settings key baseSignature ∧
      delegate.checkConversions = .ok () := by
  unfold Survey.conclude at h
  obtain ⟨_, hchecked, h⟩ := bind_eq_ok h
  cases h
  exact ⟨rfl, mapError_eq_ok hchecked⟩

/-- What is left to object to once the delegate is resolved is the name of the declarations. -/
theorem error?_concludeWrapper {found : Survey} {baseSignature : Option Signature}
    {delegate : ResolvedDelegate} {symbols : NativeSymbols}
    (hsurvey : survey types settings key = .ok found)
    (hconclude : found.conclude settings key baseSignature = .ok delegate)
    (hsymbols : native.get? key = some symbols) :
    error? (Wrapper.conclude delegate symbols) =
      objection types settings native key matching := by
  obtain ⟨fullName, hnamed, -⟩ := survey_eq_ok hsurvey
  obtain ⟨hdelegate, hchecked⟩ := conclude_eq_ok hconclude
  obtain ⟨htype, hname, -⟩ := namedDelegateAt_eq_ok hnamed
  obtain ⟨-, hdescribed, hspelled⟩ := survey_names hsurvey hnamed
  have hfull : delegate.fullTypeName = fullName := by
    rw [hdelegate]
    exact hdescribed
  have hc : delegate.description.cTypeName = Identifier.ofFullName fullName := by
    rw [hdelegate]
    exact hspelled
  obtain ⟨wrapper, hwrapper⟩ := exists_wrapper hchecked symbols
  unfold Wrapper.conclude Wrapper.checkNativeLayer
  rw [hfull, hc, hwrapper]
  simp only [objection, htype, hname, hsymbols, Option.bind_eq_bind, Option.bind_some]
  by_cases hmatch : symbols.cTypeName = Identifier.ofFullName fullName
  · rw [if_pos hmatch, if_pos hmatch]
    rfl
  · rw [if_neg hmatch, if_neg hmatch]
    rfl

/-! ### One requirement after another -/

/-- Resolving comes to what the survey comes to, or to what is concluded from it. -/
theorem resolveAfresh_eq_some {links : Nat} {outcome : Except Refusal ResolvedDelegate}
    (h : resolveAfresh types settings links key = some outcome) :
    (∃ refusal, survey types settings key = .error refusal ∧ outcome = .error refusal) ∨
      ∃ found baseSignature, survey types settings key = .ok found ∧
        outcome = found.conclude settings key baseSignature := by
  cases links with
  | zero => cases h
  | succ links =>
      rw [resolveAfresh] at h
      cases hsurvey : survey types settings key with
      | error refusal =>
          rw [hsurvey] at h
          exact .inl ⟨refusal, rfl, (Option.some.inj h).symm⟩
      | ok found =>
          rw [hsurvey] at h
          dsimp only at h
          refine .inr ⟨found, ?_⟩
          split at h
          · exact ⟨none, rfl, (Option.some.inj h).symm⟩
          · obtain ⟨resolved, -, houtcome⟩ := Option.map_eq_some_iff.mp h
            exact ⟨_, rfl, houtcome.symm⟩

variable (native) in
/-- What is asked between finding a delegate with its declarations and comparing their names. -/
theorem error?_resolveAfresh {links : Nat} {outcome : Except Refusal ResolvedDelegate}
    (hnamed : namedDelegateAt types key = .ok (type, fullName))
    (h : resolveAfresh types settings links key = some outcome) :
    error? outcome =
      [signed, returning, passing, describable, convertible].findSome?
        (objection types settings native key) := by
  show _ = ([signed, returning, passing, describable] ++ [convertible]).findSome? _
  rw [List.findSome?_append, ← error?_survey settings native hnamed, List.findSome?_singleton]
  obtain ⟨refusal, hsurvey, rfl⟩ | ⟨found, baseSignature, hsurvey, rfl⟩ :=
    resolveAfresh_eq_some h
  · rw [hsurvey]
    rfl
  · rw [hsurvey, error?_conclude native hsurvey]
    rfl

variable (native) in
/-- What is asked of a type with nothing remembered. -/
theorem error?_wrapAfresh {outcome : Except Refusal Wrapper}
    (h : wrapAfresh types settings native key = some outcome) :
    error? outcome = inOrder.findSome? (objection types settings native key) := by
  have horder : inOrder = [known, named, delegate] ++ ([declared] ++
      ([signed, returning, passing, describable, convertible] ++ [matching])) := rfl
  rw [horder, List.findSome?_append, ← error?_namedDelegateAt]
  unfold wrapAfresh at h
  cases hnamed : namedDelegateAt types key with
  | error refusal =>
      rw [hnamed] at h
      rw [← Option.some.inj h]
      rfl
  | ok named =>
      obtain ⟨type, fullName⟩ := named
      obtain ⟨htype, hname, -⟩ := namedDelegateAt_eq_ok hnamed
      rw [hnamed] at h
      dsimp only at h
      rw [error?_ok, Option.none_or, List.findSome?_append, List.findSome?_singleton]
      unfold Wrapper.nativeSymbols at h
      cases hsymbols : native.get? key with
      | none =>
          rw [hsymbols] at h
          rw [← Option.some.inj h]
          simp [objection, htype, hname, hsymbols]
      | some symbols =>
          have hdeclared : objection types settings native key declared = none := by
            simp [objection, htype, hsymbols]
          rw [hsymbols] at h
          dsimp only at h
          obtain ⟨resolved, hresolved, rfl⟩ := Option.map_eq_some_iff.mp h
          rw [hdeclared, Option.none_or, List.findSome?_append,
            ← error?_resolveAfresh native hnamed hresolved, List.findSome?_singleton]
          cases resolved with
          | error refusal => rfl
          | ok delegate =>
              obtain ⟨_, _, hother⟩ | ⟨found, baseSignature, hsurvey, hconclude⟩ :=
                resolveAfresh_eq_some hresolved
              · cases hother
              · exact error?_concludeWrapper hsurvey hconclude.symm hsymbols

variable (types settings native key) in
/--
**The first requirement that is not met decides.**  Where resolving comes to an end,
and whatever was requested before, there is an outcome.  There are bindings exactly
if nothing objects to the type, and otherwise it is refused for the first objection.
-/
theorem wrap_decides (requests : List TypeKey) (hends : ResolveEnds types settings key) :
    ∃ (outcome : Except Refusal Wrapper) (after : Catalogue),
      (wrap types settings native key).on
          (.afterRequests types settings.unspecified requests) = some (outcome, after) ∧
      after.Reached types settings.unspecified ∧
      ((∃ wrapper, outcome = .ok wrapper) ↔
        ∀ requirement, objection types settings native key requirement = none) ∧
      ∀ refusal, outcome = .error refusal ↔
        inOrder.findSome? (objection types settings native key) = some refusal := by
  obtain ⟨outcome, houtcome⟩ := hends.exists_wrapAfresh native
  have hcomes := comesTo_wrap types settings native key _ ⟨requests, rfl⟩
  rw [houtcome] at hcomes
  obtain ⟨after, hafter, hon⟩ := hcomes
  have hfirst : error? outcome = inOrder.findSome? (objection types settings native key) :=
    error?_wrapAfresh native houtcome
  refine ⟨outcome, after, hon, hafter, ?_, ?_⟩
  · rw [← error?_eq_none_iff, hfirst, List.findSome?_eq_none_iff]
    constructor
    · intro h requirement
      exact h requirement (mem_inOrder requirement)
    · intro h requirement _
      exact h requirement
  · intro refusal
    rw [← hfirst]
    cases outcome with
    | error error => simp
    | ok wrapper => simp

/-- One delegate with two faults: it returns by reference, and nothing is declared for it. -/
def faultyTypes : Reflection :=
  let done : Signature := { params := [], returnType := .void, returnsByRef := true }
  (TypeStore.empty.register (.namedDelegate "App.Done" done)).2.reflection

/-- Of two faults the one that is asked for first is reported, also after a failed request. -/
theorem wrap_faulty :
    ∃ after, (wrap faultyTypes {} .empty ⟨32⟩).on (.afterRequests faultyTypes .nonNull [⟨99⟩]) =
      some (.error (.missingNativeLayer "App.Done"), after) := by
  obtain ⟨outcome, after, hon, -, -, hrefused⟩ :=
    wrap_decides faultyTypes {} .empty ⟨32⟩ [⟨99⟩] ⟨1, by decide +kernel⟩
  obtain rfl := (hrefused (.missingNativeLayer "App.Done")).mpr (by decide +kernel)
  exact ⟨after, hon⟩

end

end Interop
