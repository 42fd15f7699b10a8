/-
The two hosts accept the same delegates.

The host has a say in little of what is asked of a type.  Refusals for its form name
the host, and are otherwise the same for both.  Conversions go through other
languages, but whether a value passes does not depend on the host.  So the two hosts
come to the same verdict, and their chains of bases are followed equally far.

The one exception are parameters passed by reference, which Kotlin supports once the
feature is on, and which do not pass to Swift.
-/
import Interop.Proofs.ByRefFeature
import Interop.Proofs.Convertible

namespace Interop

/-- The settings with another host. -/
def Settings.forHost (settings : Settings) (host : Host) : Settings := { settings with host }

namespace Refusal

/-- The refusal with another host where it names one. -/
def naming (host : Host) : Refusal → Refusal
  | .unsupportedParameter _ passing => .unsupportedParameter host passing
  | .byRefReturn _ => .byRefReturn host
  | .missingInvoke _ => .missingInvoke host
  | refusal => refusal

theorem code_naming (host : Host) (refusal : Refusal) :
    (refusal.naming host).code = refusal.code := by
  cases refusal <;> rfl

theorem naming_naming (first second : Host) (refusal : Refusal) :
    (refusal.naming first).naming second = refusal.naming second := by
  cases refusal <;> rfl

theorem naming_ofDescription (host : Host) (error : DescriptionError) :
    (ofDescription error).naming host = ofDescription error := by
  cases error <;> rfl

end Refusal

/-- Both outcomes are bindings, or both are refusals under one code that differ at most in the host
they name. -/
inductive SameVerdict : Except Refusal Wrapper → Except Refusal Wrapper → Prop
  | written (wrapper wrapper' : Wrapper) : SameVerdict (.ok wrapper) (.ok wrapper')
  | refused {refusal refusal' : Refusal} (hcode : refusal.code = refusal'.code)
      (hnaming : ∀ host, refusal.naming host = refusal'.naming host) :
      SameVerdict (.error refusal) (.error refusal')

/-- Outcomes are alike if their refusals are one, told of two hosts. -/
theorem SameVerdict.of_error? {outcome outcome' : Except Refusal Wrapper} {host host' : Host}
    {refusal? : Option Refusal} (h : error? outcome = refusal?.map (Refusal.naming host))
    (h' : error? outcome' = refusal?.map (Refusal.naming host')) :
    SameVerdict outcome outcome' := by
  cases refusal? with
  | none =>
      obtain ⟨wrapper, rfl⟩ := error?_eq_none_iff.mp h
      obtain ⟨wrapper', rfl⟩ := error?_eq_none_iff.mp h'
      exact .written wrapper wrapper'
  | some refusal =>
      cases outcome with
      | ok wrapper => cases h
      | error told =>
          cases outcome' with
          | ok wrapper => cases h'
          | error told' =>
              cases h
              cases h'
              refine .refused ?_ fun host => ?_
              · rw [Refusal.code_naming, Refusal.code_naming]
              · rw [Refusal.naming_naming, Refusal.naming_naming]

/-- If the type at a key has a signature, its parameters are passed by value. -/
def Reflection.TakesValues (types : Reflection) (key : TypeKey) : Prop :=
  ∀ type signature, types.get? key = some type → type.invoke = some signature →
    ∀ param ∈ signature.params, param.passing = .byValue

section

variable {types : Reflection} {settings : Settings} {native : NativeLayer} {key : TypeKey}

/-! ### Objections -/

namespace Requirement

variable (settings native) in
/-- Where all parameters are passed by value, both hosts object to the same conversions. -/
theorem objection_convertible_forHost (h : types.TakesValues key) (host : Host) :
    objection types (settings.forHost host) native key convertible =
      objection types settings native key convertible := by
  have hcrossing : crossingAfresh types (settings.forHost host) =
      crossingAfresh types settings := rfl
  cases htype : types.get? key with
  | none => simp [objection, htype]
  | some type =>
      cases hinvoke : type.invoke with
      | none => simp [objection, htype, hinvoke]
      | some signature =>
          cases hparams : signature.params.mapM (crossingAfresh types settings) with
          | error error => simp [objection, htype, hinvoke, hcrossing, hparams, Except.toOption]
          | ok params =>
              cases hreturned : describeAfresh types settings.unspecified signature.returnType with
              | error error =>
                  simp [objection, htype, hinvoke, Settings.forHost, hreturned, Except.toOption]
              | ok returned =>
                  have hvalues : ∀ crossing ∈ params, crossing.passing = .byValue := by
                    intro crossing hcrossing
                    obtain ⟨param, hparam, _, -, rfl⟩ := exists_param_of_mem hparams hcrossing
                    exact h type signature htype hinvoke param hparam
                  have halike : ∀ crossing ∈ params, crossing.description.ConvertsAlike := by
                    intro crossing hcrossing
                    obtain ⟨_, -, _, hdescribed, rfl⟩ := exists_param_of_mem hparams hcrossing
                    exact convertsAlike_of_describeAlong hdescribed
                  have hother : objection types (settings.forHost host) native key convertible =
                      _ := objection_convertible native htype hinvoke hparams hreturned
                  rw [hother, objection_convertible native htype hinvoke hparams hreturned]
                  exact congrArg (Option.map _) (firstError?_outcomes_host hvalues halike
                    (convertsAlike_of_describeAlong hreturned) _ host settings.host)

variable (types settings native key) in
/-- Objections are the same for both hosts, up to its name, and up to conversions of what is not
passed by value. -/
theorem objection_forHost {requirement : Requirement}
    (h : requirement = .convertible → types.TakesValues key) (host : Host) :
    objection types (settings.forHost host) native key requirement =
      (objection types settings native key requirement).map (Refusal.naming host) := by
  cases requirement with
  | known =>
      unfold objection
      rw [apply_ite (Option.map (Refusal.naming host))]
      rfl
  | convertible =>
      rw [objection_convertible_forHost settings native (h rfl)]
      simp [objection, Option.map_bind, Function.comp_def, Refusal.naming]
  | describable =>
      simp only [objection, Settings.forHost, Option.bind_eq_bind, Option.map_bind,
        Function.comp_def, Option.pure_def, Option.map_some, Refusal.naming_ofDescription]
  | named | delegate | signed | declared | returning | passing | matching =>
      simp [objection, Option.map_bind, Function.comp_def,
        apply_ite (Option.map (Refusal.naming host)), Refusal.naming, Settings.forHost]

/-- What is passed in a way that is supported without the feature is passed by value. -/
theorem takesValues_of_objections
    (h : settings.features.byRefParameters = false ∨ types.TakesNoRef key)
    (hdelegate : objection types settings native key delegate = none)
    (hpassing : objection types settings native key passing = none) : types.TakesValues key := by
  intro type signature htype hinvoke param hparam
  have hshape : type.shape = .delegate := by
    by_contra hother
    simp [objection, htype, hother] at hdelegate
  rw [objection_passing settings native htype hinvoke, error?_eq_none_iff] at hpassing
  obtain ⟨_, hchecked⟩ := hpassing
  rcases (supports_iff settings _).mp (supports_of_checkPassing hchecked param hparam) with
    hvalue | ⟨href, hfeature⟩
  · exact hvalue
  · rcases h with hoff | hnoRef
    · rw [hoff] at hfeature
      cases hfeature
    · exact absurd href (hnoRef type signature htype hshape hinvoke param hparam)

variable (native) in
/-- **The first objection is the same for both hosts,** up to its name. -/
theorem findSome?_objection_forHost
    (h : settings.features.byRefParameters = false ∨ types.TakesNoRef key) (host : Host) :
    inOrder.findSome? (objection types (settings.forHost host) native key) =
      (inOrder.findSome? (objection types settings native key)).map (Refusal.naming host) := by
  let earlier := [known, named, delegate, declared, signed, returning, passing, describable]
  have horder : inOrder = earlier ++ [convertible, matching] := rfl
  have hearlier : earlier.findSome? (objection types (settings.forHost host) native key) =
      (earlier.findSome? (objection types settings native key)).map (Refusal.naming host) := by
    refine findSome?_eq_map fun requirement hmem =>
      objection_forHost types settings native key ?_ host
    rintro rfl
    exact absurd hmem (by decide)
  rw [horder, List.findSome?_append, List.findSome?_append, hearlier]
  cases hfirst : earlier.findSome? (objection types settings native key) with
  | some refusal => rfl
  | none =>
      have hnone := List.findSome?_eq_none_iff.mp hfirst
      have hvalues : types.TakesValues key :=
        takesValues_of_objections h (hnone delegate (by decide)) (hnone passing (by decide))
      rw [Option.map_none, Option.none_or, Option.none_or]
      exact findSome?_eq_map fun requirement _ =>
        objection_forHost types settings native key (fun _ => hvalues) host

end Requirement

/-! ### Chains of bases -/

theorem baseToResolve_forHost (host : Host) (key : TypeKey) :
    baseToResolve types (settings.forHost host) key = baseToResolve types settings key := by
  open Requirement in
  have hobjections : ∀ requirement ∈ [signed, returning, passing, describable],
      objection types (settings.forHost host) .empty key requirement =
        (objection types settings .empty key requirement).map (Refusal.naming host) := by
    intro requirement hmem
    refine objection_forHost types settings .empty key ?_ host
    rintro rfl
    exact absurd hmem (by decide)
  ext base
  simp only [baseToResolve_eq_some_iff .empty, findSome?_eq_map hobjections,
    Option.map_eq_none_iff]

/-- Resolving comes to an end for both hosts or for neither. -/
theorem ResolveEnds.forHost (h : ResolveEnds types settings key) (host : Host) :
    ResolveEnds types (settings.forHost host) key := by
  obtain ⟨links, hlinks⟩ := resolveEnds_iff_isSome.mp h
  refine resolveEnds_iff_isSome.mpr ⟨links, ?_⟩
  rw [isSome_resolveAfresh_congr (fun key => baseToResolve_forHost host key)]
  exact hlinks

/-! ### Bindings -/

/-- What gets bindings for Swift has no `ref` parameters. -/
theorem takesNoRef_of_wrapAfresh_swift {wrapper : Wrapper}
    (h : wrapAfresh types (settings.forHost .swift) native key = some (.ok wrapper)) :
    types.TakesNoRef key := by
  obtain ⟨_, _, _, delegate, -, -, hresolved, -⟩ := wrapAfresh_eq_ok h
  obtain ⟨found, _, hsurvey, rfl, hchecked, -⟩ := resolveAfresh_succ_eq_ok hresolved
  obtain ⟨_, hnamed, hsigned, -, -, hparams⟩ := survey_eq_ok hsurvey
  intro type signature htype _ hinvoke param hparam hpassing
  cases htype.symm.trans (namedDelegateAt_eq_ok hnamed).1
  cases hinvoke.symm.trans (invoke_of_supportedSignature hsigned)
  obtain ⟨crossing, hcrossing, hmade⟩ := exists_of_forall₂ (mapM_eq_ok_iff.mp hparams) hparam
  obtain ⟨description, hdescribed, rfl⟩ := crossingAfresh_eq_ok hmade
  -- The place would have to pass from C to Swift.
  let passage : Passage := ⟨.swift, .toHost⟩
  obtain ⟨error, herror⟩ := (ruled_of_describeAlong hdescribed).exists_error_convertByRef
    (show passage.host = .swift from rfl)
  have hfails : (crossingWith (settings.forHost .swift) param description).conversion
      passage.source passage.target = .error error := by
    unfold Crossing.conversion crossingWith
    rw [hpassing]
    exact herror
  obtain ⟨conversion, hpasses⟩ := exists_ok_of_mem_outcomes hchecked
    (List.mem_append_left _ (List.mem_flatMap.mpr ⟨_, hcrossing, List.mem_cons_self⟩))
  cases hfails.symm.trans hpasses

variable (types settings native key) in
/--
**The two hosts accept the same delegates.**  Where resolving comes to an end it does so
for both hosts, and both have an answer, after any requests.  With the feature for `ref`
parameters off, and for types without such parameters, the two answers are bindings, or
refusals that differ at most in the host they name.  And whatever gets bindings for Swift
gets them for Kotlin.
-/
theorem wrap_forHost (hends : ResolveEnds types settings key) :
    ∃ kotlin swift : Except Refusal Wrapper,
      (∀ catalogue, catalogue.Reached types settings.unspecified →
        ∃ after, (wrap types (settings.forHost .kotlin) native key).on catalogue =
          some (kotlin, after)) ∧
      (∀ catalogue, catalogue.Reached types settings.unspecified →
        ∃ after, (wrap types (settings.forHost .swift) native key).on catalogue =
          some (swift, after)) ∧
      (settings.features.byRefParameters = false ∨ types.TakesNoRef key →
        SameVerdict kotlin swift) ∧
      ((∃ wrapper, swift = .ok wrapper) → ∃ wrapper, kotlin = .ok wrapper) := by
  obtain ⟨kotlin, hkotlin⟩ := (hends.forHost .kotlin).exists_wrapAfresh native
  obtain ⟨swift, hswift⟩ := (hends.forHost .swift).exists_wrapAfresh native
  have hsame : settings.features.byRefParameters = false ∨ types.TakesNoRef key →
      SameVerdict kotlin swift := by
    intro h
    have hfirst (host : Host) := Requirement.findSome?_objection_forHost native h host
    exact .of_error? ((error?_wrapAfresh native hkotlin).trans (hfirst .kotlin))
      ((error?_wrapAfresh native hswift).trans (hfirst .swift))
  refine ⟨kotlin, swift, fun _ hreached => exists_on_of_wrapAfresh hreached hkotlin,
    fun _ hreached => exists_on_of_wrapAfresh hreached hswift, hsame, ?_⟩
  rintro ⟨wrapper, rfl⟩
  cases hsame (.inr (takesNoRef_of_wrapAfresh_swift hswift)) with
  | written wrapper' => exact ⟨wrapper', rfl⟩

/-- What becomes of a key of `swapping` for a host, with the feature off or on. -/
def swappingFor (byRef : Bool) (host : Host) (key : TypeKey) : Option (Except Refusal Wrapper) :=
  ((wrap Batch.swapping.types (Settings.forHost { features := ⟨byRef⟩ } host)
    Batch.swapping.native key).on .empty).map Prod.fst

/-- With the feature off, the first delegate is refused to both hosts, and the second one gets
bindings for both.  With it on, the second one gets them for Swift and so for Kotlin, and the first
one for Kotlin alone. -/
theorem wrap_forHost_swapping :
    (∃ refusal refusal', swappingFor false .kotlin ⟨32⟩ = some (.error refusal) ∧
      swappingFor false .swift ⟨32⟩ = some (.error refusal') ∧
      refusal = .unsupportedParameter .kotlin .byRef ∧
      refusal.naming .swift = refusal'.naming .swift) ∧
    (∃ wrapper wrapper', swappingFor false .kotlin ⟨33⟩ = some (.ok wrapper) ∧
      swappingFor false .swift ⟨33⟩ = some (.ok wrapper') ∧
      wrapper.fullTypeName = "App.Reset") ∧
    (∃ wrapper wrapper', swappingFor true .swift ⟨33⟩ = some (.ok wrapper) ∧
      swappingFor true .kotlin ⟨33⟩ = some (.ok wrapper') ∧
      wrapper.fullTypeName = "App.Reset") ∧
    ∃ wrapper refusal, swappingFor true .kotlin ⟨32⟩ = some (.ok wrapper) ∧
      swappingFor true .swift ⟨32⟩ = some (.error refusal) ∧
      wrapper.fullTypeName = "App.Swap" ∧ refusal.code = .e7007 := by
  have hanswers (byRef : Bool) (key : TypeKey)
      (hends : ResolveEnds Batch.swapping.types { features := ⟨byRef⟩ } key) :
      ∃ kotlin swift, swappingFor byRef .kotlin key = some kotlin ∧
        swappingFor byRef .swift key = some swift ∧
        (byRef = false ∨ Batch.swapping.types.TakesNoRef key → SameVerdict kotlin swift) ∧
        ((∃ wrapper, swift = .ok wrapper) → ∃ wrapper, kotlin = .ok wrapper) := by
    obtain ⟨kotlin, swift, hkotlin, hswift, hrest⟩ :=
      wrap_forHost Batch.swapping.types { features := ⟨byRef⟩ } Batch.swapping.native key hends
    obtain ⟨after, hon⟩ := hkotlin .empty Catalogue.reached_empty
    obtain ⟨after', hon'⟩ := hswift .empty Catalogue.reached_empty
    exact ⟨kotlin, swift, congrArg (Option.map Prod.fst) hon,
      congrArg (Option.map Prod.fst) hon', hrest⟩
  refine ⟨?refused, ?written, ?carried, ?alone⟩
  case refused =>
    obtain ⟨kotlin, swift, hkotlin, hswift, hsame, -⟩ :=
      hanswers false ⟨32⟩ ⟨1, by decide +kernel⟩
    have hrefused : (swappingFor false .kotlin ⟨32⟩).bind error? =
        some (.unsupportedParameter .kotlin .byRef) := by decide +kernel
    rw [hkotlin] at hrefused
    cases hsame (.inl rfl) with
    | written => cases hrefused
    | refused hcode hnaming =>
        exact ⟨_, _, hkotlin, hswift, Option.some.inj hrefused, hnaming .swift⟩
  case written =>
    obtain ⟨kotlin, swift, hkotlin, hswift, hsame, -⟩ :=
      hanswers false ⟨33⟩ ⟨2, by decide +kernel⟩
    have hwritten : ((swappingFor false .kotlin ⟨33⟩).bind Except.toOption).map
        Wrapper.fullTypeName = some "App.Reset" := by decide +kernel
    rw [hkotlin] at hwritten
    cases hsame (.inl rfl) with
    | refused => cases hwritten
    | written => exact ⟨_, _, hkotlin, hswift, Option.some.inj hwritten⟩
  case carried =>
    obtain ⟨kotlin, swift, hkotlin, hswift, -, hcarried⟩ :=
      hanswers true ⟨33⟩ ⟨2, by decide +kernel⟩
    have hwritten : ((swappingFor true .swift ⟨33⟩).bind Except.toOption).map
        Wrapper.fullTypeName = some "App.Reset" := by decide +kernel
    rw [hswift] at hwritten
    cases swift with
    | error refusal => cases hwritten
    | ok wrapper =>
        obtain ⟨wrapper', rfl⟩ := hcarried ⟨wrapper, rfl⟩
        exact ⟨wrapper, wrapper', hswift, hkotlin, Option.some.inj hwritten⟩
  case alone =>
    obtain ⟨kotlin, swift, hkotlin, hswift, -⟩ := hanswers true ⟨32⟩ ⟨1, by decide +kernel⟩
    have hwritten : ((swappingFor true .kotlin ⟨32⟩).bind Except.toOption).map
        Wrapper.fullTypeName = some "App.Swap" := by decide +kernel
    have hrefused : ((swappingFor true .swift ⟨32⟩).bind error?).map Refusal.code =
        some .e7007 := by decide +kernel
    rw [hkotlin] at hwritten
    rw [hswift] at hrefused
    cases kotlin with
    | error refusal => cases hwritten
    | ok wrapper =>
        cases swift with
        | ok wrapper' => cases hrefused
        | error refusal =>
            exact ⟨wrapper, refusal, hkotlin, hswift, Option.some.inj hwritten,
              Option.some.inj hrefused⟩

end

end Interop
