/-
What an overriding `invoke` declares.

Whether `invoke` overrides that of the base is decided by the types of the parameters and of
the result and by how they are passed.  The names that are written for them say one thing
more: whether a value may be absent.  That is settled for each signature on its own, from
the member's word, the type's and the run's, and no step compares it.

So both declarations are written from the same descriptions, and a name in one differs from
its partner in the other in nothing but the mark of a value that may be absent.  It differs
exactly if the type is one whose names carry that mark, and the two members settle it
differently.
-/
import Interop.Proofs.BoxedClosures
import Interop.Proofs.Overriding

namespace Interop

/-! ### Names that say whether a value may be absent -/

namespace Description

/-- Hosts mark a name of the type for a value that may be absent.  An optional wrapper is marked
anyway. -/
def ShowsNullness (d : Description) : Prop :=
  d.category = .value .string ∨ d.category = .value .referenceObject

/-- The name of the type is the same for two members. -/
def SettlesAlike (d : Description) (unspecified : Nullness) (stated other : Nullability) : Prop :=
  ¬d.ShowsNullness ∨
    stated.settleMember unspecified d.defaultNullability =
      other.settleMember unspecified d.defaultNullability

theorem ne_append_mark (base : String) : base ≠ base ++ "?" := by
  intro h
  have hlength := congrArg String.length h
  simp at hlength

theorem nameWithNullness_eq_iff (d : Description) (host : Host) (first second : Nullness) :
    d.nameWithNullness host.language first = d.nameWithNullness host.language second ↔
      ¬d.ShowsNullness ∨ first = second := by
  unfold nameWithNullness ShowsNullness
  cases hcategory : d.category with
  | void | unrecognized => simp [Category.valueKind?]
  | value kind =>
      cases kind <;> cases host <;> cases first <;> cases second <;>
        simp [Category.valueKind?, ValueKind.isReferenceLike, markNullness, Nullness.isNullable,
          Host.language, ne_append_mark]

theorem nameOfPlace_inj {host : Host} {inner inner' : String} :
    nameOfPlace inner host.language = nameOfPlace inner' host.language ↔ inner = inner' := by
  cases host <;> simp [nameOfPlace, Host.language, String.append_left_inj, String.append_right_inj]

/-- However a parameter is passed, its type is named alike where its values are. -/
theorem name_parameter_eq_iff (d : Description) (host : Host) (passing : Passing)
    (first second : Nullness) :
    d.name (.parameter host.language first (.ofPassing passing)) =
        d.name (.parameter host.language second (.ofPassing passing)) ↔
      d.nameWithNullness host.language first = d.nameWithNullness host.language second := by
  cases passing with
  | byValue => exact Iff.rfl
  | byRef | readOnly | output => exact nameOfPlace_inj

end Description

/-! ### Declared types -/

namespace Signature

variable (settings : Settings) (signature : Signature)

/-- The host's names of the parameter types, given what these are described as. -/
def typeNames (descriptions : List Description) : List String :=
  List.zipWith (fun param description =>
    (crossingWith settings param description).typeName settings.host.language)
    signature.params descriptions

/-- The host's name of the type returned, given what it is described as, if anything is returned. -/
def returnName? (returned : Description) : Option String :=
  if returned.isVoid then none
  else some (returned.name (.result settings.host.language
    (signature.returnNullability.settleMember settings.unspecified returned.defaultNullability)))

variable {settings signature}

theorem returnName?_eq_iff {other : Signature} {returned : Description} :
    signature.returnName? settings returned = other.returnName? settings returned ↔
      returned.SettlesAlike settings.unspecified signature.returnNullability
        other.returnNullability := by
  unfold returnName?
  split
  · rename_i hvoid
    have hhidden : ¬returned.ShowsNullness := by
      rintro (h | h) <;> simp [Description.isVoid, h, Category.isVoid] at hvoid
    exact ⟨fun _ => .inl hhidden, fun _ => rfl⟩
  · rw [Option.some_inj]
    exact returned.nameWithNullness_eq_iff settings.host _ _

variable (settings) in
/-- Parameters passed in the same way are named alike where they settle alike. -/
theorem typeName_eq_iff {param other : Param} (hpassing : other.passing = param.passing)
    (description : Description) :
    (crossingWith settings param description).typeName settings.host.language =
        (crossingWith settings other description).typeName settings.host.language ↔
      description.SettlesAlike settings.unspecified param.nullability other.nullability := by
  simp only [Crossing.typeName, crossingWith, hpassing, Description.name_parameter_eq_iff]
  exact description.nameWithNullness_eq_iff settings.host _ _

theorem typeNames_eq_iff {other : Signature} {descriptions : List Description}
    (hform : other.SameForm signature) (hlength : signature.params.length = descriptions.length) :
    signature.typeNames settings descriptions = other.typeNames settings descriptions ↔
      List.Forall₂ (fun description (member : Param × Param) =>
        description.SettlesAlike settings.unspecified member.1.nullability member.2.nullability)
        descriptions (signature.params.zip other.params) := by
  unfold typeNames
  have hparams := hform.params
  generalize signature.params = params at hparams hlength ⊢
  generalize other.params = others at hparams ⊢
  induction hparams generalizing descriptions with
  | nil =>
      obtain rfl := List.length_eq_zero_iff.mp hlength.symm
      simp
  | cons hfirst _ ih =>
      cases descriptions with
      | nil => cases hlength
      | cons description rest =>
          have hrest := ih (Nat.succ.inj hlength)
          simp [hrest, typeName_eq_iff settings hfirst.2]

end Signature

/-- The member declares parameters of these types, under the host's names for those of a signature,
and a result of this type. -/
def Invocation.Declares (invocation : Invocation) (host : Host) (signature : Signature)
    (typeNames : List String) (returnName? : Option String) : Prop :=
  typeNames.length = signature.params.length ∧
  ∃ body, invocation.text = host.functionText {
    name := "invoke"
    visibility := if invocation.isOverride then .visible else .overridable
    isOverride := invocation.isOverride
    throws := true
    params := List.zipWith host.parameterText
      (signature.params.map fun param => Identifier.escape host.language param.name) typeNames
    returnType := returnName?
    body }

section

variable {types : Reflection} {settings : Settings} {native : NativeLayer} {key base : TypeKey}

/-- What the types of some parameters are described as. -/
def descriptionsOf (types : Reflection) (settings : Settings) (params : List Param) :
    Except DescriptionError (List Description) :=
  params.mapM fun param => describeAfresh types settings.unspecified param.type

theorem length_of_descriptionsOf {params : List Param} {descriptions : List Description}
    (h : descriptionsOf types settings params = .ok descriptions) :
    params.length = descriptions.length :=
  (mapM_eq_ok_iff.mp h).length_eq

/-- Signatures of one form are written from the same descriptions. -/
theorem descriptionsOf_eq {signature other : Signature} (hform : other.SameForm signature) :
    descriptionsOf types settings other.params =
      descriptionsOf types settings signature.params := by
  have hparams := hform.params
  unfold descriptionsOf
  generalize signature.params = params at hparams ⊢
  generalize other.params = others at hparams ⊢
  induction hparams with
  | nil => rfl
  | cons hfirst _ ih => rw [mapM_cons_except, mapM_cons_except, hfirst.1, ih]

/-- Parameters that are described are those of the signature with their descriptions. -/
theorem exists_descriptionsOf {params : List Param} {crossings : List Crossing}
    (h : params.mapM (crossingAfresh types settings) = .ok crossings) :
    ∃ descriptions, descriptionsOf types settings params = .ok descriptions ∧
      crossings = List.zipWith (crossingWith settings) params descriptions := by
  have hall := mapM_eq_ok_iff.mp h
  clear h
  induction hall with
  | nil => exact ⟨[], rfl, rfl⟩
  | @cons param crossing rest crossings hcrossing _ ih =>
      obtain ⟨description, hdescribed, rfl⟩ := crossingAfresh_eq_ok hcrossing
      obtain ⟨descriptions, hdescriptions, rfl⟩ := ih
      refine ⟨description :: descriptions, ?_, rfl⟩
      unfold descriptionsOf at hdescriptions ⊢
      rw [mapM_cons_except, hdescribed, hdescriptions]

section

variable {wrapper : Wrapper} {type result : ManagedType} {signature : Signature}
  {symbols : NativeSymbols} {delegate : ResolvedDelegate}

theorem Wrapper.MadeFrom.delegate_signature
    (h : wrapper.MadeFrom types settings native key type signature result symbols delegate) :
    delegate.signature = signature := by
  obtain ⟨_, htype, hinvoke⟩ :=
    exists_invoke_of_resolveAfresh (exists_on_empty_iff.mp h.resolved)
  cases htype.symm.trans h.type_eq
  exact Option.some.inj (hinvoke.symm.trans h.signature_eq)

/-- Whether the result may be absent is settled as it is for any member. -/
theorem Wrapper.MadeFrom.returnNullness_eq
    (h : wrapper.MadeFrom types settings native key type signature result symbols delegate) :
    delegate.returnNullness = signature.returnNullability.settleMember settings.unspecified
      delegate.returnDescription.defaultNullability := by
  rw [← h.delegate_signature]
  obtain ⟨found, _, -, rfl, -⟩ := resolveAfresh_succ_eq_ok (exists_on_empty_iff.mp h.resolved)
  rfl

theorem Wrapper.MadeFrom.map_returnTypeName
    (h : wrapper.MadeFrom types settings native key type signature result symbols delegate)
    {conversion : Option (Option Template)} (hreturns : conversion.isSome = delegate.isReturning) :
    (conversion.map fun _ => delegate.returnTypeName settings.host.language) =
      signature.returnName? settings delegate.returnDescription := by
  have hvoid : delegate.returnDescription.isVoid = !conversion.isSome := by
    rw [hreturns, ResolvedDelegate.isReturning, Bool.not_not]
  unfold Signature.returnName? ResolvedDelegate.returnTypeName
  rw [h.returnNullness_eq, hvoid]
  cases conversion <;> rfl

/-- What a member declares: the types that its signature is described with. -/
theorem Wrapper.MadeFrom.declares
    (h : wrapper.MadeFrom types settings native key type signature result symbols delegate) :
    ∃ descriptions, descriptionsOf types settings signature.params = .ok descriptions ∧
      wrapper.invoke.Declares settings.host signature (signature.typeNames settings descriptions)
        (signature.returnName? settings delegate.returnDescription) := by
  obtain ⟨descriptions, hdescriptions, hparams⟩ := exists_descriptionsOf h.params_eq
  have hlength := length_of_descriptionsOf hdescriptions
  have htypes : delegate.params.map (·.typeName settings.host.language) =
      signature.typeNames settings descriptions := by
    rw [hparams, List.map_zipWith]
    rfl
  have hreturns : (if delegate.isReturning then some (none : Option Template)
      else none).isSome = delegate.isReturning := by
    cases delegate.isReturning <;> rfl
  obtain ⟨body, htext⟩ := h.written.exists_invoke_text hreturns
  rw [h.host_eq, h.identifiers_eq, htypes, h.map_returnTypeName hreturns,
    ← h.written.isOverride_eq] at htext
  refine ⟨descriptions, hdescriptions, ?_, body, htext⟩
  simp [Signature.typeNames, hlength]

end

/-- The names that a member declares, from those that its signature is written with. -/
theorem declares_of_names {catalogue after : Catalogue} {wrapper : Wrapper} {signature : Signature}
    {typeNames : List String} {returnName? : Option String}
    (hreached : catalogue.Reached types settings.unspecified)
    (hon : (wrap types settings native key).on catalogue = some (.ok wrapper, after))
    (hinvoke : (types.get? key).bind (·.invoke) = some signature)
    (htypes : (descriptionsOf types settings signature.params).map
      (signature.typeNames settings) = .ok typeNames)
    (hreturn : (describeAfresh types settings.unspecified signature.returnType).map
      (signature.returnName? settings) = .ok returnName?) :
    wrapper.invoke.Declares settings.host signature typeNames returnName? := by
  obtain ⟨type, own, _, _, delegate, hmade⟩ := exists_madeFrom hreached hon
  rw [hmade.type_eq, Option.bind_some, hmade.signature_eq] at hinvoke
  cases hinvoke
  obtain ⟨descriptions, hdescriptions, hdeclares⟩ := hmade.declares
  rw [hdescriptions] at htypes
  rw [hmade.result_eq] at hreturn
  cases htypes
  cases hreturn
  exact hdeclares

/--
**What an overriding `invoke` declares.**  Let a type and its base both get bindings, whatever
was requested before each, and let `invoke` of the first override that of the second.  Both
declare as many parameters, of the same types and passed in the same ways, and both declarations
are written from the same descriptions.  The parameter types have the same names in both exactly
if, at every position, the type has one name for values that may be absent and for others, or
the two members settle alike whether this one may be.  The same holds of the type returned.
-/
theorem wrap_override_typeNames_iff {catalogue after baseCatalogue baseAfter : Catalogue}
    {wrapper baseWrapper : Wrapper}
    (hreached : catalogue.Reached types settings.unspecified)
    (hbaseReached : baseCatalogue.Reached types settings.unspecified)
    (hbase : types.IsBase base key)
    (hon : (wrap types settings native key).on catalogue = some (.ok wrapper, after))
    (hbaseOn : (wrap types settings native base).on baseCatalogue =
      some (.ok baseWrapper, baseAfter))
    (hoverride : wrapper.invoke.isOverride = true) :
    ∃ signature baseSignature descriptions returned,
      (types.get? key).bind (·.invoke) = some signature ∧
      (types.get? base).bind (·.invoke) = some baseSignature ∧
      baseSignature.SameForm signature ∧
      descriptionsOf types settings signature.params = .ok descriptions ∧
      describeAfresh types settings.unspecified signature.returnType = .ok returned ∧
      wrapper.invoke.Declares settings.host signature
        (signature.typeNames settings descriptions) (signature.returnName? settings returned) ∧
      baseWrapper.invoke.Declares settings.host baseSignature
        (baseSignature.typeNames settings descriptions)
        (baseSignature.returnName? settings returned) ∧
      (signature.typeNames settings descriptions = baseSignature.typeNames settings descriptions ↔
        List.Forall₂ (fun description (member : Param × Param) =>
          description.SettlesAlike settings.unspecified member.1.nullability member.2.nullability)
          descriptions (signature.params.zip baseSignature.params)) ∧
      (signature.returnName? settings returned = baseSignature.returnName? settings returned ↔
        returned.SettlesAlike settings.unspecified signature.returnNullability
          baseSignature.returnNullability) := by
  obtain ⟨type, signature, _, _, delegate, hmade⟩ := exists_madeFrom hreached hon
  obtain ⟨baseType, baseSignature, _, _, baseDelegate, hbaseMade⟩ :=
    exists_madeFrom hbaseReached hbaseOn
  have hform : baseSignature.SameForm signature := by
    obtain ⟨_, _, resolved, htype, hbase', hresolved, hform⟩ :=
      (isOverride_iff_of_resolveAfresh (exists_on_empty_iff.mp hmade.resolved)).mp
        (hmade.written.isOverride_eq.symm.trans hoverride)
    obtain ⟨_, htype', hbase⟩ := hbase
    cases htype.symm.trans htype'
    cases hbase'.symm.trans hbase
    cases hresolved.symm.trans (exists_on_empty_iff.mp hbaseMade.resolved)
    rwa [hmade.delegate_signature, hbaseMade.delegate_signature] at hform
  obtain ⟨descriptions, hdescriptions, hdeclares⟩ := hmade.declares
  obtain ⟨baseDescriptions, hbaseDescriptions, hbaseDeclares⟩ := hbaseMade.declares
  rw [descriptionsOf_eq hform] at hbaseDescriptions
  obtain rfl : descriptions = baseDescriptions :=
    Except.ok.inj (hdescriptions.symm.trans hbaseDescriptions)
  have hreturned : delegate.returnDescription = baseDelegate.returnDescription := by
    have hbaseResult := hbaseMade.result_eq
    rw [hform.returnType] at hbaseResult
    exact Except.ok.inj (hmade.result_eq.symm.trans hbaseResult)
  rw [← hreturned] at hbaseDeclares
  refine ⟨signature, baseSignature, descriptions, delegate.returnDescription, ?_, ?_, hform,
    hdescriptions, hmade.result_eq, hdeclares, hbaseDeclares,
    Signature.typeNames_eq_iff hform (length_of_descriptionsOf hdescriptions),
    Signature.returnName?_eq_iff⟩
  · rw [hmade.type_eq, Option.bind_some, hmade.signature_eq]
  · rw [hbaseMade.type_eq, Option.bind_some, hbaseMade.signature_eq]

/-- A delegate that takes a string and returns one, with one word on whether they may be absent. -/
def echo (stated : Nullability) : Signature where
  params := [{ name := "text", type := .string, nullability := stated }]
  returnType := .string
  returnNullability := stated

/-- A silent delegate, and one derived from it that says that both may be absent. -/
def echoes : Reflection :=
  let (base, store) := TypeStore.empty.register (.namedDelegate "App.Echo" (echo .notSpecified))
  let loud := { ManagedType.namedDelegate "App.LoudEcho" (echo .nullable) with base := some base }
  (store.register loud).2.reflection

/-- Whatever silence stands for, both get bindings, and `invoke` of the second overrides. -/
theorem wrap_echoes (unspecified : Nullness) :
    ∃ (wrapper baseWrapper : Wrapper) (after baseAfter : Catalogue),
      (wrap echoes { unspecified } (.conventional echoes [⟨32⟩, ⟨33⟩]) ⟨33⟩).on .empty =
        some (.ok wrapper, after) ∧
      (wrap echoes { unspecified } (.conventional echoes [⟨32⟩, ⟨33⟩]) ⟨32⟩).on .empty =
        some (.ok baseWrapper, baseAfter) ∧
      wrapper.invoke.isOverride = true := by
  have hoverride : ((wrap echoes { unspecified } (.conventional echoes [⟨32⟩, ⟨33⟩]) ⟨33⟩).on
      .empty).map (fun (outcome, _) => outcome.toOption.map (·.invoke.isOverride)) =
        some (some true) := by
    cases unspecified <;> decide +kernel
  obtain ⟨baseWrapper, baseAfter, hbaseOn⟩ := exists_ok_of_isOk
    (show ((wrap echoes { unspecified } (.conventional echoes [⟨32⟩, ⟨33⟩]) ⟨32⟩).on .empty).any
      (fun (outcome, _) => outcome.isOk) = true by cases unspecified <;> decide +kernel)
  obtain ⟨⟨outcome, after⟩, hon, hsome⟩ := Option.map_eq_some_iff.mp hoverride
  cases outcome with
  | error refusal => cases hsome
  | ok wrapper =>
      exact ⟨wrapper, baseWrapper, after, baseAfter, hon, hbaseOn, Option.some.inj hsome⟩

/-- Where silence says that a value may be absent, both declare the same. -/
theorem wrap_override_echoes :
    ∃ (wrapper baseWrapper : Wrapper) (after baseAfter : Catalogue) (typeNames : List String)
      (returnName? : Option String),
      (wrap echoes { unspecified := .nullable } (.conventional echoes [⟨32⟩, ⟨33⟩]) ⟨33⟩).on
        .empty = some (.ok wrapper, after) ∧
      (wrap echoes { unspecified := .nullable } (.conventional echoes [⟨32⟩, ⟨33⟩]) ⟨32⟩).on
        .empty = some (.ok baseWrapper, baseAfter) ∧
      wrapper.invoke.isOverride = true ∧
      wrapper.invoke.Declares .kotlin (echo .nullable) typeNames returnName? ∧
      baseWrapper.invoke.Declares .kotlin (echo .notSpecified) typeNames returnName? := by
  obtain ⟨wrapper, baseWrapper, after, baseAfter, hon, hbaseOn, hoverride⟩ :=
    wrap_echoes .nullable
  obtain ⟨_, _, descriptions, returned, hinvoke, hbaseInvoke, -, hdescriptions, hreturned,
    hdeclares, hbaseDeclares, htypes, hreturn⟩ :=
    wrap_override_typeNames_iff Catalogue.reached_empty Catalogue.reached_empty
      (by decide +kernel) hon hbaseOn hoverride
  have hloud : (echoes.get? ⟨33⟩).bind (·.invoke) = some (echo .nullable) := by decide +kernel
  have hquiet : (echoes.get? ⟨32⟩).bind (·.invoke) = some (echo .notSpecified) := by
    decide +kernel
  obtain rfl := Option.some.inj (hloud.symm.trans hinvoke)
  obtain rfl := Option.some.inj (hquiet.symm.trans hbaseInvoke)
  replace hreturned : describeAfresh echoes .nullable .string = .ok returned := hreturned
  have hdefault : (describeAfresh echoes .nullable .string).map (·.defaultNullability) =
      .ok .notSpecified := by
    rw [describeAfresh_eq_fst]
    decide +kernel
  have halike : returned.SettlesAlike .nullable .nullable .notSpecified := by
    rw [hreturned] at hdefault
    have hsilent : returned.defaultNullability = .notSpecified := Except.ok.inj hdefault
    right
    rw [hsilent]
    rfl
  obtain ⟨description, _, hdescribed, ⟨⟩, rfl⟩ :=
    List.forall₂_cons_left_iff.mp (mapM_eq_ok_iff.mp hdescriptions)
  obtain rfl : returned = description := Except.ok.inj (hreturned.symm.trans hdescribed)
  refine ⟨wrapper, baseWrapper, after, baseAfter, _, _, hon, hbaseOn, hoverride, hdeclares, ?_⟩
  rw [htypes.mpr (.cons halike .nil), hreturn.mpr halike]
  exact hbaseDeclares

/-- Where it says that a value is there, the names differ, and `invoke` overrides all the same. -/
theorem wrap_override_unlike :
    ∃ (wrapper baseWrapper : Wrapper) (after baseAfter : Catalogue),
      echoes.IsBase ⟨32⟩ ⟨33⟩ ∧
      (wrap echoes {} (.conventional echoes [⟨32⟩, ⟨33⟩]) ⟨33⟩).on .empty =
        some (.ok wrapper, after) ∧
      (wrap echoes {} (.conventional echoes [⟨32⟩, ⟨33⟩]) ⟨32⟩).on .empty =
        some (.ok baseWrapper, baseAfter) ∧
      wrapper.invoke.isOverride = true ∧
      wrapper.invoke.Declares .kotlin (echo .nullable) ["String?"] (some "String?") ∧
      baseWrapper.invoke.Declares .kotlin (echo .notSpecified) ["String"] (some "String") := by
  obtain ⟨wrapper, baseWrapper, after, baseAfter, hon, hbaseOn, hoverride⟩ :=
    wrap_echoes .nonNull
  have hdeclares : wrapper.invoke.Declares ({} : Settings).host (echo .nullable) ["String?"]
      (some "String?") := by
    refine declares_of_names Catalogue.reached_empty hon
      (by decide +kernel) ?_ ?_
    · unfold descriptionsOf
      rw [describeAfresh_eq_fst]
      decide +kernel
    · rw [describeAfresh_eq_fst]
      decide +kernel
  have hbaseDeclares : baseWrapper.invoke.Declares ({} : Settings).host (echo .notSpecified)
      ["String"] (some "String") := by
    refine declares_of_names Catalogue.reached_empty hbaseOn
      (by decide +kernel) ?_ ?_
    · unfold descriptionsOf
      rw [describeAfresh_eq_fst]
      decide +kernel
    · rw [describeAfresh_eq_fst]
      decide +kernel
  exact ⟨wrapper, baseWrapper, after, baseAfter, by decide +kernel, hon, hbaseOn, hoverride, hdeclares,
    hbaseDeclares⟩

end

end Interop
