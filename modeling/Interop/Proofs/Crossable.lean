/-
Which types cross the boundary as parameters.

A parameter crosses if it can be converted both ways.  For one that is passed by value
this asks whether there are values of its type with rules, and so void and the types
without rules are refused in either host.  For a `ref` parameter it is the place that is
converted and not its value, and what is asked of the type is less: there only must not
be a lack of rules.  Void is not asked about.  So where places pass at all, which is in
Kotlin only, a place that holds void passes, although there is nothing for it to hold.

All other requirements stay what they are, and so the types of a signature decide alone
whether its values can be converted.
-/
import Interop.Proofs.Convertible
import Interop.Proofs.Written

namespace Interop

/-! ### Places -/

/-- Why places do not pass between two languages, if they do not. -/
def Language.placeFault? (source target : Language) : Option ConversionError :=
  if source = target then none
  else
    match Passage.between? source target with
    | none => some (.unsupportedPair source target)
    | some ⟨.kotlin, _⟩ => none
    | some ⟨.swift, _⟩ => some (.unsupported .byRef source target)

theorem Passage.placeFault?_eq (passage : Passage) :
    Language.placeFault? passage.source passage.target =
      if passage.host = .kotlin then none
      else some (.unsupported .byRef passage.source passage.target) := by
  obtain ⟨host, direction⟩ := passage
  cases host <;> cases direction <;> rfl

theorem Passage.eq_of_between? {source target : Language} {passage : Passage}
    (h : between? source target = some passage) :
    source = passage.source ∧ target = passage.target := by
  cases source <;> cases target <;> cases h <;> exact ⟨rfl, rfl⟩

namespace Description

/-- The places of a type with rules, and those of void, fail to be converted only where no places
pass. -/
theorem NamesSpelled.error?_convertByRef {d : Description} (h : d.NamesSpelled) (hruled : d.Ruled)
    (hrules : ∀ why, d.category ≠ .unrecognized why) (source target : Language) :
    error? (d.convertByRef source target) = Language.placeFault? source target := by
  have hname := (h.baseName (hostSide source target)).cut_eq_none
  have hworked : error? (do
      let rule ← Rule.find .byRef source target
      rule.specialize .byRef source target .nonNull (d.baseName (hostSide source target))) =
      Language.placeFault? source target := by
    by_cases hsame : source = target
    · simp [Rule.find, Language.placeFault?, hsame, ok_bind, Rule.specialize]
    · cases hpassage : Passage.between? source target with
      | none =>
          rw [Rule.find, Language.placeFault?, if_neg hsame, if_neg hsame, hpassage]
          rfl
      | some passage =>
          obtain ⟨rfl, rfl⟩ := Passage.eq_of_between? hpassage
          have hrule := Rule.find_passage .byRef passage
          rw [hrule, ok_bind, Rule.error?_specialize hname hrule, passage.placeFault?_eq]
          simp only [Rule.onPassage_eq_unsupported_iff, true_and]
          cases passage.host <;> rfl
  rw [hruled.convertByRef_eq, ← hworked]
  unfold workOutByRef
  cases hcategory : d.category with
  | unrecognized why => exact absurd hcategory (hrules why)
  | void | value => rfl

/-- What conversions of a type without values, or without rules for them, come to.  Values are
refused for what the type is.  So are places if there are no rules, but a place that holds void is
treated like any other. -/
structure FailsByCategory (d : Description) : Prop where
  unrecognized : ∀ why, d.category = .unrecognized why → ∀ source target nullness,
    d.convert source target nullness = .error (.unrecognizedKind d.fullName why.text) ∧
      d.convertByRef source target = .error (.unrecognizedKind d.fullName why.text)
  void : d.category = .void → ∀ source target nullness,
    d.convert source target nullness = .error (.unrecognizedKind d.fullName "void has no value") ∧
      error? (d.convertByRef source target) = Language.placeFault? source target

theorem NamesSpelled.failsByCategory {d : Description} (h : d.NamesSpelled) (hruled : d.Ruled) :
    d.FailsByCategory where
  unrecognized why hcategory source target nullness := by
    rw [hruled.convert_eq, hruled.convertByRef_eq, hcategory]
    exact ⟨rfl, rfl⟩
  void hcategory source target nullness := by
    refine ⟨?_, h.error?_convertByRef hruled (by simp [hcategory]) source target⟩
    rw [hruled.convert_eq, hcategory]
    rfl

end Description

/-! ### Parameters and results -/

namespace Category

/-- Parameters of a type in the category cross the boundary of a host if they are passed in this
way. -/
def Crosses (host : Host) (category : Category) : Passing → Prop
  | .byValue => ∃ kind, category = .value kind
  | .byRef | .readOnly | .output => host = .kotlin ∧ ∀ why, category ≠ .unrecognized why

theorem fault?_eq_none_iff {typeName : String} {category : Category} :
    category.fault? typeName = none ↔ ∃ kind, category = .value kind := by
  cases category <;> simp [fault?]

end Category

/-- Places pass in Kotlin, unless the type has no rules. -/
theorem Description.error?_convertByRef_passage {d : Description} (hspelled : d.NamesSpelled)
    (hruled : d.Ruled) (passage : Passage) :
    error? (d.convertByRef passage.source passage.target) = none ↔
      passage.host = .kotlin ∧ ∀ why, d.category ≠ .unrecognized why := by
  by_cases hrules : ∀ why, d.category ≠ .unrecognized why
  · rw [hspelled.error?_convertByRef hruled hrules, passage.placeFault?_eq, and_iff_left hrules]
    cases passage.host <;> simp
  · refine iff_of_false ?_ fun hcrosses => hrules hcrosses.2
    obtain ⟨why, hcategory⟩ := not_forall_not.mp hrules
    rw [((hspelled.failsByCategory hruled).unrecognized why hcategory _ _ .nonNull).2]
    nofun

namespace Crossing

/-- A parameter that is described can be converted both ways exactly if its type crosses. -/
theorem outcomes_ok_iff {param : Crossing} (hspelled : param.description.NamesSpelled)
    (hruled : param.description.Ruled) (halike : param.description.ConvertsAlike) (host : Host) :
    firstError? (outcomes host param) = none ↔
      param.description.category.Crosses host param.passing := by
  have hplace (hpassing : param.passing ≠ .byValue) : firstError? (outcomes host param) = none ↔
      host = .kotlin ∧ ∀ why, param.description.category ≠ .unrecognized why := by
    have hin := Description.error?_convertByRef_passage hspelled hruled ⟨host, .toHost⟩
    have hout := Description.error?_convertByRef_passage hspelled hruled ⟨host, .toNative⟩
    have houtcomes : outcomes host param =
        [param.description.convertByRef host.nativeLanguage host.language,
          param.description.convertByRef host.language host.nativeLanguage] := by
      unfold outcomes conversion
      cases hpass : param.passing with
      | byValue => exact absurd hpass hpassing
      | byRef | readOnly | output => rfl
    rw [houtcomes, firstError?_eq_none_iff, List.map_cons, List.forall_mem_cons, List.map_cons,
      List.map_nil, List.forall_mem_singleton]
    exact (and_congr hin hout).trans and_self_iff
  cases hpass : param.passing with
  | byValue =>
      rw [firstError?_eq_none_iff, map_error?_outcomes hpass halike, List.forall_mem_replicate,
        Category.fault?_eq_none_iff]
      simp [Category.Crosses]
  | byRef | readOnly | output => exact hplace (by simp [hpass])

end Crossing

/-- A result that is described can be converted both ways unless its type has no rules. -/
theorem returnOutcomes_ok_iff {description : Description} (halike : description.ConvertsAlike)
    (host : Host) (nullness : Nullness) :
    firstError? (returnOutcomes host description nullness) = none ↔
      ∀ why, description.category ≠ .unrecognized why := by
  rw [firstError?_eq_none_iff, map_error?_returnOutcomes halike]
  cases hcategory : description.category <;>
    simp [Description.isVoid, hcategory, Category.isVoid, Category.fault?]

/-! ### Signatures -/

section

variable {types : Reflection} {settings : Settings} {native : NativeLayer} {key : TypeKey}
  {type : ManagedType} {signature : Signature}

open Requirement

/-- The category of a described type is that of its shape. -/
theorem exists_type_of_describeAfresh {described : TypeKey} {description : Description}
    (h : describeAfresh types settings.unspecified described = .ok description) :
    ∃ found, types.get? described = some found ∧ description.category = .ofShape found.shape := by
  obtain ⟨found, _, _, hfound, -, -, -, rfl⟩ := describeAlong_eq_ok h
  exact ⟨found, hfound, Description.category_build ..⟩

variable (types settings) in
/-- The parameters and the result of a signature cross the boundary of the host. -/
structure Signature.Crosses (signature : Signature) : Prop where
  params : ∀ param ∈ signature.params, ∀ found ∈ types.get? param.type,
    (Category.ofShape found.shape).Crosses settings.host param.passing
  result : ∀ found ∈ types.get? signature.returnType, ∀ why,
    Category.ofShape found.shape ≠ .unrecognized why

/-- All parameters of a signature are described, and so is its result, if nothing it mentions fails
to be. -/
theorem exists_described (h : firstError?
      ((mentioned type signature).map (describeAfresh types settings.unspecified)) = none) :
    (∃ params, signature.params.mapM (crossingAfresh types settings) = .ok params) ∧
      ∃ returned, describeAfresh types settings.unspecified signature.returnType = .ok returned := by
  rw [firstError?_mentioned, Option.or_eq_none_iff, Option.or_eq_none_iff] at h
  exact ⟨error?_eq_none_iff.mp h.2.1, error?_eq_none_iff.mp h.1⟩

variable (native) in
/-- Values are converted exactly if the types of the signature cross. -/
theorem objection_convertible_eq_none_iff (htype : types.get? key = some type)
    (hinvoke : type.invoke = some signature)
    (hdescribable : objection types settings native key describable = none) :
    objection types settings native key convertible = none ↔ signature.Crosses types settings := by
  rw [objection_describable settings native htype hinvoke, Option.map_eq_none_iff] at hdescribable
  obtain ⟨⟨params, hparams⟩, returned, hreturned⟩ := exists_described hdescribable
  obtain ⟨found, hfound, hcategory⟩ := exists_type_of_describeAfresh hreturned
  have hresult := returnOutcomes_ok_iff (convertsAlike_of_describeAlong hreturned) settings.host
    (signature.returnNullability.settleMember settings.unspecified returned.defaultNullability)
  have hparam : ∀ param crossing, crossingAfresh types settings param = .ok crossing →
      (firstError? (Crossing.outcomes settings.host crossing) = none ↔
        ∀ found ∈ types.get? param.type,
          (Category.ofShape found.shape).Crosses settings.host param.passing) := by
    intro param crossing hcrossing
    obtain ⟨description, hdescribed, rfl⟩ := crossingAfresh_eq_ok hcrossing
    obtain ⟨found, hfound, hcategory⟩ := exists_type_of_describeAfresh hdescribed
    rw [hfound]
    have hcrosses := @Crossing.outcomes_ok_iff (crossingWith settings param description)
      (namesSpelled_of_describeAlong hdescribed) (ruled_of_describeAlong hdescribed)
      (convertsAlike_of_describeAlong hdescribed) settings.host
    rw [hcrosses]
    show description.category.Crosses settings.host param.passing ↔ _
    simp [hcategory]
  have hall := mapM_eq_ok_iff.mp hparams
  rw [objection_convertible native htype hinvoke hparams hreturned, Option.map_eq_none_iff,
    firstError?_append, Option.or_eq_none_iff, hresult, hcategory, firstError?_flatMap_eq_none_iff]
  constructor
  · rintro ⟨hcrossings, hrules⟩
    refine ⟨fun param hmem => ?_, by simpa [hfound] using hrules⟩
    obtain ⟨crossing, hcrossing, hmade⟩ := exists_of_forall₂ hall hmem
    exact (hparam param crossing hmade).mp (hcrossings crossing hcrossing)
  · intro hcrosses
    refine ⟨fun crossing hmem => ?_, hcrosses.result found hfound⟩
    obtain ⟨param, hparam', hmade⟩ := exists_of_forall₂ hall.flip hmem
    exact (hparam param crossing hmade).mpr (hcrosses.params param hparam')

/-- A parameter of a type that crosses has rules, and it has values too unless it stands for a place
in Kotlin. -/
theorem Category.Crosses.void_only_byRef {category : Category} {host : Host} {passing : Passing}
    (h : category.Crosses host passing) (hsupported : settings.supports passing = true) :
    (∀ why, category ≠ .unrecognized why) ∧
      (category = .void →
        passing = .byRef ∧ host = .kotlin ∧ settings.features.byRefParameters = true) := by
  cases passing with
  | byValue =>
      obtain ⟨kind, rfl⟩ := h
      exact ⟨nofun, nofun⟩
  | byRef => exact ⟨h.2, fun _ => ⟨rfl, h.1, hsupported⟩⟩
  | readOnly | output => cases hsupported

/-- A type that nothing is missing of has a signature. -/
theorem exists_signature (hknown : objection types settings native key known = none)
    (hsigned : objection types settings native key signed = none) :
    ∃ type signature, types.get? key = some type ∧ type.invoke = some signature := by
  cases htype : types.get? key with
  | none => simp [objection, htype] at hknown
  | some type =>
      cases hinvoke : type.invoke with
      | none => simp [objection, htype, hinvoke] at hsigned
      | some signature => exact ⟨type, signature, rfl, hinvoke⟩

/-- There are bindings exactly if nothing objects. -/
theorem exists_wrapper_iff_of_on {catalogue after : Catalogue} {outcome : Except Refusal Wrapper}
    (hreached : catalogue.Reached types settings.unspecified)
    (h : (wrap types settings native key).on catalogue = some (outcome, after)) :
    (∃ wrapper, outcome = .ok wrapper) ↔
      ∀ requirement, objection types settings native key requirement = none := by
  rw [← error?_eq_none_iff, error?_wrapAfresh native (wrapAfresh_of_on hreached h),
    List.findSome?_eq_none_iff]
  exact ⟨fun hnone requirement => hnone requirement (mem_inOrder requirement),
    fun hnone requirement _ => hnone requirement⟩

/-- The types of the signature stand for one of the requirements. -/
theorem forall_objection_eq_none_iff :
    (∀ requirement, objection types settings native key requirement = none) ↔
      (∀ requirement, requirement ≠ convertible →
        objection types settings native key requirement = none) ∧
      ∀ signature ∈ (types.get? key).bind (·.invoke), signature.Crosses types settings := by
  constructor
  · intro hnone
    refine ⟨fun requirement _ => hnone requirement, fun signature hsignature => ?_⟩
    obtain ⟨type, htype, hinvoke⟩ := Option.bind_eq_some_iff.mp hsignature
    exact (objection_convertible_eq_none_iff native htype hinvoke (hnone describable)).mp
      (hnone convertible)
  · rintro ⟨hothers, hcrosses⟩ requirement
    by_cases hconvertible : requirement = convertible
    · obtain ⟨type, signature, htype, hinvoke⟩ :=
        exists_signature (hothers known nofun) (hothers signed nofun)
      rw [hconvertible, objection_convertible_eq_none_iff native htype hinvoke
        (hothers describable nofun)]
      exact hcrosses signature (by rw [htype, Option.bind_some, hinvoke]; rfl)
    · exact hothers requirement hconvertible

/-- The types of parameters that nothing objects to. -/
theorem exists_crossing_types
    (hnone : ∀ requirement, objection types settings native key requirement = none) :
    ∃ signature, (types.get? key).bind (·.invoke) = some signature ∧
      ∀ param ∈ signature.params, ∃ found, types.get? param.type = some found ∧
        (Category.ofShape found.shape).Crosses settings.host param.passing ∧
        settings.supports param.passing = true := by
  obtain ⟨type, signature, htype, hinvoke⟩ := exists_signature (hnone known) (hnone signed)
  have hdescribable := hnone describable
  have hcrosses := (objection_convertible_eq_none_iff native htype hinvoke hdescribable).mp
    (hnone convertible)
  rw [objection_describable settings native htype hinvoke, Option.map_eq_none_iff] at hdescribable
  obtain ⟨⟨params, hparams⟩, -⟩ := exists_described hdescribable
  have hpassing := hnone passing
  rw [objection_passing settings native htype hinvoke] at hpassing
  obtain ⟨⟨⟩, hchecked⟩ := error?_eq_none_iff.mp hpassing
  refine ⟨signature, by rw [htype, Option.bind_some, hinvoke], fun param hparam => ?_⟩
  obtain ⟨crossing, -, hmade⟩ := exists_of_forall₂ (mapM_eq_ok_iff.mp hparams) hparam
  obtain ⟨description, hdescribed, -⟩ := crossingAfresh_eq_ok hmade
  obtain ⟨found, hfound, -⟩ := exists_type_of_describeAfresh hdescribed
  exact ⟨found, hfound, hcrosses.params param hparam found hfound,
    supports_of_checkPassing hchecked param hparam⟩

/--
**Which types cross as parameters.**  Whatever was requested before, every description answers
for a type without rules that neither its values nor places for them can be converted, and for void
the same of its values, but not of its places.  So a delegate has bindings exactly if nothing else
objects to it and the types of its signature cross: for parameters passed by value those that have
values with rules, and for `ref` parameters, in Kotlin only, all but those without rules.  No
parameter of a delegate with bindings has a type without rules, and one of them is void only if it is
passed by reference, in Kotlin, and with the feature for this switched on.
-/
theorem wrap_succeeds_iff_crosses {catalogue after : Catalogue} {outcome : Except Refusal Wrapper}
    (hreached : catalogue.Reached types settings.unspecified)
    (h : (wrap types settings native key).on catalogue = some (outcome, after)) :
    (∀ described description,
      ((describe types settings.unspecified described).on catalogue).1 = .ok description →
        description.FailsByCategory) ∧
    ((∃ wrapper, outcome = .ok wrapper) ↔
      (∀ requirement, requirement ≠ convertible →
        objection types settings native key requirement = none) ∧
      ∀ signature ∈ (types.get? key).bind (·.invoke), signature.Crosses types settings) ∧
    ∀ wrapper, outcome = .ok wrapper →
      ∃ signature, (types.get? key).bind (·.invoke) = some signature ∧
        ∀ param ∈ signature.params, ∃ found, types.get? param.type = some found ∧
          (∀ why, Category.ofShape found.shape ≠ .unrecognized why) ∧
          (Category.ofShape found.shape = .void → param.passing = .byRef ∧
            settings.host = .kotlin ∧ settings.features.byRefParameters = true) := by
  have hwrapper := exists_wrapper_iff_of_on hreached h
  refine ⟨?_, hwrapper.trans forall_objection_eq_none_iff, ?_⟩
  · obtain ⟨requests, rfl⟩ := hreached
    intro described description hdescribed
    rw [fst_on_describe] at hdescribed
    exact (namesSpelled_of_describeAlong hdescribed).failsByCategory
      (ruled_of_describeAlong hdescribed)
  · intro wrapper hok
    obtain ⟨signature, hsignature, hparams⟩ := exists_crossing_types (hwrapper.mp ⟨wrapper, hok⟩)
    refine ⟨signature, hsignature, fun param hparam => ?_⟩
    obtain ⟨found, hfound, hcrosses, hsupported⟩ := hparams param hparam
    exact ⟨found, hfound, hcrosses.void_only_byRef hsupported⟩

/-- A delegate that takes a place of nothing. -/
def fillingTypes : Reflection :=
  let params : List Param := [{ name := "x", type := .void, passing := .byRef }]
  (TypeStore.empty.register
    (.namedDelegate "App.Fill" { params, returnType := .void })).2.reflection

def fillingSettings : Settings := { features := { byRefParameters := true } }

/-- It has bindings, although void has no values to be converted. -/
theorem wrap_filling :
    ∃ (wrapper : Wrapper) (after : Catalogue) (signature : Signature) (param : Param)
      (description : Description),
      (wrap fillingTypes fillingSettings (.conventional fillingTypes fillingTypes.keys) ⟨32⟩).on
        .empty = some (.ok wrapper, after) ∧
      (fillingTypes.get? ⟨32⟩).bind (·.invoke) = some signature ∧
      param ∈ signature.params ∧ param.type = .void ∧ param.passing = .byRef ∧
      ((describe fillingTypes .nonNull .void).on .empty).1 = .ok description ∧
      description.convert .kotlinJna .kotlin .nonNull =
        .error (.unrecognizedKind description.fullName "void has no value") ∧
      error? (description.convertByRef .kotlinJna .kotlin) = none := by
  obtain ⟨wrapper, after, hrun⟩ := exists_ok_of_isOk
    (show ((wrap fillingTypes fillingSettings (.conventional fillingTypes fillingTypes.keys)
      ⟨32⟩).on .empty).any (fun (outcome, _) => outcome.isOk) = true by decide +kernel)
  obtain ⟨hdescriptions, -, hcrossing⟩ := wrap_succeeds_iff_crosses Catalogue.reached_empty hrun
  obtain ⟨signature, hsignature, hparams⟩ := hcrossing wrapper rfl
  have hcategory : ((describe fillingTypes .nonNull .void).on .empty).1.map (·.category) =
      .ok .void := by
    decide +kernel
  obtain ⟨description, hdescribed, hvoid⟩ := map_eq_ok hcategory
  have hfails := (hdescriptions .void description hdescribed).void hvoid .kotlinJna .kotlin
  have htypes : ((fillingTypes.get? ⟨32⟩).bind (·.invoke)).map (·.params.map (·.type)) =
      some [.void] := by
    decide +kernel
  rw [hsignature, Option.map_some] at htypes
  obtain ⟨param, _, hsplit, htype, -⟩ := List.map_eq_cons_iff.mp (Option.some.inj htypes)
  have hparam : param ∈ signature.params := hsplit ▸ List.mem_cons_self
  obtain ⟨found, hfound, -, hplace⟩ := hparams param hparam
  have hshape : (fillingTypes.get? .void).map (·.shape) = some .void := by decide +kernel
  rw [← htype, hfound] at hshape
  have hfoundVoid : found.shape = .void := Option.some.inj hshape
  obtain ⟨hpassing, -⟩ := hplace (by rw [hfoundVoid]; rfl)
  exact ⟨wrapper, after, signature, param, description, hrun, hsignature, hparam, htype, hpassing,
    hdescribed, (hfails .nonNull).1, (hfails .nonNull).2⟩

end

end Interop
