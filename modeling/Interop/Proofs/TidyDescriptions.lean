/-
A description never breaks a line.

Whatever types are called, their names in every language stand on one line, and so do
their conversions.  A conversion is what the rules come to for the type, and it mentions
nothing but these names.
-/
import Interop.Proofs.FilledPatterns
import Interop.Proofs.SpelledNames
import Interop.Proofs.Written

namespace Interop

namespace Identifier

theorem oneLine_ofFullName (fullName : String) : OneLine (ofFullName fullName) :=
  (Description.spelled_ofFullName fullName).oneLine

/-- Backticks break no line. -/
theorem oneLine_escape {name : String} (h : OneLine name) (language : Language) :
    OneLine (escape language name) := by
  unfold escape
  split
  · exact .append (.append (by decide) h) (by decide)
  · exact h

end Identifier

namespace Description

/-! ### What the tables hold -/

/-- A description whose tables hold what the rules come to, for every conversion. -/
structure Ruled (d : Description) : Prop where
  convert_eq (source target : Language) (nullness : Nullness) :
    d.convert source target nullness =
      workOutConversion d.category d.fullName d.baseNames ⟨source, target, nullness⟩
  convertByRef_eq (source target : Language) :
    d.convertByRef source target = workOutByRef d.category d.fullName d.baseNames source target

theorem ruled_build (unspecified : Nullness) (key : TypeKey) (type : ManagedType)
    (declaredName : String) (parts : List Description) :
    (build unspecified key type declaredName parts).Ruled where
  convert_eq source target nullness := by
    unfold convert build
    dsimp only
    rw [List.lookup_graph _ (Route.mem_all _)]
  convertByRef_eq source target := by
    unfold convertByRef build
    dsimp only
    rw [List.lookup_graph _ (Language.mem_pairs _)]

/-! ### Lines -/

/-- A description whose names and conversions break no line. -/
structure Tidy (d : Description) : Prop where
  name (request : NameRequest) : OneLine (d.name request)
  convert {source target : Language} {nullness : Nullness} {template : Template}
    (h : d.convert source target nullness = .ok (some template)) : template.Closed
  convertByRef {source target : Language} {template : Template}
    (h : d.convertByRef source target = .ok (some template)) : template.Closed

section

variable {names : PerLanguage String} (hnames : ∀ language, OneLine (names.get language))
  {category : Category} {fullName : String} {template : Template}

include hnames

theorem closed_of_workOutConversion {route : Route}
    (h : workOutConversion category fullName names route = .ok (some template)) :
    template.Closed := by
  cases category with
  | void | unrecognized => cases h
  | value kind =>
      obtain ⟨rule, hrule, h⟩ := bind_eq_ok h
      exact Rule.closed_of_specialize (hnames _) hrule h

theorem closed_of_workOutByRef {source target : Language}
    (h : workOutByRef category fullName names source target = .ok (some template)) :
    template.Closed := by
  cases category with
  | unrecognized => cases h
  | void | value =>
      obtain ⟨rule, hrule, h⟩ := bind_eq_ok h
      exact Rule.closed_of_specialize (hnames _) hrule h

end

/-- **A description with spelled names and ruled conversions is tidy.** -/
theorem NamesSpelled.tidy {d : Description} (h : d.NamesSpelled) (hruled : d.Ruled) : d.Tidy where
  name request := (h.name request).oneLine
  convert hconvert :=
    closed_of_workOutConversion (fun language => (h.baseName language).oneLine)
      ((hruled.convert_eq ..).symm.trans hconvert)
  convertByRef hconvert :=
    closed_of_workOutByRef (fun language => (h.baseName language).oneLine)
      ((hruled.convertByRef_eq ..).symm.trans hconvert)

end Description

section

variable {types : Reflection} {unspecified : Nullness} {path : List TypeKey} {key : TypeKey}
  {description : Description}
  (h : describeAlong types unspecified path key = .ok description)

include h

theorem ruled_of_describeAlong : description.Ruled := by
  obtain ⟨type, declaredName, parts, -, -, -, -, rfl⟩ := describeAlong_eq_ok h
  exact Description.ruled_build ..

/-- Everything that can be described is tidy. -/
theorem tidy_of_describeAlong : description.Tidy :=
  (namesSpelled_of_describeAlong h).tidy (ruled_of_describeAlong h)

end

/-! ### Parameters -/

namespace Crossing

/-- A parameter that breaks no line. -/
structure Tidy (param : Crossing) : Prop where
  name : OneLine param.name
  description : param.description.Tidy

theorem Tidy.identifier {param : Crossing} (h : param.Tidy) (language : Language) :
    OneLine (param.identifier language) :=
  Identifier.oneLine_escape h.name language

theorem Tidy.typeName {param : Crossing} (h : param.Tidy) (language : Language) :
    OneLine (param.typeName language) :=
  h.description.name _

theorem Tidy.declaration {param : Crossing} (h : param.Tidy) (host : Host) (language : Language) :
    OneLine (param.declaration host language) := by
  have hname := h.identifier language
  have htype := h.typeName language
  cases host with
  | kotlin => exact (hname.append (by decide)).append htype
  | swift => exact ((OneLine.append (by decide) hname).append (by decide)).append htype

theorem Tidy.conversion {param : Crossing} (h : param.Tidy) {source target : Language}
    {template : Template} (hconversion : param.conversion source target = .ok (some template)) :
    template.Closed := by
  unfold Crossing.conversion at hconversion
  split at hconversion
  · exact h.description.convert hconversion
  · exact h.description.convertByRef hconversion
  · exact h.description.convertByRef hconversion
  · exact h.description.convertByRef hconversion

end Crossing

/-! ### Delegates -/

/-- A delegate none of whose values breaks a line. -/
structure ResolvedDelegate.Tidy (delegate : ResolvedDelegate) : Prop where
  params : ∀ param ∈ delegate.params, param.Tidy
  result : delegate.returnDescription.Tidy

theorem ResolvedDelegate.Tidy.returnTypeName {delegate : ResolvedDelegate} (h : delegate.Tidy)
    (language : Language) : OneLine (delegate.returnTypeName language) :=
  h.result.name _

/-- What bindings are made from is tidy, if its parameters are called so. -/
theorem Wrapper.MadeFrom.tidy {wrapper : Wrapper} {types : Reflection} {settings : Settings}
    {native : NativeLayer} {key : TypeKey} {type returned : ManagedType} {signature : Signature}
    {symbols : NativeSymbols} {delegate : ResolvedDelegate}
    (h : wrapper.MadeFrom types settings native key type signature returned symbols delegate)
    (hnames : ∀ param ∈ signature.params, OneLine param.name) : delegate.Tidy := by
  refine ⟨fun crossing hcrossing => ?_, tidy_of_describeAlong h.result_eq⟩
  obtain ⟨param, hparam, description, hdescribed, rfl⟩ :=
    exists_param_of_mem h.params_eq hcrossing
  exact ⟨hnames param hparam, tidy_of_describeAlong hdescribed⟩

end Interop
