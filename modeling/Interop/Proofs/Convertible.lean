/-
What can be converted.

A template mentions the host's name of a type, and no such name has a hole.  So it is
never for its name that a value cannot be converted.  It is for what the type is: void
has no values, and for pointers and open parameters there are no rules.  Every other
type has rules on all passages.  So the same types fail for both hosts, in either
direction and with the same error.

Only places that hold a value are treated differently.  Swift has no rules for them.
-/
import Interop.Proofs.Checked
import Interop.Proofs.TidyDescriptions

namespace Interop

/-! ### Rules on passages -/

theorem Passage.source_ne_target (passage : Passage) : passage.source ≠ passage.target := by
  obtain ⟨host, direction⟩ := passage
  cases host <;> cases direction <;> decide

namespace Rule

theorem find_passage (kind : ValueKind) (passage : Passage) :
    find kind passage.source passage.target = .ok (onPassage kind passage) := by
  rw [find, if_neg passage.source_ne_target, Passage.between?_source_target]

/-- Values of every kind pass in all directions, but places do not pass to Swift. -/
theorem onPassage_eq_unsupported_iff {kind : ValueKind} {passage : Passage} :
    onPassage kind passage = .unsupported ↔ kind = .byRef ∧ passage.host = .swift := by
  obtain ⟨host, direction⟩ := passage
  cases host <;> cases direction <;> cases kind with
  | primitive p => cases p <;> decide
  | enumeration | string | optionalWrapper | referenceObject | byteSpan | byRef => decide

/-- Values of all kinds but places pass wherever there are rules. -/
theorem ne_unsupported_of_find {rule : Rule} {kind : ValueKind} {source target : Language}
    (hkind : kind ≠ .byRef) (h : find kind source target = .ok rule) : rule ≠ .unsupported := by
  obtain rfl | ⟨passage, rfl⟩ := find_eq_ok h
  · nofun
  · exact fun hunsupported => hkind (onPassage_eq_unsupported_iff.mp hunsupported).1

end Rule

/-! ### Categories -/

namespace Category

/-- Why the values of a type cannot be converted, if its category has none or no rules for them. -/
def fault? (typeName : String) : Category → Option ConversionError
  | .void => some (.unrecognizedKind typeName "void has no value")
  | .unrecognized why => some (.unrecognizedKind typeName why.text)
  | .value _ => none

/-- No type is the type of places. -/
theorem ofShape_ne_byRef (shape : Shape) : ofShape shape ≠ .value .byRef := by
  cases shape <;> nofun

end Category

/-! ### Descriptions -/

namespace Description

/-- There is no hole in a name, so none comes into a template that mentions it. -/
theorem Spelled.cut_eq_none {text : String} (h : Spelled text) :
    Template.cut text.toList = none := by
  rw [Template.cut_eq_none_iff]
  exact fun hhole => h.not_mem (by decide) (hhole.subset (by decide : '{' ∈ _))

/-- Values of a kind fail to be converted where there is no rule to be found for them. -/
theorem NamesSpelled.error?_convert {d : Description} (h : d.NamesSpelled) (hruled : d.Ruled)
    {kind : ValueKind} (hcategory : d.category = .value kind) (hkind : kind ≠ .byRef)
    (source target : Language) (nullness : Nullness) :
    error? (d.convert source target nullness) = error? (Rule.find kind source target) := by
  rw [hruled.convert_eq]
  unfold workOutConversion
  rw [hcategory]
  dsimp only
  cases hrule : Rule.find kind source target with
  | error error => rfl
  | ok rule =>
      have hname := (h.baseName (hostSide source target)).cut_eq_none
      have hspecialize := Rule.error?_specialize hname hrule nullness
      rw [if_neg (Rule.ne_unsupported_of_find hkind hrule)] at hspecialize
      exact hspecialize

/-- A description whose values are converted on all passages, or fail on all of them for what the
type is. -/
def ConvertsAlike (d : Description) : Prop :=
  ∀ (passage : Passage) (nullness : Nullness),
    error? (d.convert passage.source passage.target nullness) = d.category.fault? d.fullName

theorem NamesSpelled.convertsAlike {d : Description} (h : d.NamesSpelled) (hruled : d.Ruled)
    (hcategory : d.category ≠ .value .byRef) : d.ConvertsAlike := by
  intro passage nullness
  cases hkind : d.category with
  | void | unrecognized =>
      rw [hruled.convert_eq, hkind]
      rfl
  | value kind =>
      have hvalue : kind ≠ .byRef := fun heq => hcategory (heq ▸ hkind)
      rw [h.error?_convert hruled hkind hvalue, Rule.find_passage]
      rfl

/-- Places do not pass to Swift or from there. -/
theorem Ruled.exists_error_convertByRef {d : Description} (h : d.Ruled) {passage : Passage}
    (hswift : passage.host = .swift) :
    ∃ error, d.convertByRef passage.source passage.target = .error error := by
  have hunsupported : Rule.onPassage .byRef passage = .unsupported :=
    Rule.onPassage_eq_unsupported_iff.mpr ⟨rfl, hswift⟩
  rw [h.convertByRef_eq]
  unfold workOutByRef
  cases d.category with
  | unrecognized why => exact ⟨_, rfl⟩
  | void | value =>
      refine ⟨.unsupported .byRef passage.source passage.target, ?_⟩
      dsimp only
      rw [Rule.find_passage, ok_bind, hunsupported]
      rfl

end Description

/-- Everything that can be described is converted alike. -/
theorem convertsAlike_of_describeAlong {types : Reflection} {unspecified : Nullness}
    {path : List TypeKey} {key : TypeKey} {description : Description}
    (h : describeAlong types unspecified path key = .ok description) :
    description.ConvertsAlike := by
  refine (namesSpelled_of_describeAlong h).convertsAlike (ruled_of_describeAlong h) ?_
  obtain ⟨type, declaredName, parts, -, -, -, -, rfl⟩ := describeAlong_eq_ok h
  exact Category.ofShape_ne_byRef type.shape

/-! ### Delegates -/

/-- The errors of a parameter passed by value, to the host and back. -/
theorem Crossing.map_error?_outcomes {param : Crossing} (hvalue : param.passing = .byValue)
    (h : param.description.ConvertsAlike) (host : Host) :
    (outcomes host param).map error? =
      List.replicate 2 (param.description.category.fault? param.description.fullName) := by
  have hin := h ⟨host, .toHost⟩ param.nullness
  have hout := h ⟨host, .toNative⟩ param.nullness
  unfold outcomes conversion
  rw [hvalue]
  exact congrArg₂ (fun first second => [first, second]) hin hout

theorem map_error?_returnOutcomes {description : Description} (h : description.ConvertsAlike)
    (host : Host) (nullness : Nullness) :
    (returnOutcomes host description nullness).map error? =
      if description.isVoid then []
      else List.replicate 2 (description.category.fault? description.fullName) := by
  have hin := h ⟨host, .toHost⟩ nullness
  have hout := h ⟨host, .toNative⟩ nullness
  unfold returnOutcomes
  split
  · rfl
  · exact congrArg₂ (fun first second => [first, second]) hout hin

/-- **The same conversion fails first for both hosts,** where all parameters are passed by
value. -/
theorem firstError?_outcomes_host {params : List Crossing} {returned : Description}
    (hvalue : ∀ param ∈ params, param.passing = .byValue)
    (hparams : ∀ param ∈ params, param.description.ConvertsAlike)
    (hreturned : returned.ConvertsAlike) (nullness : Nullness) (first second : Host) :
    firstError? (params.flatMap (Crossing.outcomes first) ++
        returnOutcomes first returned nullness) =
      firstError? (params.flatMap (Crossing.outcomes second) ++
        returnOutcomes second returned nullness) := by
  have herrors (host : Host) : (params.flatMap (Crossing.outcomes host)).map error? =
      params.flatMap fun param =>
        List.replicate 2 (param.description.category.fault? param.description.fullName) := by
    rw [List.map_flatMap]
    exact List.flatMap_congr fun param hparam =>
      Crossing.map_error?_outcomes (hvalue param hparam) (hparams param hparam) host
  refine firstError?_congr ?_
  rw [List.map_append, List.map_append, herrors, herrors, map_error?_returnOutcomes hreturned,
    map_error?_returnOutcomes hreturned]

end Interop
