/-
The type that a closure takes a place of, and the type of the place that it is given.

A `ref` parameter stands for a place that holds a value.  The type of a Kotlin closure
names such a place by what it holds, and the callback wraps the native address in an
object whose type is named once more.  The two names are made apart from each other.  The
first is made for the member, and what it says of the held value includes whether that
may be absent.  The second is part of a template, which is worked out once for the type,
before anything is known of its members, and from the base name alone.

So they are the same unless the name of the held value is marked.  Then the closure takes
a place that may be empty, and is given one whose type says that it never is.
-/
import Interop.Proofs.ConvertedParameters
import Interop.Proofs.Convertible
import Interop.Proofs.OverriddenTypes

namespace Interop

/-! ### Marks -/

namespace Description

/-- Hosts mark the name of the type for a member with such values: because this one may be absent,
or because all of them may. -/
def IsMarked (d : Description) (nullness : Nullness) : Prop :=
  d.category = .value .optionalWrapper ∨ d.ShowsNullness ∧ nullness = .nullable

/-- A name in a host is the base name, and a mark where there is one. -/
theorem nameWithNullness_host (d : Description) (host : Host) (nullness : Nullness) :
    ∃ mark, d.nameWithNullness host.language nullness = d.baseName host.language ++ mark ∧
      (mark = "?" ∧ d.IsMarked nullness ∨ mark = "" ∧ ¬d.IsMarked nullness) := by
  unfold nameWithNullness IsMarked ShowsNullness
  cases hcategory : d.category with
  | void | unrecognized => exact ⟨"", by simp [Category.valueKind?], by simp⟩
  | value kind =>
      cases kind with
      | primitive | enumeration | byteSpan | byRef =>
          exact ⟨"", by simp [Category.valueKind?, ValueKind.isReferenceLike], by simp⟩
      | optionalWrapper =>
          refine ⟨"?", ?_, by simp⟩
          cases host <;> simp [Category.valueKind?, ValueKind.isReferenceLike, markNullness,
            Host.language]
      | string | referenceObject =>
          cases nullness with
          | nullable =>
              refine ⟨"?", ?_, by simp⟩
              cases host <;> rfl
          | nonNull =>
              refine ⟨"", ?_, by simp⟩
              cases host <;> simp [Category.valueKind?, ValueKind.isReferenceLike, markNullness,
                Host.language, Nullness.isNullable]

/-! ### Templates for places -/

/-- The template that makes an object for a place, given the name of what the place holds. -/
def placeTemplate (held : String) : Template := ⟨"DNRef<" ++ held ++ ">(", ")"⟩

/-- Places enter Kotlin through an object with the base name of what they hold. -/
theorem NamesSpelled.convertByRef_kotlin {d : Description} (h : d.NamesSpelled) (hruled : d.Ruled)
    (hrules : ∀ why, d.category ≠ .unrecognized why) :
    d.convertByRef .kotlinJna .kotlin = .ok (some (placeTemplate (d.baseName .kotlin))) := by
  have hname := (h.baseName .kotlin).cut_eq_none
  let pattern : Pattern := [.text "DNRef<", .hostType, .text ">(", .value, .text ")"]
  have hread : Template.read (pattern.fill (d.baseName .kotlin)) =
      .ok (placeTemplate (d.baseName .kotlin)) := by
    rw [Pattern.read_fill (by decide) fun _ => hname]
    simp [pattern, Pattern.front, Pattern.back, Pattern.fill, Piece.fill, placeTemplate,
      String.join, String.append_assoc]
  have hrule : Rule.find .byRef .kotlinJna .kotlin = .ok (.always pattern) := rfl
  have hworked : (do
      let rule ← Rule.find .byRef .kotlinJna .kotlin
      rule.specialize .byRef .kotlinJna .kotlin .nonNull (d.baseName .kotlin)) =
      .ok (some (placeTemplate (d.baseName .kotlin))) := by
    rw [hrule, ok_bind, Rule.always, Rule.specialize, Rule.choose, hread]
    rfl
  rw [hruled.convertByRef_eq, ← hworked]
  unfold workOutByRef
  cases hcategory : d.category with
  | unrecognized why => exact absurd hcategory (hrules why)
  | void | value => rfl

/-- There are no places for values without rules. -/
theorem Ruled.ne_unrecognized_of_convertByRef {d : Description} (hruled : d.Ruled)
    {source target : Language} {conversion : Option Template}
    (h : d.convertByRef source target = .ok conversion) : ∀ why, d.category ≠ .unrecognized why := by
  intro why hcategory
  rw [hruled.convertByRef_eq, hcategory] at h
  cases h

end Description

/-! ### Parameters -/

/-- Two relations between the members of three lists are one between pairs and members. -/
theorem forall₂_zip_left {α β γ : Type} {R : α → β → Prop} {S : β → γ → Prop} {as : List α}
    {bs : List β} {cs : List γ} (h : List.Forall₂ R as bs) (h' : List.Forall₂ S bs cs) :
    List.Forall₂ (fun pair c => R pair.1 pair.2 ∧ S pair.2 c) (as.zip bs) cs := by
  induction h generalizing cs with
  | nil =>
      cases h'
      exact .nil
  | cons hfirst _ ih =>
      cases h' with
      | cons hfirst' hrest' => exact .cons ⟨hfirst, hfirst'⟩ (ih hrest')

namespace Crossing

/-- A place on its way to a Kotlin closure.  `taken` is the name of what the closure takes a place
of, and `held` the name of what the place that it is given is said to hold. -/
structure EntersAs (param : Crossing) (arrival : Arrival) (template : Template)
    (taken held : String) : Prop where
  typeName_eq : param.typeName .kotlin = "DNRef<" ++ taken ++ ">"
  conversion_eq : param.conversion .kotlinJna .kotlin = .ok (some template)
  apply_eq (expression : String) :
    template.apply expression = "DNRef<" ++ held ++ ">(" ++ expression ++ ")"
  arrival_eq : ∃ name, arrival = .converted name (template.apply (param.identifier .kotlin))

/-- The place is given by the name it is taken by exactly if it holds what is taken. -/
theorem EntersAs.apply_eq_iff {param : Crossing} {arrival : Arrival} {template : Template}
    {taken held : String} (h : param.EntersAs arrival template taken held) (expression : String) :
    template.apply expression = param.typeName .kotlin ++ "(" ++ expression ++ ")" ↔
      taken = held := by
  rw [h.apply_eq, h.typeName_eq, String.append_left_inj, String.append_left_inj]
  constructor
  · intro heq
    have hheld : "DNRef<" ++ held ++ ">" = "DNRef<" ++ taken ++ ">" := by
      rw [← String.append_left_inj "(", ← heq, String.append_assoc]
      rfl
    exact ((String.append_right_inj _).mp ((String.append_left_inj _).mp hheld)).symm
  · rintro rfl
    simp only [String.append_assoc]
    rfl

/-- What the place is said to hold is named without a mark, and what the closure takes a place of
is named with one where the type has it for the parameter. -/
theorem Arrives.entersAs {param : Crossing} {arrival : Arrival}
    (h : Arrives .kotlinJna .kotlin .kotlin param arrival) (hpassing : param.passing = .byRef)
    (hspelled : param.description.NamesSpelled) (hruled : param.description.Ruled) :
    ∃ template mark, param.EntersAs arrival template (param.description.baseName .kotlin ++ mark)
        (param.description.baseName .kotlin) ∧
      (mark = "?" ∧ param.description.IsMarked param.nullness ∨
        mark = "" ∧ ¬param.description.IsMarked param.nullness) := by
  have hplace : param.conversion .kotlinJna .kotlin =
      param.description.convertByRef .kotlinJna .kotlin := by
    rw [conversion, hpassing]
  have hconverts {conversion : Option Template}
      (hsome : param.conversion .kotlinJna .kotlin = .ok conversion) :
      param.conversion .kotlinJna .kotlin =
        .ok (some (Description.placeTemplate (param.description.baseName .kotlin))) := by
    have hrules := hruled.ne_unrecognized_of_convertByRef (hplace.symm.trans hsome)
    exact hplace.trans (hspelled.convertByRef_kotlin hruled hrules)
  obtain ⟨mark, hname, hmark⟩ :=
    param.description.nameWithNullness_host .kotlin param.nullness
  have htypeName : param.typeName .kotlin =
      "DNRef<" ++ (param.description.baseName .kotlin ++ mark) ++ ">" := by
    rw [typeName, hpassing]
    exact congrArg (Description.nameOfPlace · .kotlin) hname
  cases h with
  | unchanged hnone => cases hnone.symm.trans (hconverts hnone)
  | converted n template hsome =>
      cases hsome.symm.trans (hconverts hsome)
      exact ⟨_, mark, ⟨htypeName, hsome, fun _ => rfl, _, rfl⟩, hmark⟩

end Crossing

section

variable {types : Reflection} {settings : Settings} {native : NativeLayer} {key : TypeKey}

variable (types settings) in
/-- A name of the parameter's type is marked in a host.  An optional wrapper always is, and a
string or an object where the parameter may be absent by its own word, its type's or the run's. -/
def Param.IsMarked (param : Param) : Prop :=
  ∃ type, types.get? param.type = some type ∧
    (Category.ofShape type.shape = .value .optionalWrapper ∨
      (Category.ofShape type.shape = .value .string ∨
        Category.ofShape type.shape = .value .referenceObject) ∧
      param.nullability.settleMember settings.unspecified type.nullability = .nullable)

variable (types settings) in
/-- How a declared parameter enters that is passed by reference.  The name that it is taken by and
the name that it is given by agree unless the parameter is marked. -/
def Param.PlaceEnters (member : Param × Crossing) (arrival : Crossing.Arrival) : Prop :=
  member.1.passing = .byRef →
    ∃ template taken held, member.2.EntersAs arrival template taken held ∧
      (∀ expression, template.apply expression =
        member.2.typeName .kotlin ++ "(" ++ expression ++ ")" ↔ ¬member.1.IsMarked types settings) ∧
      (member.1.IsMarked types settings → taken = held ++ "?")

/-- What is described is marked as it is declared. -/
theorem isMarked_of_crossingAfresh {param : Param} {crossing : Crossing}
    (h : crossingAfresh types settings param = .ok crossing) :
    crossing.description.IsMarked crossing.nullness ↔ param.IsMarked types settings := by
  obtain ⟨description, hdescribed, rfl⟩ := crossingAfresh_eq_ok h
  obtain ⟨type, declaredName, parts, htype, -, -, -, rfl⟩ := describeAlong_eq_ok hdescribed
  have hdefault : (Category.ofShape type.shape = .value .string ∨
      Category.ofShape type.shape = .value .referenceObject) →
      Description.buildDefault (.ofShape type.shape) type.nullability = type.nullability := by
    rintro (hkind | hkind) <;> rw [hkind] <;> rfl
  have hmarked : param.IsMarked types settings ↔
      Category.ofShape type.shape = .value .optionalWrapper ∨
        (Category.ofShape type.shape = .value .string ∨
          Category.ofShape type.shape = .value .referenceObject) ∧
        param.nullability.settleMember settings.unspecified type.nullability = .nullable := by
    unfold Param.IsMarked
    constructor
    · rintro ⟨other, hother, hcases⟩
      cases htype.symm.trans hother
      exact hcases
    · exact fun hcases => ⟨type, htype, hcases⟩
  rw [hmarked]
  refine or_congr_right (and_congr_right fun hkind => ?_)
  show param.nullability.settleMember settings.unspecified
    (Description.buildDefault (.ofShape type.shape) type.nullability) = .nullable ↔ _
  rw [hdefault hkind]

theorem placeEnters_of_arrives {member : Param × Crossing} {arrival : Crossing.Arrival}
    (h : crossingAfresh types settings member.1 = .ok member.2)
    (harrives : Crossing.Arrives .kotlinJna .kotlin .kotlin member.2 arrival) :
    Param.PlaceEnters types settings member arrival := by
  intro hpassing
  obtain ⟨description, hdescribed, hcrossing⟩ := crossingAfresh_eq_ok h
  have hplace : member.2.passing = .byRef := by
    rw [hcrossing]
    exact hpassing
  have hdescription : member.2.description = description := by rw [hcrossing]; rfl
  obtain ⟨template, mark, henters, hmark⟩ := harrives.entersAs hplace
    (hdescription ▸ namesSpelled_of_describeAlong hdescribed)
    (hdescription ▸ ruled_of_describeAlong hdescribed)
  rw [isMarked_of_crossingAfresh h] at hmark
  refine ⟨template, _, _, henters, fun expression => ?_, fun hmarked => ?_⟩
  · rw [henters.apply_eq_iff]
    rcases hmark with ⟨rfl, hmarked⟩ | ⟨rfl, hunmarked⟩
    · exact iff_of_false (fun heq => Description.ne_append_mark _ heq.symm) (not_not_intro hmarked)
    · exact iff_of_true String.append_empty hunmarked
  · rcases hmark with ⟨rfl, -⟩ | ⟨-, hunmarked⟩
    · rfl
    · exact absurd hmarked hunmarked

/--
**The type of a place and the type of the object for it.**  Take the bindings of a delegate in
Kotlin, whatever was requested before.  Every `ref` parameter enters through an object, and the
expression for it is the name of an object type around the native value in brackets.  It is the
parameter's own type name, which the closure type declares, exactly if the name of what the place
holds is not marked for this parameter.  If it is marked, the object's type lacks the mark.
-/
theorem wrap_place_types_agree_iff {catalogue after : Catalogue} {wrapper : Wrapper}
    (hkotlin : settings.host = .kotlin)
    (hreached : catalogue.Reached types settings.unspecified)
    (h : (wrap types settings native key).on catalogue = some (.ok wrapper, after)) :
    ∃ (type : ManagedType) (signature : Signature) (returned : ManagedType)
      (symbols : NativeSymbols) (delegate : ResolvedDelegate)
      (arrivals : List Crossing.Arrival) (calling : List Listing.Step),
      wrapper.MadeFrom types settings native key type signature returned symbols delegate ∧
      wrapper.createCallable = Callback.factory .kotlin Callback.creatorName symbols.functionType
        (Callback.bodySteps delegate symbols arrivals calling) ∧
      List.Forall₂ (Param.PlaceEnters types settings) (signature.params.zip delegate.params)
        arrivals := by
  obtain ⟨type, signature, returned, symbols, delegate, hmade⟩ := exists_madeFrom hreached h
  have hhost : delegate.host = .kotlin := hmade.host_eq.trans hkotlin
  obtain ⟨arrivals, calling, harrive, -, hcallable⟩ :=
    Callback.creator_eq_ok hmade.written.createCallable
  rw [hhost] at harrive hcallable
  have hparams := mapM_eq_ok_iff.mp hmade.params_eq
  have harrives := Crossing.arrives_of_arrive harrive
  refine ⟨type, signature, returned, symbols, delegate, arrivals, calling, hmade, hcallable, ?_⟩
  exact (forall₂_zip_left hparams harrives).imp fun _ _ hmember =>
    placeEnters_of_arrives hmember.1 hmember.2

/-- A place of a number. -/
def countPlace : Param := { name := "count", type := .int32, passing := .byRef }

/-- A place of a string that may be absent. -/
def textPlace : Param :=
  { name := "text", type := .string, passing := .byRef, nullability := .nullable }

/-- A delegate that takes both. -/
def editingTypes : Reflection :=
  (TypeStore.empty.register (.namedDelegate "App.Edit"
    { params := [countPlace, textPlace], returnType := .void })).2.reflection

def editingSettings : Settings := { features := { byRefParameters := true } }

theorem not_isMarked_countPlace : ¬countPlace.IsMarked editingTypes editingSettings := by
  rintro ⟨type, htype, hkind⟩
  have hshape : (editingTypes.get? countPlace.type).map (·.shape) = some (.primitive .int32) := by
    decide +kernel
  rw [htype] at hshape
  have hnumber : type.shape = .primitive .int32 := Option.some.inj hshape
  simp [hnumber, Category.ofShape] at hkind

theorem isMarked_textPlace : textPlace.IsMarked editingTypes editingSettings := by
  have hshape : (editingTypes.get? textPlace.type).map (·.shape) = some .string := by
    decide +kernel
  obtain ⟨type, htype, hstring⟩ := Option.map_eq_some_iff.mp hshape
  exact ⟨type, htype, .inr ⟨.inl (by rw [hstring]; rfl), rfl⟩⟩

/-- The number's place is given as it is taken, and the string's without its mark. -/
theorem wrap_editing :
    ∃ (wrapper : Wrapper) (after : Catalogue) (delegate : ResolvedDelegate)
      (symbols : NativeSymbols) (arrivals : List Crossing.Arrival) (calling : List Listing.Step)
      (first second : String),
      (wrap editingTypes editingSettings (.conventional editingTypes editingTypes.keys) ⟨32⟩).on
        .empty = some (.ok wrapper, after) ∧
      wrapper.createCallable = Callback.factory .kotlin Callback.creatorName symbols.functionType
        (Callback.bodySteps delegate symbols arrivals calling) ∧
      delegate.params.map (·.typeName .kotlin) = ["DNRef<Int>", "DNRef<String?>"] ∧
      arrivals = [.converted first "DNRef<Int>(count)", .converted second "DNRef<String>(text)"] := by
  obtain ⟨wrapper, after, hrun⟩ := exists_ok_of_isOk
    (show ((wrap editingTypes editingSettings (.conventional editingTypes editingTypes.keys)
      ⟨32⟩).on .empty).any (fun (outcome, _) => outcome.isOk) = true by decide +kernel)
  obtain ⟨type, signature, _, symbols, delegate, arrivals, calling, hmade, hcallable, hplaces⟩ :=
    wrap_place_types_agree_iff rfl Catalogue.reached_empty hrun
  have hsigned : ((editingTypes.get? ⟨32⟩).bind (·.invoke)).map (·.params) =
      some [countPlace, textPlace] := by
    decide +kernel
  rw [hmade.type_eq, Option.bind_some, hmade.signature_eq] at hsigned
  obtain ⟨_, hresolved⟩ := hmade.resolved
  have hmembers : ((resolve editingTypes editingSettings ⟨32⟩).on .empty).map (fun (outcome, _) =>
      outcome.toOption.map (·.params.map fun param =>
        (param.identifier .kotlin, param.typeName .kotlin))) =
      some (some [("count", "DNRef<Int>"), ("text", "DNRef<String?>")]) := by
    decide +kernel
  rw [hresolved] at hmembers
  obtain ⟨count, rest, hparams, hcount, hrest⟩ :=
    List.map_eq_cons_iff.mp (Option.some.inj (Option.some.inj hmembers))
  obtain ⟨text, none, rfl, htext, hnone⟩ := List.map_eq_cons_iff.mp hrest
  obtain rfl := List.map_eq_nil_iff.mp hnone
  obtain ⟨hcountName, hcountType⟩ := Prod.mk.inj hcount
  obtain ⟨htextName, htextType⟩ := Prod.mk.inj htext
  have hsignature : signature.params = [countPlace, textPlace] := Option.some.inj hsigned
  rw [hsignature, hparams] at hplaces
  rcases hplaces with _ | ⟨hfirst, _ | ⟨hsecond, _ | _⟩⟩
  obtain ⟨_, _, _, hentersCount, hagrees, -⟩ := hfirst rfl
  obtain ⟨_, taken, held, hentersText, -, hmark⟩ := hsecond rfl
  obtain ⟨first, hfirst⟩ := hentersCount.arrival_eq
  obtain ⟨second, hsecond⟩ := hentersText.arrival_eq
  have hnumber := (hagrees "count").mpr not_isMarked_countPlace
  have hplace : Description.nameOfPlace taken Host.kotlin.language =
      Description.nameOfPlace "String?" Host.kotlin.language :=
    hentersText.typeName_eq.symm.trans htextType
  have hheld : held ++ "?" = "String?" :=
    (hmark isMarked_textPlace).symm.trans (Description.nameOfPlace_inj.mp hplace)
  obtain rfl : held = "String" := (String.append_left_inj "?").mp hheld
  refine ⟨wrapper, after, delegate, symbols, _, calling, first, second, hrun, hcallable, ?_, ?_⟩
  · rw [hparams]
    exact congrArg₂ (fun a b => [a, b]) hcountType htextType
  · rw [hfirst, hsecond, hcountName, htextName, hnumber, hcountType, hentersText.apply_eq]
    rfl

end

end Interop
