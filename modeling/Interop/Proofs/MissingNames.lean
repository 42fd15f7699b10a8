/-
Whose name is missing.

A type without a full name is refused for that before anything else is asked of it.  But
the same refusal is made where a type of the signature, or one that it leads to, has no
full name: the error of a description is turned into a refusal without a look at the type
that it is about.  So the refusal tells that a name is missing and not whose, while any
other error of a description is told as one of the signature.

Which of both it is depends on the first type of the signature that cannot be described.
All before it can be, so the error is its own, and it is true of something that this type
leads to.
-/
import Interop.Proofs.Describable
import Interop.Proofs.Written

namespace Interop

/-- The first of some keys that cannot be described, with the error. -/
def Reflection.FirstFault (types : Reflection) (unspecified : Nullness) (keys : List TypeKey)
    (part : TypeKey) (error : DescriptionError) : Prop :=
  ∃ before after, keys = before ++ part :: after ∧
    describeAfresh types unspecified part = .error error ∧
    ∀ earlier ∈ before, types.Describable earlier

namespace Requirement

/-- The requirements that are asked before any type of the signature is described. -/
def beforeDescribing : List Requirement :=
  [known, named, delegate, declared, signed, returning, passing]

section

variable (types : Reflection) (settings : Settings) (native : NativeLayer) (key : TypeKey)

/-- A type meets all of these. -/
def MetBeforehand : Prop :=
  ∀ requirement ∈ beforeDescribing, requirement.objection types settings native key = none

instance : Decidable (MetBeforehand types settings native key) :=
  inferInstanceAs (Decidable (∀ requirement ∈ beforeDescribing,
    requirement.objection types settings native key = none))

end

theorem inOrder_eq : inOrder = beforeDescribing ++ [describable, convertible, matching] := rfl

end Requirement

section

variable {types : Reflection} {settings : Settings} {native : NativeLayer} {key : TypeKey}

open Requirement

/-! ### The first fault -/

theorem firstError?_eq_some_iff {unspecified : Nullness} {keys : List TypeKey}
    {error : DescriptionError} :
    firstError? (keys.map (describeAfresh types unspecified)) = some error ↔
      ∃ part, types.FirstFault unspecified keys part error := by
  simp only [firstError?_map_eq_some_iff, exists_describeAfresh_iff, Reflection.FirstFault]

/-- Where something cannot be described there is a first fault. -/
theorem exists_firstFault (unspecified : Nullness) {keys : List TypeKey}
    (h : ∃ part ∈ keys, ¬types.Describable part) :
    ∃ part error, types.FirstFault unspecified keys part error := by
  obtain ⟨part, hpart, hfault⟩ := h
  cases hfirst : firstError? (keys.map (describeAfresh types unspecified)) with
  | some error =>
      obtain ⟨first, hfault⟩ := firstError?_eq_some_iff.mp hfirst
      exact ⟨first, error, hfault⟩
  | none =>
      have hnone := List.findSome?_eq_none_iff.mp hfirst _ (List.mem_map_of_mem hpart)
      exact absurd (exists_describeAfresh_iff.mp (error?_eq_none_iff.mp hnone)) hfault

/-! ### Objections to names -/

/-- A missing name is objected to where the type's own is asked for, and where types are
described. -/
theorem eq_of_objection_noFullName {requirement : Requirement}
    (h : requirement.objection types settings native key = some .noFullName) :
    requirement = .named ∨ requirement = .describable := by
  cases requirement with
  | named => exact .inl rfl
  | describable => exact .inr rfl
  | _ => simp [objection, Option.bind_eq_some_iff] at h

variable (types settings native key) in
theorem objection_named_iff : objection types settings native key named = some .noFullName ↔
    ∃ type, types.get? key = some type ∧ type.fullName = none := by
  simp [objection, Option.bind_eq_some_iff]

/-- The first fault of a signature is objected to. -/
theorem objection_of_firstFault {type : ManagedType} {signature : Signature} {part : TypeKey}
    {error : DescriptionError} (htype : types.get? key = some type)
    (hinvoke : type.invoke = some signature)
    (hfault : types.FirstFault settings.unspecified (mentioned type signature) part error) :
    objection types settings native key describable = some (.ofDescription error) := by
  rw [objection_describable settings native htype hinvoke,
    firstError?_eq_some_iff.mpr ⟨part, hfault⟩]
  rfl

variable (types settings native key) in
theorem objection_describable_iff :
    objection types settings native key describable = some .noFullName ↔
      ∃ type signature part name, types.get? key = some type ∧ type.invoke = some signature ∧
        types.FirstFault settings.unspecified (mentioned type signature) part
          (.noFullName name) := by
  constructor
  · intro h
    obtain ⟨type, htype, h⟩ := Option.bind_eq_some_iff.mp h
    obtain ⟨signature, hinvoke, h⟩ := Option.bind_eq_some_iff.mp h
    obtain ⟨error, hfirst, h⟩ := Option.bind_eq_some_iff.mp h
    obtain ⟨part, hfault⟩ := firstError?_eq_some_iff.mp hfirst
    cases error with
    | noFullName name => exact ⟨type, signature, part, name, htype, hinvoke, hfault⟩
    | unknownType | cycle => cases h
  · rintro ⟨type, signature, part, name, htype, hinvoke, hfault⟩
    exact objection_of_firstFault htype hinvoke hfault

/-- A type without a full name is refused for it before anything else but its being there. -/
theorem findSome?_beforeDescribing {type : ManagedType} (htype : types.get? key = some type)
    (hname : type.fullName = none) :
    beforeDescribing.findSome? (objection types settings native key) = some .noFullName := by
  simp [beforeDescribing, objection, htype, hname]

/-- Once the requirements before it are met, what cannot be described decides. -/
theorem findSome?_inOrder_of_describable {refusal : Refusal}
    (hmet : MetBeforehand types settings native key)
    (h : objection types settings native key describable = some refusal) :
    inOrder.findSome? (objection types settings native key) = some refusal := by
  rw [inOrder_eq, List.findSome?_append, List.findSome?_eq_none_iff.mpr hmet, Option.none_or,
    List.findSome?_cons, h]

variable (types settings native key) in
/-- A missing name comes first exactly if it is the type's own, or if it is missing where the types
of the signature are described, and nothing was objected to before. -/
theorem findSome?_eq_noFullName_iff :
    inOrder.findSome? (objection types settings native key) = some .noFullName ↔
      objection types settings native key named = some .noFullName ∨
        MetBeforehand types settings native key ∧
          objection types settings native key describable = some .noFullName := by
  constructor
  · intro h
    rw [inOrder_eq, List.findSome?_append] at h
    cases hbefore : beforeDescribing.findSome? (objection types settings native key) with
    | some refusal =>
        rw [hbefore] at h
        cases h
        obtain ⟨requirement, hmem, hobjection⟩ := List.exists_of_findSome?_eq_some hbefore
        rcases eq_of_objection_noFullName hobjection with rfl | rfl
        · exact .inl hobjection
        · exact absurd hmem (by decide)
    | none =>
        rw [hbefore, Option.none_or] at h
        obtain ⟨requirement, hmem, hobjection⟩ := List.exists_of_findSome?_eq_some h
        rcases eq_of_objection_noFullName hobjection with rfl | rfl
        · exact absurd hmem (by decide)
        · exact .inr ⟨List.findSome?_eq_none_iff.mp hbefore, hobjection⟩
  · rintro (hnamed | ⟨hmet, hdescribable⟩)
    · obtain ⟨type, htype, hname⟩ := (objection_named_iff types settings native key).mp hnamed
      rw [inOrder_eq, List.findSome?_append, findSome?_beforeDescribing htype hname]
      rfl
    · exact findSome?_inOrder_of_describable hmet hdescribable

/-! ### Refusals -/

/-- An error of a description is told as one of the signature unless a name is missing. -/
theorem code_ofDescription_iff (error : DescriptionError) :
    (Refusal.ofDescription error).code = .e7006 ↔ ∀ name, error ≠ .noFullName name := by
  cases error <;> simp [Refusal.ofDescription, Refusal.code]

variable (types settings native key) in
/--
**A missing name is reported without saying whose it is.**  Where resolving comes to an
end, and whatever was requested before, a type is refused for having no full name exactly
if it has none, or if everything asked before is met and the first type of its signature
that cannot be described leads to a type without one.  Where everything asked before is
met and some type of the signature cannot be described, the refusal tells the error of the
first such type, which is true of it, and it is one of the signature unless the error is
a missing name.
-/
theorem wrap_noFullName_iff (requests : List TypeKey) (hends : ResolveEnds types settings key) :
    ∃ (outcome : Except Refusal Wrapper) (after : Catalogue),
      (wrap types settings native key).on
          (.afterRequests types settings.unspecified requests) = some (outcome, after) ∧
      (outcome = .error .noFullName ↔
        (∃ type, types.get? key = some type ∧ type.fullName = none) ∨
        MetBeforehand types settings native key ∧
          ∃ type signature part name, types.get? key = some type ∧
            type.invoke = some signature ∧
            types.FirstFault settings.unspecified (mentioned type signature) part
              (.noFullName name)) ∧
      ∀ type signature, types.get? key = some type → type.invoke = some signature →
        MetBeforehand types settings native key →
        (∃ part ∈ mentioned type signature, ¬types.Describable part) →
        ∃ part error,
          types.FirstFault settings.unspecified (mentioned type signature) part error ∧
          types.TellsTruth part error ∧
          outcome = .error (.ofDescription error) ∧
          ((Refusal.ofDescription error).code = .e7006 ↔ ∀ name, error ≠ .noFullName name) := by
  obtain ⟨outcome, houtcome⟩ := hends.exists_wrapAfresh native
  obtain ⟨after, hon⟩ := exists_on_of_wrapAfresh ⟨requests, rfl⟩ houtcome
  have hrefused (refusal : Refusal) : outcome = .error refusal ↔
      inOrder.findSome? (objection types settings native key) = some refusal := by
    rw [← error?_wrapAfresh native houtcome]
    cases outcome <;> simp
  refine ⟨outcome, after, hon, ?_, ?_⟩
  · rw [hrefused, findSome?_eq_noFullName_iff, objection_named_iff, objection_describable_iff]
  · intro type signature htype hinvoke hmet hexists
    obtain ⟨part, error, hfault⟩ := exists_firstFault settings.unspecified hexists
    have hobjection : objection types settings native key describable =
        some (.ofDescription error) := objection_of_firstFault htype hinvoke hfault
    obtain ⟨_, _, -, herror, -⟩ := id hfault
    exact ⟨part, error, hfault, tellsTruth_of_describeAfresh herror,
      (hrefused _).mpr (findSome?_inOrder_of_describable hmet hobjection),
      code_ofDescription_iff error⟩

/-- A delegate that takes a list of something without a name. -/
def anonymousTypes : Reflection :=
  let (element, store) := TypeStore.empty.register
    { name := "T", fullName := none, shape := .genericParameter }
  let (list, store) := store.registerGeneric "System.Collections.Generic.List`1" [element]
  let params : List Param := [{ name := "items", type := list }]
  (store.register (.namedDelegate "App.Sort" { params, returnType := .void })).2.reflection

/-- The delegate is refused for having no full name, and it has one. -/
theorem wrap_anonymous :
    (anonymousTypes.get? ⟨34⟩).bind (·.fullName) = some "App.Sort" ∧
    ∃ after, (wrap anonymousTypes {} (.conventional anonymousTypes anonymousTypes.keys) ⟨34⟩).on
      (.afterRequests anonymousTypes .nonNull []) = some (.error .noFullName, after) := by
  obtain ⟨outcome, after, hon, hmissing, -⟩ := wrap_noFullName_iff anonymousTypes {}
    (.conventional anonymousTypes anonymousTypes.keys) ⟨34⟩ [] ⟨1, by decide +kernel⟩
  have hfirst : firstError? ([.void, ⟨33⟩, .multicastDelegate].map
      (describeAfresh anonymousTypes .nonNull)) = some (.noFullName "T") := by
    rw [describeAfresh_eq_fst]
    decide +kernel
  obtain ⟨part, hfault⟩ := firstError?_eq_some_iff.mp hfirst
  have htype : anonymousTypes.get? ⟨34⟩ = some (.namedDelegate "App.Sort"
      { params := [{ name := "items", type := ⟨33⟩ }], returnType := .void }) := by
    decide +kernel
  have hrefused : outcome = .error .noFullName :=
    hmissing.mpr (.inr ⟨by decide +kernel, _, _, part, "T", htype, rfl, hfault⟩)
  exact ⟨by decide +kernel, after, hrefused ▸ hon⟩

end

end Interop
