/-
What is worked out in advance is what would be worked out when it is asked for.

The tables of a description are filled before anyone asks, in loops over the two languages
and, for values, over whether they may be absent.  Each entry is worked out from the
description as it is by then, with the tables half filled.  But the rules look at nothing
in the tables, so an entry comes to the same at any time, and each entry is for another
question: none is missing and none takes the place of another.

So every question finds its entry, which is what the rules say, and the answer for questions
without one is never given.
-/
import Interop.Proofs.Calls
import Interop.Proofs.TidyDescriptions

namespace Interop

theorem Route.nodup_all : all.Nodup := by decide

theorem Language.nodup_pairs : pairs.Nodup := by decide

namespace Description

/-! ### Asking the rules -/

/-- What the rules say of a conversion of values: void has none, some types have no rules, and all
others are converted by the rule for their kind, with the name the type has on the host's side. -/
def freshConversion (d : Description) (source target : Language) (nullness : Nullness) : Outcome :=
  match d.category with
  | .void => .error (.unrecognizedKind d.fullName "void has no value")
  | .unrecognized why => .error (.unrecognizedKind d.fullName why.text)
  | .value kind => do
    let rule ← Rule.find kind source target
    rule.specialize kind source target nullness (d.baseName (hostSide source target))

/-- What the rules say of a conversion of places that hold a value: types without rules have none,
and all others, void included, are converted by the rule for places. -/
def freshByRef (d : Description) (source target : Language) : Outcome :=
  match d.category with
  | .unrecognized why => .error (.unrecognizedKind d.fullName why.text)
  | .void | .value _ => do
    let rule ← Rule.find .byRef source target
    rule.specialize .byRef source target .nonNull (d.baseName (hostSide source target))

theorem workOutConversion_eq (d : Description) (route : Route) :
    workOutConversion d.category d.fullName d.baseNames route =
      d.freshConversion route.source route.target route.nullness := by
  unfold workOutConversion freshConversion
  cases d.category <;> rfl

theorem workOutByRef_eq (d : Description) (source target : Language) :
    workOutByRef d.category d.fullName d.baseNames source target =
      d.freshByRef source target := by
  unfold workOutByRef freshByRef
  cases d.category <;> rfl

/-- The entry of a conversion of values. -/
def valueEntry (d : Description) (route : Route) : Route × Outcome :=
  (route, d.freshConversion route.source route.target route.nullness)

/-- The entry of a conversion of places. -/
def placeEntry (d : Description) (pair : Language × Language) : (Language × Language) × Outcome :=
  (pair, d.freshByRef pair.1 pair.2)

/-! ### Filling the tables -/

/-- Enters a conversion of values, as it comes to on the description so far.  An entry hides those
that were made for the same conversion before. -/
def enterValue (d : Description) (route : Route) : Description :=
  { d with conversions := d.valueEntry route :: d.conversions }

/-- Enters a conversion of places in the same way. -/
def enterPlace (d : Description) (pair : Language × Language) : Description :=
  { d with byRefConversions := d.placeEntry pair :: d.byRefConversions }

/-- The conversions of values between two languages. -/
def routesOf (pair : Language × Language) : List Route :=
  Nullness.all.map fun nullness => ⟨pair.1, pair.2, nullness⟩

/-- Enters all conversions between two languages. -/
def enterPair (d : Description) (pair : Language × Language) : Description :=
  ((routesOf pair).foldl enterValue d).enterPlace pair

/-- Fills the tables, source by source and target by target. -/
def fillTables (d : Description) : Description :=
  Language.all.foldl
    (fun d source => Language.all.foldl (fun d target => d.enterPair (source, target)) d) d

/-- The description before its tables are filled. -/
def untabled (d : Description) : Description :=
  { d with conversions := [], byRefConversions := [] }

section

variable (d : Description)

theorem enterPair_eq (pair : Language × Language) :
    d.enterPair pair = { d with
      conversions := ((routesOf pair).map d.valueEntry).reverse ++ d.conversions
      byRefConversions := d.placeEntry pair :: d.byRefConversions } := rfl

/-- An entry comes to the same behind others. -/
theorem valueEntry_enterPair (pair : Language × Language) :
    (d.enterPair pair).valueEntry = d.valueEntry := rfl

theorem placeEntry_enterPair (pair : Language × Language) :
    (d.enterPair pair).placeEntry = d.placeEntry := rfl

/-- Any pairs in order enter what they would enter on the description as it was at first. -/
theorem foldl_enterPair (pairs : List (Language × Language)) :
    pairs.foldl enterPair d = { d with
      conversions := ((pairs.flatMap routesOf).map d.valueEntry).reverse ++ d.conversions
      byRefConversions := (pairs.map d.placeEntry).reverse ++ d.byRefConversions } := by
  induction pairs generalizing d with
  | nil => rfl
  | cons pair rest ih =>
      rw [List.foldl_cons, ih, valueEntry_enterPair, placeEntry_enterPair, enterPair_eq]
      simp

theorem fillTables_eq_foldl : d.fillTables = Language.pairs.foldl enterPair d := by
  simp only [fillTables, Language.pairs, List.foldl_flatMap, List.foldl_map]

/-- **Filling the tables enters every conversion,** as it comes to in the end. -/
theorem fillTables_untabled : d.untabled.fillTables = { d with
    conversions := (Route.all.map d.valueEntry).reverse
    byRefConversions := (Language.pairs.map d.placeEntry).reverse } := by
  have hroutes : Route.all = Language.pairs.flatMap routesOf := by decide
  have hvalue : d.untabled.valueEntry = d.valueEntry := rfl
  have hplace : d.untabled.placeEntry = d.placeEntry := rfl
  rw [fillTables_eq_foldl, foldl_enterPair, hvalue, hplace, hroutes]
  simp [untabled]

end

/-! ### Described types -/

/-- A description whose tables hold the entry of every conversion. -/
structure Tabulated (d : Description) : Prop where
  conversions : d.conversions = Route.all.map d.valueEntry
  byRefConversions : d.byRefConversions = Language.pairs.map d.placeEntry

theorem tabulated_build (unspecified : Nullness) (key : TypeKey) (type : ManagedType)
    (declaredName : String) (parts : List Description) :
    (build unspecified key type declaredName parts).Tabulated where
  conversions := by
    have hmade := workOutConversion_eq (build unspecified key type declaredName parts)
    exact List.map_congr_left fun route _ => congrArg (Prod.mk route) (hmade route)
  byRefConversions := by
    have hmade := workOutByRef_eq (build unspecified key type declaredName parts)
    exact List.map_congr_left fun pair _ => congrArg (Prod.mk pair) (hmade pair.1 pair.2)

namespace Tabulated

variable {d : Description} (h : d.Tabulated)

include h

theorem lookup_route (source target : Language) (nullness : Nullness) :
    d.conversions.lookup ⟨source, target, nullness⟩ =
      some (d.freshConversion source target nullness) := by
  rw [h.conversions]
  exact List.lookup_graph _ (Route.mem_all _)

theorem lookup_pair (source target : Language) :
    d.byRefConversions.lookup (source, target) = some (d.freshByRef source target) := by
  rw [h.byRefConversions]
  exact List.lookup_graph _ (Language.mem_pairs _)

theorem map_fst_conversions : d.conversions.map Prod.fst = Route.all := by
  have hkey : Prod.fst ∘ d.valueEntry = id := rfl
  rw [h.conversions, List.map_map, hkey, List.map_id]

theorem map_fst_byRefConversions : d.byRefConversions.map Prod.fst = Language.pairs := by
  have hkey : Prod.fst ∘ d.placeEntry = id := rfl
  rw [h.byRefConversions, List.map_map, hkey, List.map_id]

/-- Filling the tables anew gives the tables that are there, with the newest entry first. -/
theorem fillTables_untabled_eq : d.untabled.fillTables = { d with
    conversions := d.conversions.reverse
    byRefConversions := d.byRefConversions.reverse } := by
  rw [fillTables_untabled, h.conversions, h.byRefConversions]

end Tabulated

end Description

variable {types : Reflection} {unspecified : Nullness}

theorem tabulated_of_describeAlong {path : List TypeKey} {key : TypeKey}
    {description : Description}
    (h : describeAlong types unspecified path key = .ok description) : description.Tabulated := by
  obtain ⟨type, declaredName, parts, -, -, -, -, rfl⟩ := describeAlong_eq_ok h
  exact Description.tabulated_build ..

/--
**Conversions are worked out in advance as they would be when they are asked for.**  In
every description that a call comes to, for a request or for a part, each conversion has one
entry, which is found and is what the rules say; so this is the answer, and never the one
for conversions without an entry.  Filling the empty tables step by step, each entry worked
out with those before it in place, makes just these entries.
-/
theorem tables_precomputed {steps : Nat} {catalogue : Catalogue} {key : TypeKey}
    {description : Description} (hcall : Calls types unspecified steps catalogue key)
    (h : ((describeWithin types unspecified steps key).on catalogue).1 = .ok description) :
    (description.conversions.map Prod.fst).Nodup ∧
    (description.byRefConversions.map Prod.fst).Nodup ∧
    (∀ source target nullness,
      description.conversions.lookup ⟨source, target, nullness⟩ =
        some (description.freshConversion source target nullness) ∧
      description.convert source target nullness =
        description.freshConversion source target nullness) ∧
    (∀ source target,
      description.byRefConversions.lookup (source, target) =
        some (description.freshByRef source target) ∧
      description.convertByRef source target = description.freshByRef source target) ∧
    description.untabled.fillTables = { description with
      conversions := description.conversions.reverse
      byRefConversions := description.byRefConversions.reverse } := by
  obtain ⟨after, -, hon⟩ := hcall.on_describeWithin
  rw [hon] at h
  have htabulated := tabulated_of_describeAlong h
  refine ⟨?_, ?_, fun source target nullness => ?_, fun source target => ?_,
    htabulated.fillTables_untabled_eq⟩
  · rw [htabulated.map_fst_conversions]
    exact Route.nodup_all
  · rw [htabulated.map_fst_byRefConversions]
    exact Language.nodup_pairs
  · have hfound := htabulated.lookup_route source target nullness
    exact ⟨hfound, by rw [Description.convert, hfound]⟩
  · have hfound := htabulated.lookup_pair source target
    exact ⟨hfound, by rw [Description.convertByRef, hfound]⟩

/-- An array that was described as a part of a type without a description. -/
theorem tables_precomputed_halfNamed :
    ∃ description,
      Calls halfNamed .nonNull (halfNamed.keys.length + 1)
        (.afterRequests halfNamed .nonNull [⟨43⟩]) ⟨41⟩ ∧
      ((describeWithin halfNamed .nonNull (halfNamed.keys.length + 1) ⟨41⟩).on
        (.afterRequests halfNamed .nonNull [⟨43⟩])).1 = .ok description ∧
      description.freshConversion .kotlinJna .kotlin .nonNull =
        .ok (some ⟨"DNArray<App_Node>(", ")"⟩) ∧
      description.convert .kotlinJna .kotlin .nonNull =
        description.freshConversion .kotlinJna .kotlin .nonNull ∧
      description.convertByRef .c .swift = description.freshByRef .c .swift := by
  have hfresh : ((describeWithin halfNamed .nonNull (halfNamed.keys.length + 1) ⟨41⟩).on
      (.afterRequests halfNamed .nonNull [⟨43⟩])).1.map
        (·.freshConversion .kotlinJna .kotlin .nonNull) =
      .ok (.ok (some ⟨"DNArray<App_Node>(", ")"⟩)) := by
    decide +kernel
  obtain ⟨description, houtcome, hconversion⟩ := map_eq_ok hfresh
  have hcall : Calls halfNamed .nonNull (halfNamed.keys.length + 1)
      (.afterRequests halfNamed .nonNull [⟨43⟩]) ⟨41⟩ := .request [⟨43⟩] ⟨41⟩
  obtain ⟨-, -, hvalues, hplaces, -⟩ := tables_precomputed hcall houtcome
  exact ⟨description, hcall, houtcome, hconversion, (hvalues _ _ _).2, (hplaces _ _).2⟩

end Interop
