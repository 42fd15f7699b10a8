/-
What stands in the catalogue at any moment.

A request calls for a description, and while its type is described there are calls for
the descriptions of the parts, one after another, and for theirs.  Each call may fail,
and then so do all calls around it, with some of the parts already described.  So
what holds of the catalogue between two requests is worth knowing of every single call.

`Calls` names all of them, each with the catalogue that it finds.  Going from a call to
one for a part keeps three things: the catalogue is sound, the keys under way have led
to the part, and there are more steps left than there are entries off that path.  With
these every call says what describing along its path says, and then a call that fails
is about a type with a fault, and no request for it can ever succeed.
-/
import Interop.Proofs.Describable
import Mathlib.Data.List.Nodup

namespace Interop

section

variable (types : Reflection) (unspecified : Nullness)

/-- The calls for a description, each with the steps it has left and the catalogue it finds. -/
inductive Calls : Nat → Catalogue → TypeKey → Prop
  /-- A request, after any others. -/
  | request (requests : List TypeKey) (key : TypeKey) :
      Calls (types.keys.length + 1) (.afterRequests types unspecified requests) key
  /-- A part of a type that is being described, after the parts before it. -/
  | part {steps : Nat} {catalogue middle : Catalogue} {key part : TypeKey} {type : ManagedType}
      {fullName : String} {before after : List TypeKey} {made : List Description}
      (hcall : Calls (steps + 1) catalogue key) (hnew : catalogue.get? key = none)
      (htype : types.get? key = some type) (hmet : key ∉ catalogue.underWay)
      (hname : type.fullName = some fullName)
      (hparts : type.shape.parts = before ++ part :: after)
      (hbefore : (before.mapM (describeWithin types unspecified steps)).on
        (catalogue.enter key) = (.ok made, middle)) :
      Calls steps middle part

/-- Every description is made from what is known of its type and from the descriptions that its
parts have in the catalogue. -/
structure Catalogue.Grounded (catalogue : Catalogue) : Prop where
  /-- No key has two descriptions. -/
  nodup : (catalogue.descriptions.map (·.key)).Nodup
  made (key : TypeKey) (description : Description) (h : catalogue.get? key = some description) :
    description.key = key ∧
    ∃ type fullName parts, types.get? key = some type ∧ type.fullName = some fullName ∧
      type.shape.parts.map catalogue.get? = parts.map some ∧
      description = Description.build unspecified key type fullName parts

end

section

variable {types : Reflection} {unspecified : Nullness}

/-! ### Finished descriptions -/

theorem Built.nodup {descriptions : List Description} (h : Built types unspecified descriptions) :
    (descriptions.map (·.key)).Nodup := by
  induction h with
  | nil => exact List.nodup_nil
  | cons _ hnew _ _ _ ih =>
      refine List.nodup_cons.mpr ⟨fun hmem => ?_, ih⟩
      obtain ⟨made, hmade, hkey⟩ := List.mem_map.mp hmem
      exact hnew made hmade hkey

/-- A description was made from its type, and from descriptions that are there as well. -/
theorem Built.exists_parts {descriptions : List Description}
    (h : Built types unspecified descriptions) {made : Description} (hmade : made ∈ descriptions) :
    ∃ type fullName parts, types.get? made.key = some type ∧ type.fullName = some fullName ∧
      List.Forall₂ (fun part other => other ∈ descriptions ∧ other.key = part)
        type.shape.parts parts ∧
      made = Description.build unspecified made.key type fullName parts := by
  induction h with
  | nil => cases hmade
  | cons _ _ htype hname hparts ih =>
      rcases List.mem_cons.mp hmade with rfl | hold
      · exact ⟨_, _, _, htype, hname,
          hparts.imp fun _ _ hpart => ⟨List.mem_cons_of_mem _ hpart.1, hpart.2⟩, rfl⟩
      · obtain ⟨type, fullName, parts, htype, hname, hparts, hbuild⟩ := ih hold
        exact ⟨type, fullName, parts, htype, hname,
          hparts.imp fun _ _ hpart => ⟨List.mem_cons_of_mem _ hpart.1, hpart.2⟩, hbuild⟩

namespace Catalogue

variable {catalogue after : Catalogue} {key : TypeKey}

/-- What is finished is found under its key. -/
theorem Sound.get?_of_mem (h : catalogue.Sound types unspecified) {made : Description}
    (hmade : made ∈ catalogue.descriptions) : catalogue.get? made.key = some made := by
  cases hget : catalogue.get? made.key with
  | none => exact absurd rfl (key_ne_of_get? hget made hmade)
  | some other =>
      obtain ⟨hother, hkey⟩ := mem_of_get? hget
      rw [List.inj_on_of_nodup_map h.built.nodup hother hmade hkey]

theorem Sound.grounded (h : catalogue.Sound types unspecified) :
    catalogue.Grounded types unspecified where
  nodup := h.built.nodup
  made key description hget := by
    obtain ⟨hmem, rfl⟩ := mem_of_get? hget
    obtain ⟨type, fullName, parts, htype, hname, hparts, hbuild⟩ := h.built.exists_parts hmem
    refine ⟨rfl, type, fullName, parts, htype, hname, ?_, hbuild⟩
    rw [← List.forall₂_eq_eq_eq, List.forall₂_map_left_iff, List.forall₂_map_right_iff]
    refine hparts.imp fun part other hother => ?_
    rw [← hother.2]
    exact h.get?_of_mem hother.1

/-- What is found stays found. -/
theorem Grows.get? (h : catalogue.Grows types unspecified after) {description : Description}
    (hget : catalogue.get? key = some description) : after.get? key = some description := by
  obtain ⟨hmem, rfl⟩ := mem_of_get? hget
  exact h.sound.get?_of_mem (h.kept.subset hmem)

/-- What is found is what describing from nothing gives. -/
theorem Sound.describeAfresh_eq (h : catalogue.Sound types unspecified) {description : Description}
    (hget : catalogue.get? key = some description) :
    describeAfresh types unspecified key = .ok description := by
  obtain ⟨hmem, rfl⟩ := mem_of_get? hget
  exact h.built.describeAlong_eq [] (fun _ _ => List.not_mem_nil) description hmem

/-- What is at fault is not found. -/
theorem Sound.get?_eq_none (h : catalogue.Sound types unspecified)
    (hfault : ¬types.Describable key) : catalogue.get? key = none := by
  cases hget : catalogue.get? key with
  | none => rfl
  | some description =>
      exact absurd (exists_describeAfresh_iff.mp ⟨description, h.describeAfresh_eq hget⟩) hfault

end Catalogue

/-! ### Calls -/

theorem faithful_describeWithin {path : List TypeKey} {steps : Nat}
    (hsteps : types.offPath path < steps) :
    Faithful types unspecified path (describeWithin types unspecified steps) := by
  rw [describeWithin_eq_iterate]
  exact faithful_iterate _ steps path hsteps

/-- What every call finds. -/
theorem Calls.finds {steps : Nat} {catalogue : Catalogue} {key : TypeKey}
    (h : Calls types unspecified steps catalogue key) :
    catalogue.Sound types unspecified ∧ CameAlong types catalogue.underWay key ∧
      types.offPath catalogue.underWay < steps := by
  induction h with
  | request requests key =>
      obtain ⟨hsound, hrest⟩ := Catalogue.sound_afterRequests types unspecified requests
      rw [hrest]
      exact ⟨hsound, by simp [CameAlong], Nat.lt_succ_of_le (types.offPath_le [])⟩
  | @part steps catalogue middle key part type fullName before after made _ hnew htype hmet hname
      hparts hbefore ih =>
      obtain ⟨hsound, hpath, hsteps⟩ := ih
      have hleft := Reflection.offPath_cons_lt (Reflection.mem_keys_of_get? htype) hmet
      have hpart : part ∈ type.shape.parts := by
        rw [hparts]
        exact List.mem_append_right _ List.mem_cons_self
      have hfaithful : Faithful types unspecified (key :: catalogue.underWay)
          (describeWithin types unspecified steps) := faithful_describeWithin (by omega)
      obtain ⟨left, hgrows, hon, -⟩ := hfaithful.on_mapM before _ (hsound.enter hnew) rfl
      obtain rfl : left = middle := congrArg Prod.snd (hon.symm.trans hbefore)
      have hunderWay : left.underWay = key :: catalogue.underWay := hgrows.underWay
      rw [hunderWay]
      exact ⟨hgrows.sound, hpath.step htype hname hpart, by omega⟩

/-- What every call comes to. -/
theorem Calls.on_describeWithin {steps : Nat} {catalogue : Catalogue} {key : TypeKey}
    (h : Calls types unspecified steps catalogue key) :
    ∃ after, catalogue.Grows types unspecified after ∧
      (describeWithin types unspecified steps key).on catalogue =
        (describeAlong types unspecified catalogue.underWay key, after) := by
  obtain ⟨hsound, -, hsteps⟩ := h.finds
  obtain ⟨after, hgrows, hon, -⟩ := faithful_describeWithin hsteps key catalogue hsound rfl
  exact ⟨after, hgrows, hon⟩

/-- Requests only add. -/
theorem Catalogue.get?_afterRequests_append {requests : List TypeKey} {key : TypeKey}
    {description : Description}
    (h : (afterRequests types unspecified requests).get? key = some description)
    (more : List TypeKey) :
    (afterRequests types unspecified (requests ++ more)).get? key = some description := by
  induction more using List.reverseRecOn with
  | nil => rwa [List.append_nil]
  | append_singleton more last ih =>
      obtain ⟨hsound, hrest⟩ := sound_afterRequests types unspecified (requests ++ more)
      obtain ⟨after, hgrows, hon⟩ := on_describe hsound hrest last
      rw [← List.append_assoc, afterRequests_append, hon]
      exact hgrows.get? ih

/--
**The catalogue holds what was described in full, and holds it for good.**  Every call
for a description, also one for a part, leaves the keys under way as it found them and
all descriptions in their place, and all descriptions then are made from their types and
the descriptions of their parts.  Where a call fails, no call ever finds a description of
its key.  After any requests nothing is under way, and further requests leave all
descriptions in their place.
-/
theorem catalogue_invariant (types : Reflection) (unspecified : Nullness) :
    (∀ steps catalogue key, Calls types unspecified steps catalogue key →
      let call := (describeWithin types unspecified steps key).on catalogue
      call.2.underWay = catalogue.underWay ∧
      (∀ other description, catalogue.get? other = some description →
        call.2.get? other = some description) ∧
      call.2.Grounded types unspecified ∧
      ∀ error, call.1 = .error error → call.2.get? key = none ∧
        ∀ others finding other, Calls types unspecified others finding other →
          finding.get? key = none) ∧
    ∀ requests,
      let catalogue := Catalogue.afterRequests types unspecified requests
      catalogue.underWay = [] ∧ catalogue.Grounded types unspecified ∧
      ∀ more key description, catalogue.get? key = some description →
        (Catalogue.afterRequests types unspecified (requests ++ more)).get? key =
          some description := by
  refine ⟨fun steps catalogue key hcall => ?_, fun requests => ?_⟩
  · obtain ⟨-, hpath, -⟩ := hcall.finds
    obtain ⟨after, hgrows, hon⟩ := hcall.on_describeWithin
    dsimp only
    rw [hon]
    refine ⟨hgrows.underWay, fun other description => hgrows.get?, hgrows.sound.grounded, ?_⟩
    intro error herror
    have hfault : ¬types.Describable key := fun h =>
      h.not_tellsTruth error (tellsTruth_of_describeAlong hpath herror)
    exact ⟨hgrows.sound.get?_eq_none hfault, fun others finding other hother =>
      hother.finds.1.get?_eq_none hfault⟩
  · obtain ⟨hsound, hrest⟩ := Catalogue.sound_afterRequests types unspecified requests
    exact ⟨hrest, hsound.grounded, fun more key description h =>
      Catalogue.get?_afterRequests_append h more⟩

end

/-- A type with two parts, the second of which has no full name. -/
def halfNamed : Reflection where
  entries := [
    (⟨40⟩, .namedClass "App.Node"),
    (⟨41⟩, { name := "Node[]", fullName := some "App.Node[]", shape := .array ⟨40⟩ }),
    (⟨42⟩, { name := "T", fullName := none, shape := .genericParameter }),
    (⟨43⟩, { name := "Pair`2", fullName := some "App.Pair`2", shape := .generic [⟨41⟩, ⟨42⟩] })]

/-- The catalogue once its first part is described, with the type under way. -/
def halfDescribed : Catalogue :=
  (([⟨41⟩].mapM (describeWithin halfNamed .nonNull 4)).on
    ((Catalogue.afterRequests halfNamed .nonNull []).enter ⟨43⟩)).2

/-- The call for the second part finds that catalogue. -/
theorem calls_halfDescribed : Calls halfNamed .nonNull 4 halfDescribed ⟨42⟩ := by
  have hmade : (([⟨41⟩].mapM (describeWithin halfNamed .nonNull 4)).on
      ((Catalogue.afterRequests halfNamed .nonNull []).enter ⟨43⟩)).1.isOk = true := by
    decide +kernel
  rcases hrun : ([⟨41⟩].mapM (describeWithin halfNamed .nonNull 4)).on
      ((Catalogue.afterRequests halfNamed .nonNull []).enter ⟨43⟩) with ⟨error | made, middle⟩
  · rw [hrun] at hmade
    cases hmade
  · have hmiddle : halfDescribed = middle := congrArg Prod.snd hrun
    rw [hmiddle]
    exact .part (.request [] ⟨43⟩) rfl rfl List.not_mem_nil rfl rfl hrun

/-- That call fails and leaves the type under way; its key is never there, and that of its sibling
stays. -/
theorem catalogue_halfNamed :
    ∃ description,
      Calls halfNamed .nonNull 4 halfDescribed ⟨42⟩ ∧
      ((describeWithin halfNamed .nonNull 4 ⟨42⟩).on halfDescribed).1 =
        .error (.noFullName "T") ∧
      ((describeWithin halfNamed .nonNull 4 ⟨42⟩).on halfDescribed).2.underWay = [⟨43⟩] ∧
      (Catalogue.afterRequests halfNamed .nonNull [⟨42⟩, ⟨43⟩]).get? ⟨42⟩ = none ∧
      (Catalogue.afterRequests halfNamed .nonNull ([⟨43⟩] ++ [⟨42⟩, ⟨43⟩])).get? ⟨41⟩ =
        some description := by
  obtain ⟨hcalls, hrequests⟩ := catalogue_invariant halfNamed .nonNull
  have hfails : ((describeWithin halfNamed .nonNull 4 ⟨42⟩).on halfDescribed).1 =
      .error (.noFullName "T") := by
    decide +kernel
  have hfinds : halfDescribed.underWay = [⟨43⟩] := by decide +kernel
  obtain ⟨hunderWay, -, -, hnever⟩ := hcalls 4 halfDescribed ⟨42⟩ calls_halfDescribed
  obtain ⟨-, hmissing⟩ := hnever _ hfails
  have hkept : ((Catalogue.afterRequests halfNamed .nonNull [⟨43⟩]).get? ⟨41⟩).isSome = true := by
    decide +kernel
  obtain ⟨description, hdescription⟩ := Option.isSome_iff_exists.mp hkept
  exact ⟨description, calls_halfDescribed, hfails, hunderWay.trans hfinds,
    hmissing _ _ _ (.request [⟨42⟩, ⟨43⟩] ⟨42⟩),
    (hrequests [⟨43⟩]).2.2 [⟨42⟩, ⟨43⟩] ⟨41⟩ description hdescription⟩

end Interop
