/-
The catalogue never shows.

A description that is found ready is handed out at once, before anyone looks
whether its key is under way.  So what has to be shown is that this can neither
hide an error nor make one: the walk with a catalogue says what the walk along a
path says, the keys under way being the path.

The reason is the order in which descriptions are finished.  Each was made from
parts that were finished before it, which is `Built`, so nothing in the catalogue
can lead to itself, and nothing in it can lead to a key that is still under way,
since such a key is not finished.  `Sound` says both, every step of the walk keeps
it, whether it succeeds or fails, and `Faithful` is what follows for the answers.
-/
import Interop.Proofs.Afresh
import Mathlib.Logic.Function.Iterate

namespace Interop

/-! ### Looking a description up -/

namespace Catalogue

theorem mem_of_get? {catalogue : Catalogue} {key : TypeKey} {made : Description}
    (h : catalogue.get? key = some made) : made ∈ catalogue.descriptions ∧ made.key = key := by
  unfold get? at h
  exact ⟨List.mem_of_find?_eq_some h, by simpa using List.find?_some h⟩

theorem key_ne_of_get? {catalogue : Catalogue} {key : TypeKey} (h : catalogue.get? key = none) :
    ∀ made ∈ catalogue.descriptions, made.key ≠ key := by
  intro made hmade
  unfold get? at h
  simpa using List.find?_eq_none.mp h made hmade

end Catalogue

/-! ### One step of the walk -/

section

variable (types : Reflection) (unspecified : Nullness)

/-- One step of the walk, after which `describePart` goes on. -/
def describeStep (describePart : TypeKey → Describing Description) (key : TypeKey) :
    Describing Description := do
  let catalogue ← get
  match catalogue.get? key, types.get? key with
  | some description, _ => return description
  | none, none => throw (.unknownType key)
  | none, some type =>
    if key ∈ catalogue.underWay then
      throw (.cycle type.displayName)
    else do
      let description ← Describing.whileUnderWay key
        (describeFromParts unspecified describePart key type)
      modify (·.keep description)
      return description

/-- The walk is one step after another. -/
theorem describeWithin_eq_iterate (steps : Nat) :
    describeWithin types unspecified steps =
      (describeStep types unspecified)^[steps] fun key => throw (.cycle (types.nameOf key)) := by
  induction steps with
  | zero => rfl
  | succ steps ih =>
      rw [Function.iterate_succ_apply', ← ih]
      rfl

theorem on_describeStep (describePart : TypeKey → Describing Description) (key : TypeKey)
    (catalogue : Catalogue) :
    (describeStep types unspecified describePart key).on catalogue =
      match catalogue.get? key, types.get? key with
      | some description, _ => (.ok description, catalogue)
      | none, none => (.error (.unknownType key), catalogue)
      | none, some type =>
        if key ∈ catalogue.underWay then
          (.error (.cycle type.displayName), catalogue)
        else
          match (describeFromParts unspecified describePart key type).on (catalogue.enter key) with
          | (.ok description, after) => (.ok description, (after.leave key).keep description)
          | (.error error, after) => (.error error, after.leave key) := by
  rw [describeStep, Describing.on_bind, Describing.on_get]
  dsimp only
  cases catalogue.get? key with
  | some description => rfl
  | none =>
    cases types.get? key with
    | none => rfl
    | some type =>
      dsimp only
      split
      · rfl
      · rw [Describing.on_bind, Describing.on_whileUnderWay]
        rcases (describeFromParts unspecified describePart key type).on
          (catalogue.enter key) with ⟨_ | _, _⟩ <;> rfl

end

section

variable (types : Reflection) (unspecified : Nullness)

/-! ### What a catalogue can hold -/

/-- Descriptions, newest first, each made from ones that were finished before it. -/
inductive Built : List Description → Prop
  | nil : Built []
  | cons {rest parts : List Description} {key : TypeKey} {type : ManagedType}
      {declaredName : String} (hrest : Built rest) (hnew : ∀ made ∈ rest, made.key ≠ key)
      (htype : types.get? key = some type) (hname : type.fullName = some declaredName)
      (hparts : List.Forall₂ (fun part made => made ∈ rest ∧ made.key = part)
        type.shape.parts parts) :
      Built (Description.build unspecified key type declaredName parts :: rest)

/-- A catalogue as the walk leaves it, also in the middle. -/
structure Catalogue.Sound (catalogue : Catalogue) : Prop where
  built : Built types unspecified catalogue.descriptions
  /-- What is finished is no longer under way. -/
  apart : ∀ made ∈ catalogue.descriptions, made.key ∉ catalogue.underWay

/-- What work may do to a catalogue: add to it. -/
structure Catalogue.Grows (before after : Catalogue) : Prop where
  sound : after.Sound types unspecified
  underWay : after.underWay = before.underWay
  /-- Nothing that was finished is lost or replaced. -/
  kept : before.descriptions <:+ after.descriptions

/-- Steps that say of every key what describing it along a path says, and that leave behind what
they describe. -/
def Faithful (path : List TypeKey) (step : TypeKey → Describing Description) : Prop :=
  ∀ key catalogue, catalogue.Sound types unspecified → catalogue.underWay = path →
    ∃ after, catalogue.Grows types unspecified after ∧
      (step key).on catalogue = (describeAlong types unspecified path key, after) ∧
      ∀ made, describeAlong types unspecified path key = .ok made → made ∈ after.descriptions

variable {types unspecified}

/-- Finished descriptions are those that describing from nothing gives, along every path that
none of them is on. -/
theorem Built.describeAlong_eq {descriptions : List Description}
    (hbuilt : Built types unspecified descriptions) :
    ∀ path : List TypeKey, (∀ made ∈ descriptions, made.key ∉ path) →
      ∀ made ∈ descriptions, describeAlong types unspecified path made.key = .ok made := by
  induction hbuilt with
  | nil => simp
  | @cons rest parts key type declaredName hrest hnew htype hname hparts ih =>
      intro path hpath made hmade
      rcases List.mem_cons.mp hmade with rfl | hold
      · have hmet : key ∉ path := hpath _ List.mem_cons_self
        have hinside : ∀ other ∈ rest, other.key ∉ key :: path := by
          intro other hother hmem
          rcases List.mem_cons.mp hmem with heq | hin
          · exact hnew other hother heq
          · exact hpath other (List.mem_cons_of_mem _ hother) hin
        have hall : type.shape.parts.mapM (describeAlong types unspecified (key :: path)) =
            .ok parts := by
          refine mapM_eq_ok_iff.mpr (hparts.imp ?_)
          rintro part other ⟨hother, rfl⟩
          exact ih (key :: path) hinside other hother
        rw [Description.key_build, describeAlong_of_named htype hmet hname, hall]
      · exact ih path (fun other hother => hpath other (List.mem_cons_of_mem _ hother)) made hold

namespace Catalogue

theorem sound_empty : Catalogue.empty.Sound types unspecified :=
  ⟨.nil, by simp [empty]⟩

theorem Grows.refl {catalogue : Catalogue} (h : catalogue.Sound types unspecified) :
    catalogue.Grows types unspecified catalogue :=
  ⟨h, rfl, List.suffix_refl _⟩

theorem Grows.trans {first second third : Catalogue} (h : first.Grows types unspecified second)
    (h' : second.Grows types unspecified third) : first.Grows types unspecified third :=
  ⟨h'.sound, h'.underWay.trans h.underWay, h.kept.trans h'.kept⟩

/-- A key that is not finished can be put under way. -/
theorem Sound.enter {catalogue : Catalogue} {key : TypeKey}
    (h : catalogue.Sound types unspecified) (hnew : catalogue.get? key = none) :
    (catalogue.enter key).Sound types unspecified := by
  refine ⟨h.built, fun made hmade hmem => ?_⟩
  rcases List.mem_cons.mp hmem with heq | hin
  · exact key_ne_of_get? hnew made hmade heq
  · exact h.apart made hmade hin

theorem Grows.leave {catalogue after : Catalogue} {key : TypeKey}
    (h : (catalogue.enter key).Grows types unspecified after) :
    catalogue.Grows types unspecified (after.leave key) := by
  have hunderWay : (after.leave key).underWay = catalogue.underWay := by
    simp [Catalogue.leave, h.underWay, Catalogue.enter]
  refine ⟨⟨h.sound.built, fun made hmade hmem => ?_⟩, hunderWay, h.kept⟩
  refine h.sound.apart made hmade ?_
  rw [h.underWay]
  exact List.mem_cons_of_mem _ (hunderWay ▸ hmem)

end Catalogue

/-! ### Every step is faithful -/

theorem Faithful.on_mapM {path : List TypeKey} {step : TypeKey → Describing Description}
    (hstep : Faithful types unspecified path step) (keys : List TypeKey) :
    ∀ catalogue : Catalogue, catalogue.Sound types unspecified → catalogue.underWay = path →
      ∃ after, catalogue.Grows types unspecified after ∧
        (keys.mapM step).on catalogue =
          (keys.mapM (describeAlong types unspecified path), after) ∧
        ∀ all, keys.mapM (describeAlong types unspecified path) = .ok all →
          ∀ made ∈ all, made ∈ after.descriptions := by
  induction keys with
  | nil =>
      intro catalogue hsound _
      refine ⟨catalogue, .refl hsound, rfl, fun all hall => ?_⟩
      cases hall
      simp
  | cons key rest ih =>
      intro catalogue hsound hpath
      obtain ⟨middle, hgrows, hon, hmade⟩ := hstep key catalogue hsound hpath
      rw [Describing.on_mapM_cons, hon, mapM_cons_except]
      cases hkey : describeAlong types unspecified path key with
      | error error => exact ⟨middle, hgrows, rfl, by simp⟩
      | ok made =>
          obtain ⟨after, hgrows', hon', hall⟩ :=
            ih middle hgrows.sound (hgrows.underWay.trans hpath)
          refine ⟨after, hgrows.trans hgrows', ?_, ?_⟩
          · dsimp only
            rw [hon']
            cases rest.mapM (describeAlong types unspecified path) <;> rfl
          · intro all heq other hother
            dsimp only at heq
            split at heq
            · rename_i others hothers
              cases heq
              rcases List.mem_cons.mp hother with rfl | hin
              · exact hgrows'.kept.subset (hmade other hkey)
              · exact hall others hothers other hin
            · cases heq

/-- The parts of a type are described with the type's own key on the path. -/
theorem Faithful.on_describeFromParts {key : TypeKey} {type : ManagedType}
    {declaredName : String} {catalogue : Catalogue}
    {step : TypeKey → Describing Description}
    (hstep : Faithful types unspecified (key :: catalogue.underWay) step)
    (hsound : catalogue.Sound types unspecified) (hnew : catalogue.get? key = none)
    (htype : types.get? key = some type) (hmet : key ∉ catalogue.underWay)
    (hname : type.fullName = some declaredName) :
    ∃ after, (catalogue.enter key).Grows types unspecified after ∧
      (describeFromParts unspecified step key type).on (catalogue.enter key) =
        (describeAlong types unspecified catalogue.underWay key, after) ∧
      ∀ made, describeAlong types unspecified catalogue.underWay key = .ok made →
        Built types unspecified (made :: after.descriptions) := by
  obtain ⟨after, hgrows, hon, hall⟩ :=
    hstep.on_mapM type.shape.parts (catalogue.enter key) (hsound.enter hnew) rfl
  refine ⟨after, hgrows, ?_, fun made hmade => ?_⟩
  · rw [describeAlong_of_named htype hmet hname]
    simp only [describeFromParts, hname]
    rw [Describing.on_bind, hon]
    cases type.shape.parts.mapM
      (describeAlong types unspecified (key :: catalogue.underWay)) <;> rfl
  · obtain ⟨found, name, parts, hfound, -, hname', hparts, rfl⟩ := describeAlong_eq_ok hmade
    refine .cons hgrows.sound.built ?_ hfound hname' ?_
    · intro other hother heq
      refine hgrows.sound.apart other hother ?_
      rw [hgrows.underWay, heq]
      exact List.mem_cons_self
    · obtain rfl : found = type := Option.some.inj (hfound.symm.trans htype)
      have hmem := hall parts (mapM_eq_ok_iff.mpr hparts)
      refine List.forall₂_iff_zip.mpr ⟨hparts.length_eq, fun hpair => ?_⟩
      exact ⟨hmem _ (List.of_mem_zip hpair).2,
        key_of_describeAlong (List.forall₂_iff_zip.mp hparts |>.2 hpair)⟩

/-- A step is faithful on a path if the steps after it are on every path that takes in one more known
key. -/
theorem Faithful.describeStep {path : List TypeKey}
    {describePart : TypeKey → Describing Description}
    (hpart : ∀ key ∈ types.keys, key ∉ path →
      Faithful types unspecified (key :: path) describePart) :
    Faithful types unspecified path (describeStep types unspecified describePart) := by
  intro key catalogue hsound hpath
  subst hpath
  rw [on_describeStep]
  cases hget : catalogue.get? key with
  | some made =>
      obtain ⟨hmem, rfl⟩ := Catalogue.mem_of_get? hget
      have hready := hsound.built.describeAlong_eq _ hsound.apart made hmem
      refine ⟨catalogue, .refl hsound, by rw [hready], fun other hother => ?_⟩
      cases hready.symm.trans hother
      exact hmem
  | none =>
      cases htype : types.get? key with
      | none =>
          rw [describeAlong_of_unknown htype]
          exact ⟨catalogue, .refl hsound, rfl, by simp⟩
      | some type =>
          dsimp only
          by_cases hmet : key ∈ catalogue.underWay
          · rw [if_pos hmet, describeAlong_of_met htype hmet]
            exact ⟨catalogue, .refl hsound, rfl, by simp⟩
          rw [if_neg hmet]
          cases hname : type.fullName with
          | none =>
              rw [describeAlong_of_nameless htype hmet hname]
              refine ⟨catalogue, .refl hsound, ?_, by simp⟩
              simp only [describeFromParts, hname, Describing.on_throw, Catalogue.leave_enter]
          | some declaredName =>
              obtain ⟨after, hgrows, hon, hbuilt⟩ :=
                (hpart key (Reflection.mem_keys_of_get? htype) hmet).on_describeFromParts hsound
                  hget htype hmet hname
              rw [hon]
              have hleave := hgrows.leave
              cases hmade : describeAlong types unspecified catalogue.underWay key with
              | error error => exact ⟨_, hleave, rfl, by simp⟩
              | ok made =>
                  refine ⟨(after.leave key).keep made, ⟨⟨hbuilt made hmade, ?_⟩,
                    hleave.underWay, hleave.kept.trans (List.suffix_cons ..)⟩, rfl, ?_⟩
                  · intro other hother
                    rcases List.mem_cons.mp hother with rfl | hold
                    · rw [key_of_describeAlong hmade]
                      exact hleave.underWay ▸ hmet
                    · exact hleave.sound.apart other hold
                  · intro other hother
                    cases hother
                    exact List.mem_cons_self

/-- A walk that has more steps left than there are entries off its path never runs out, so what it
would do after them does not matter. -/
theorem faithful_iterate (deeper : TypeKey → Describing Description) (steps : Nat) :
    ∀ path : List TypeKey, types.offPath path < steps →
      Faithful types unspecified path ((describeStep types unspecified)^[steps] deeper) := by
  induction steps with
  | zero => intro path hsteps; omega
  | succ steps ih =>
      intro path hsteps
      rw [Function.iterate_succ_apply']
      refine .describeStep fun key hknown hfresh => ih (key :: path) ?_
      have hleft := Reflection.offPath_cons_lt hknown hfresh
      omega

end

end Interop
