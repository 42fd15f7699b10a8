/-
The order of requests leaves no trace.

How far a request walks depends on what is in the catalogue already: what is found
there is not walked through again.  What a request adds does not depend on it.
`Finishes` says which descriptions are finished by describing a key from nothing: what
the parts finish, one after another up to the first that fails, and the key itself if
none does.  A walk with a catalogue leaves behind what it found there and what is
finished in this sense, because a description that is found ready stands there with
those of its parts, and so with everything that describing it again would finish.

So the catalogue after some requests holds what any of them finishes, which is the same
in every order, and each description there is what describing from nothing gives.
-/
import Interop.Proofs.Calls

namespace Interop

section

variable (types : Reflection) (unspecified : Nullness)

/-- Describing a key along a path finishes the description of another one. -/
inductive Finishes : List TypeKey → TypeKey → TypeKey → Prop
  | own {path : List TypeKey} {key : TypeKey} {description : Description}
      (h : describeAlong types unspecified path key = .ok description) : Finishes path key key
  /-- Parts are described until one of them fails. -/
  | part {path : List TypeKey} {key part other : TypeKey} {type : ManagedType} {fullName : String}
      {before after : List TypeKey} (htype : types.get? key = some type) (hmet : key ∉ path)
      (hname : type.fullName = some fullName)
      (hparts : type.shape.parts = before ++ part :: after)
      (hbefore : ∀ earlier ∈ before,
        ∃ made, describeAlong types unspecified (key :: path) earlier = .ok made)
      (hpart : Finishes (key :: path) part other) : Finishes path key other

/-- Describing keys along a path, one after another until one of them fails, finishes the
description of another one. -/
def FinishesAmong (path keys : List TypeKey) (other : TypeKey) : Prop :=
  ∃ before key after, keys = before ++ key :: after ∧
    (∀ earlier ∈ before, ∃ made, describeAlong types unspecified path earlier = .ok made) ∧
    Finishes types unspecified path key other

end

/-- The catalogue has a description of a key. -/
def Catalogue.Holds (catalogue : Catalogue) (key : TypeKey) : Prop :=
  ∃ description, catalogue.get? key = some description

section

variable {types : Reflection} {unspecified : Nullness}

/-! ### What is finished -/

section

variable {path : List TypeKey} {key other : TypeKey} {type : ManagedType} {fullName : String}

theorem not_finishesAmong_nil : ¬FinishesAmong types unspecified path [] other := by
  rintro ⟨before, key, after, hsplit, -⟩
  exact List.append_ne_nil_of_right_ne_nil before (List.cons_ne_nil key after) hsplit.symm

theorem finishesAmong_cons {rest : List TypeKey} :
    FinishesAmong types unspecified path (key :: rest) other ↔
      Finishes types unspecified path key other ∨
        (∃ made, describeAlong types unspecified path key = .ok made) ∧
          FinishesAmong types unspecified path rest other := by
  constructor
  · rintro ⟨before, part, after, hsplit, hbefore, hpart⟩
    cases before with
    | nil =>
        cases hsplit
        exact .inl hpart
    | cons first before =>
        cases hsplit
        exact .inr ⟨hbefore _ List.mem_cons_self, before, part, after, rfl,
          fun earlier hearlier => hbefore earlier (List.mem_cons_of_mem _ hearlier), hpart⟩
  · rintro (hfirst | ⟨hmade, before, part, after, rfl, hbefore, hpart⟩)
    · exact ⟨[], key, rest, rfl, by simp, hfirst⟩
    · exact ⟨key :: before, part, after, rfl, List.forall_mem_cons.mpr ⟨hmade, hbefore⟩, hpart⟩

/-- Only a known type with a full name that is not met again finishes anything. -/
theorem Finishes.exists_named (h : Finishes types unspecified path key other) :
    key ∉ path ∧ ∃ type fullName, types.get? key = some type ∧ type.fullName = some fullName := by
  cases h with
  | own hmade =>
      obtain ⟨type, fullName, _, htype, hmet, hname, -⟩ := describeAlong_eq_ok hmade
      exact ⟨hmet, type, fullName, htype, hname⟩
  | part htype hmet hname => exact ⟨hmet, _, _, htype, hname⟩

theorem finishes_iff (htype : types.get? key = some type) (hmet : key ∉ path)
    (hname : type.fullName = some fullName) :
    Finishes types unspecified path key other ↔
      (∃ made, describeAlong types unspecified path key = .ok made) ∧ key = other ∨
        FinishesAmong types unspecified (key :: path) type.shape.parts other := by
  constructor
  · intro h
    cases h with
    | own hmade => exact .inl ⟨⟨_, hmade⟩, rfl⟩
    | part htype' _ _ hparts hbefore hpart =>
        cases htype.symm.trans htype'
        exact .inr ⟨_, _, _, hparts, hbefore, hpart⟩
  · rintro (⟨⟨made, hmade⟩, rfl⟩ | ⟨before, part, after, hparts, hbefore, hpart⟩)
    · exact .own hmade
    · exact .part htype hmet hname hparts hbefore hpart

end

/-! ### What is held -/

namespace Catalogue

variable {catalogue : Catalogue} {key other part : TypeKey}

theorem holds_keep (description : Description) :
    (catalogue.keep description).Holds other ↔
      description.key = other ∨ catalogue.Holds other := by
  unfold Holds
  rw [get?_keep]
  split
  · rename_i hkey
    simp [hkey]
  · rename_i hkey
    simp [hkey]

/-- With a description the catalogue has those of its parts. -/
theorem Grounded.holds_part (h : catalogue.Grounded types unspecified) (hkey : catalogue.Holds key)
    (hpart : types.HasPart key part) : catalogue.Holds part := by
  obtain ⟨description, hget⟩ := hkey
  obtain ⟨-, type, _, parts, htype, -, hparts, -⟩ := h.made key description hget
  obtain ⟨type', htype', hmem⟩ := hpart
  cases htype.symm.trans htype'
  have hfound : catalogue.get? part ∈ parts.map some := by
    rw [← hparts]
    exact List.mem_map_of_mem hmem
  obtain ⟨made, -, hmade⟩ := List.mem_map.mp hfound
  exact ⟨made, hmade.symm⟩

/-- And with those everything that describing it again would finish. -/
theorem Grounded.holds_of_finishes (h : catalogue.Grounded types unspecified)
    {path : List TypeKey} (hfinishes : Finishes types unspecified path key other)
    (hkey : catalogue.Holds key) : catalogue.Holds other := by
  induction hfinishes with
  | own => exact hkey
  | part htype _ _ hparts _ _ ih =>
      refine ih (h.holds_part hkey ⟨_, htype, ?_⟩)
      rw [hparts]
      exact List.mem_append_right _ List.mem_cons_self

end Catalogue

/-! ### What every step adds -/

variable (types unspecified) in
/-- Steps that add to a catalogue what describing along a path finishes, and nothing else. -/
def AddsFinished (path : List TypeKey) (step : TypeKey → Describing Description) : Prop :=
  ∀ key catalogue, catalogue.Sound types unspecified → catalogue.underWay = path →
    ∀ other, ((step key).on catalogue).2.Holds other ↔
      catalogue.Holds other ∨ Finishes types unspecified path key other

theorem AddsFinished.on_mapM {path : List TypeKey} {step : TypeKey → Describing Description}
    (hadds : AddsFinished types unspecified path step)
    (hfaithful : Faithful types unspecified path step) (keys : List TypeKey) :
    ∀ catalogue : Catalogue, catalogue.Sound types unspecified → catalogue.underWay = path →
      ∀ other, ((keys.mapM step).on catalogue).2.Holds other ↔
        catalogue.Holds other ∨ FinishesAmong types unspecified path keys other := by
  induction keys with
  | nil =>
      intro catalogue _ _ other
      exact ⟨.inl, fun h => h.resolve_right not_finishesAmong_nil⟩
  | cons key rest ih =>
      intro catalogue hsound hpath other
      obtain ⟨middle, hgrows, hon, -⟩ := hfaithful key catalogue hsound hpath
      have hfirst := hadds key catalogue hsound hpath other
      rw [hon] at hfirst
      rw [Describing.on_mapM_cons, hon, finishesAmong_cons, ← or_assoc, ← hfirst]
      cases hkey : describeAlong types unspecified path key with
      | error error => simp
      | ok made =>
          have hrest := ih middle hgrows.sound (hgrows.underWay.trans hpath) other
          have hmade : ∃ value, (Except.ok made : Except DescriptionError Description) =
              .ok value := ⟨made, rfl⟩
          rw [and_iff_right hmade, ← hrest]
          dsimp only
          rcases (rest.mapM step).on middle with ⟨_ | _, last⟩ <;> rfl

/-- While the parts of a type are described, what they finish is added. -/
theorem AddsFinished.on_describeFromParts {key : TypeKey} {type : ManagedType}
    {fullName : String} {catalogue : Catalogue} {step : TypeKey → Describing Description}
    (hadds : AddsFinished types unspecified (key :: catalogue.underWay) step)
    (hfaithful : Faithful types unspecified (key :: catalogue.underWay) step)
    (hsound : catalogue.Sound types unspecified) (hnew : catalogue.get? key = none)
    (hname : type.fullName = some fullName) (other : TypeKey) :
    ((describeFromParts unspecified step key type).on (catalogue.enter key)).2.Holds other ↔
      catalogue.Holds other ∨
        FinishesAmong types unspecified (key :: catalogue.underWay) type.shape.parts other := by
  have hparts := hadds.on_mapM hfaithful type.shape.parts (catalogue.enter key)
    (hsound.enter hnew) rfl other
  simp only [describeFromParts, hname, Describing.on_bind]
  rcases hrun : (type.shape.parts.mapM step).on (catalogue.enter key) with ⟨_ | _, after⟩
  all_goals
    rw [hrun] at hparts
    exact hparts

/-- A step adds what is finished if the steps after it do on every path that takes in one more known
key. -/
theorem AddsFinished.describeStep {path : List TypeKey}
    {describePart : TypeKey → Describing Description}
    (hfaithful : ∀ key ∈ types.keys, key ∉ path →
      Faithful types unspecified (key :: path) describePart)
    (hadds : ∀ key ∈ types.keys, key ∉ path →
      AddsFinished types unspecified (key :: path) describePart) :
    AddsFinished types unspecified path (describeStep types unspecified describePart) := by
  intro key catalogue hsound hpath other
  subst hpath
  rw [on_describeStep]
  cases hget : catalogue.get? key with
  | some made =>
      -- What is found ready has nothing left to finish.
      refine ⟨.inl, fun h => h.elim id fun hfinishes => ?_⟩
      exact hsound.grounded.holds_of_finishes hfinishes ⟨made, hget⟩
  | none =>
      cases htype : types.get? key with
      | none =>
          refine (or_iff_left fun hfinishes => ?_).symm
          obtain ⟨-, type, _, hknown, -⟩ := hfinishes.exists_named
          cases htype.symm.trans hknown
      | some type =>
          dsimp only
          by_cases hmet : key ∈ catalogue.underWay
          · rw [if_pos hmet]
            exact (or_iff_left fun hfinishes => hfinishes.exists_named.1 hmet).symm
          rw [if_neg hmet]
          cases hname : type.fullName with
          | none =>
              simp only [describeFromParts, hname, Describing.on_throw, Catalogue.leave_enter]
              refine (or_iff_left fun hfinishes => ?_).symm
              obtain ⟨-, found, _, hfound, hnamed⟩ := hfinishes.exists_named
              cases htype.symm.trans hfound
              cases hname.symm.trans hnamed
          | some fullName =>
              have hknown := Reflection.mem_keys_of_get? htype
              obtain ⟨after, -, hon, -⟩ :=
                (hfaithful key hknown hmet).on_describeFromParts hsound hget htype hmet hname
              have hparts := (hadds key hknown hmet).on_describeFromParts
                (hfaithful key hknown hmet) hsound hget hname other
              rw [hon] at hparts ⊢
              rw [finishes_iff htype hmet hname]
              cases hmade : describeAlong types unspecified catalogue.underWay key with
              | error error => simpa [Catalogue.Holds] using hparts
              | ok made =>
                  simp only [Catalogue.holds_keep, key_of_describeAlong hmade]
                  simpa [Catalogue.Holds, or_left_comm] using or_congr_right hparts

/-- A walk that has more steps left than there are entries off its path adds what is finished. -/
theorem addsFinished_iterate (deeper : TypeKey → Describing Description) (steps : Nat) :
    ∀ path : List TypeKey, types.offPath path < steps →
      AddsFinished types unspecified path ((describeStep types unspecified)^[steps] deeper) := by
  induction steps with
  | zero => intro path hsteps; omega
  | succ steps ih =>
      intro path hsteps
      have hleft {key : TypeKey} (hknown : key ∈ types.keys) (hmet : key ∉ path) :
          types.offPath (key :: path) < steps := by
        have hless := Reflection.offPath_cons_lt hknown hmet
        omega
      rw [Function.iterate_succ_apply']
      exact .describeStep
        (fun key hknown hmet => faithful_iterate deeper steps (key :: path) (hleft hknown hmet))
        fun key hknown hmet => ih (key :: path) (hleft hknown hmet)

/-! ### Requests -/

namespace Catalogue

variable (types unspecified) in
/-- After some requests there are the descriptions that any of them finishes. -/
theorem holds_afterRequests_iff (requests : List TypeKey) (key : TypeKey) :
    (afterRequests types unspecified requests).Holds key ↔
      ∃ request ∈ requests, Finishes types unspecified [] request key := by
  induction requests using List.reverseRecOn with
  | nil => simp [afterRequests, Holds, empty, get?]
  | append_singleton requests last ih =>
      obtain ⟨hsound, hrest⟩ := sound_afterRequests types unspecified requests
      have hadds : AddsFinished types unspecified [] (describe types unspecified) := by
        unfold describe
        rw [describeWithin_eq_iterate]
        exact addsFinished_iterate _ _ [] (Nat.lt_succ_of_le (types.offPath_le []))
      rw [afterRequests_append, hadds last _ hsound hrest key, ih]
      simp [or_and_right, exists_or]

variable {requests others : List TypeKey}

/-- What is found after some requests is found after any others that finish as much. -/
theorem get?_of_holds {key : TypeKey} {description : Description}
    (hget : (afterRequests types unspecified requests).get? key = some description)
    (hholds : (afterRequests types unspecified others).Holds key) :
    (afterRequests types unspecified others).get? key = some description := by
  obtain ⟨other, hother⟩ := hholds
  have hfirst := (sound_afterRequests types unspecified requests).1.describeAfresh_eq hget
  have hsecond := (sound_afterRequests types unspecified others).1.describeAfresh_eq hother
  rw [hother, Except.ok.inj (hsecond.symm.trans hfirst)]

section

variable (h : ∀ key, key ∈ requests ↔ key ∈ others)

include h

theorem holds_congr (key : TypeKey) : (afterRequests types unspecified requests).Holds key ↔
    (afterRequests types unspecified others).Holds key := by
  rw [holds_afterRequests_iff, holds_afterRequests_iff]
  simp only [h]

theorem get?_congr (key : TypeKey) : (afterRequests types unspecified requests).get? key =
    (afterRequests types unspecified others).get? key := by
  refine Option.ext fun description => ⟨fun hget => ?_, fun hget => ?_⟩
  · exact get?_of_holds hget ((holds_congr h key).mp ⟨description, hget⟩)
  · exact get?_of_holds hget ((holds_congr h key).mpr ⟨description, hget⟩)

/-- The descriptions are the same but for the order in which they were finished. -/
theorem descriptions_perm : (afterRequests types unspecified requests).descriptions.Perm
    (afterRequests types unspecified others).descriptions := by
  have hfirst := (sound_afterRequests types unspecified requests).1
  have hsecond := (sound_afterRequests types unspecified others).1
  refine (List.perm_ext_iff_of_nodup hfirst.built.nodup.of_map hsecond.built.nodup.of_map).mpr
    fun description => ⟨fun hmem => ?_, fun hmem => ?_⟩
  · exact (mem_of_get? ((get?_congr h _).symm.trans (hfirst.get?_of_mem hmem))).1
  · exact (mem_of_get? ((get?_congr h _).trans (hsecond.get?_of_mem hmem))).1

end

end Catalogue

/--
**What is requested decides, not when.**  Two lists of requests that ask for the same keys,
in any order and any number of times, leave the same description, or none, at every key,
and so they leave equally many.
-/
theorem afterRequests_eq_of_mem_iff (types : Reflection) (unspecified : Nullness)
    (requests others : List TypeKey) (h : ∀ key, key ∈ requests ↔ key ∈ others) :
    (∀ key, (Catalogue.afterRequests types unspecified requests).get? key =
      (Catalogue.afterRequests types unspecified others).get? key) ∧
    (Catalogue.afterRequests types unspecified requests).size =
      (Catalogue.afterRequests types unspecified others).size :=
  ⟨Catalogue.get?_congr h, (Catalogue.descriptions_perm h).length_eq⟩

end

/-- The request that fails half-way comes first or last, and there is one more of the other.  Either
way there are the first part of the type that fails and the part of that. -/
theorem afterRequests_halfNamed :
    (∀ key, (Catalogue.afterRequests halfNamed .nonNull [⟨43⟩, ⟨40⟩]).get? key =
      (Catalogue.afterRequests halfNamed .nonNull [⟨40⟩, ⟨40⟩, ⟨43⟩]).get? key) ∧
    ∀ requests ∈ [[⟨43⟩, ⟨40⟩], [⟨40⟩, ⟨40⟩, ⟨43⟩]],
      (Catalogue.afterRequests halfNamed .nonNull requests).size = 2 ∧
      ([⟨40⟩, ⟨41⟩, ⟨42⟩, ⟨43⟩].map fun key =>
        ((Catalogue.afterRequests halfNamed .nonNull requests).get? key).map (·.cTypeName)) =
          [some "App_Node", some "App_Node_Array", none, none] := by
  obtain ⟨hsame, hsize⟩ :=
    afterRequests_eq_of_mem_iff halfNamed .nonNull [⟨43⟩, ⟨40⟩] [⟨40⟩, ⟨40⟩, ⟨43⟩] fun key => by
      simp [or_comm]
  have hnames : ([⟨40⟩, ⟨41⟩, ⟨42⟩, ⟨43⟩].map fun key =>
      ((Catalogue.afterRequests halfNamed .nonNull [⟨43⟩, ⟨40⟩]).get? key).map (·.cTypeName)) =
        [some "App_Node", some "App_Node_Array", none, none] := by decide +kernel
  have htwo : (Catalogue.afterRequests halfNamed .nonNull [⟨43⟩, ⟨40⟩]).size = 2 := by
    decide +kernel
  refine ⟨hsame, List.forall_mem_cons.mpr ⟨⟨htwo, hnames⟩, List.forall_mem_singleton.mpr ?_⟩⟩
  simp only [← hsame, ← hsize]
  exact ⟨htwo, hnames⟩

end Interop
