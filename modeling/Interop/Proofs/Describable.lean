/-
What can be described.

A type leads to its parts, and they lead to theirs.  The walk that describes a type
looks for three faults on the way: a key that nothing is known of, a type without a
name, and a type that leads back to itself.  Where there is no such fault the type
is described, and otherwise the error tells of a fault that is really there.

The second of these is the induction, over the walk along a path.  Every key of the
path leads to where the walk stands, which is why a key that is met again leads to
itself.  The first follows from it in one direction.  In the other, a type that is
described along a path leads to no key of the path, so nothing it leads to can lead
to itself.

That the walk ends at all is said of its steps: after one more than there are known
keys there is nothing left to do, so it does not matter what a deeper step would do.
-/
import Interop.Proofs.Requests
import Mathlib.Logic.Relation

namespace Interop

open Relation

namespace Reflection

section

variable (types : Reflection)

/-- The type at a key has the type at another one as a part. -/
def HasPart (key part : TypeKey) : Prop :=
  ∃ type, types.get? key = some type ∧ part ∈ type.shape.parts

/-- From part to part, one comes from a key to another one, if only by staying there. -/
def LeadsTo : TypeKey → TypeKey → Prop := ReflTransGen types.HasPart

/-- From part to part, one comes from a key back to it. -/
def LeadsBack (key : TypeKey) : Prop := TransGen types.HasPart key key

/-- Nothing that a key leads to is at fault. -/
structure Describable (key : TypeKey) : Prop where
  /-- All of it is known, and has a full name. -/
  named : ∀ part, types.LeadsTo key part →
    ∃ type fullName, types.get? part = some type ∧ type.fullName = some fullName
  /-- None of it leads to itself. -/
  grounded : ∀ part, types.LeadsTo key part → ¬types.LeadsBack part

/-- An error tells of something that a key leads to, and that is at fault. -/
def TellsTruth (key : TypeKey) : DescriptionError → Prop
  | .unknownType part => types.LeadsTo key part ∧ types.get? part = none
  | .noFullName name => ∃ part type, types.LeadsTo key part ∧ types.get? part = some type ∧
      type.fullName = none ∧ type.name = name
  | .cycle fullName => ∃ part type, types.LeadsTo key part ∧ types.get? part = some type ∧
      type.fullName = some fullName ∧ types.LeadsBack part

end

variable {types : Reflection} {key part : TypeKey}

/-- What is true of something that a part leads to is true of the whole. -/
theorem TellsTruth.of_part {error : DescriptionError} (hpart : types.HasPart key part)
    (h : types.TellsTruth part error) : types.TellsTruth key error := by
  cases error with
  | unknownType other => exact ⟨h.1.head hpart, h.2⟩
  | noFullName name =>
      obtain ⟨other, type, hleads, hrest⟩ := h
      exact ⟨other, type, hleads.head hpart, hrest⟩
  | cycle fullName =>
      obtain ⟨other, type, hleads, hrest⟩ := h
      exact ⟨other, type, hleads.head hpart, hrest⟩

/-- Nothing that is at fault can be told of a type without faults. -/
theorem Describable.not_tellsTruth (h : types.Describable key) (error : DescriptionError) :
    ¬types.TellsTruth key error := by
  intro htruth
  cases error with
  | unknownType other =>
      obtain ⟨hleads, hunknown⟩ := htruth
      obtain ⟨type, _, htype, -⟩ := h.named other hleads
      cases htype.symm.trans hunknown
  | noFullName name =>
      obtain ⟨other, type, hleads, htype, hnameless, -⟩ := htruth
      obtain ⟨type', _, htype', hname⟩ := h.named other hleads
      cases htype.symm.trans htype'
      cases hnameless.symm.trans hname
  | cycle fullName =>
      obtain ⟨other, _, hleads, -, -, hback⟩ := htruth
      exact h.grounded other hleads hback

end Reflection

open Reflection

variable {types : Reflection} {unspecified : Nullness}

/-! ### Errors -/

/-- A path that a walk has come along: all its keys are named and lead to where the walk
stands. -/
def CameAlong (types : Reflection) (path : List TypeKey) (key : TypeKey) : Prop :=
  ∀ passed ∈ path, TransGen types.HasPart passed key ∧
    ∃ type fullName, types.get? passed = some type ∧ type.fullName = some fullName

/-- The path of the next step. -/
theorem CameAlong.step {path : List TypeKey} {key part : TypeKey} {type : ManagedType}
    {fullName : String} (h : CameAlong types path key) (htype : types.get? key = some type)
    (hname : type.fullName = some fullName) (hpart : part ∈ type.shape.parts) :
    CameAlong types (key :: path) part := by
  have hstep : types.HasPart key part := ⟨type, htype, hpart⟩
  intro passed hpassed
  rcases List.mem_cons.mp hpassed with rfl | hearlier
  · exact ⟨.single hstep, type, fullName, htype, hname⟩
  · exact ⟨(h passed hearlier).1.tail hstep, (h passed hearlier).2⟩

/-- Errors are true. -/
theorem tellsTruth_of_describeAlong {path : List TypeKey} {key : TypeKey}
    {error : DescriptionError} (hpath : CameAlong types path key)
    (h : describeAlong types unspecified path key = .error error) :
    types.TellsTruth key error := by
  cases htype : types.get? key with
  | none =>
      cases (describeAlong_of_unknown htype).symm.trans h
      exact ⟨.refl, htype⟩
  | some type =>
      by_cases hmet : key ∈ path
      · cases (describeAlong_of_met htype hmet).symm.trans h
        obtain ⟨hback, type', fullName, htype', hname⟩ := hpath key hmet
        cases htype.symm.trans htype'
        exact ⟨key, type, .refl, htype, by rw [ManagedType.displayName, hname]; rfl, hback⟩
      · cases hname : type.fullName with
        | none =>
            cases (describeAlong_of_nameless htype hmet hname).symm.trans h
            exact ⟨key, type, .refl, htype, hname, rfl⟩
        | some fullName =>
            rw [describeAlong_of_named htype hmet hname] at h
            cases hparts :
                type.shape.parts.mapM (describeAlong types unspecified (key :: path)) with
            | ok parts => rw [hparts] at h; cases h
            | error other =>
                rw [hparts] at h
                cases h
                obtain ⟨part, hpart, herror⟩ := exists_mem_of_mapM_eq_error hparts
                have hleft :=
                  Reflection.offPath_cons_lt (Reflection.mem_keys_of_get? htype) hmet
                exact (tellsTruth_of_describeAlong (hpath.step htype hname hpart) herror).of_part
                  ⟨type, htype, hpart⟩
termination_by types.offPath path

/-! ### Descriptions -/

/-- What is described has parts that are described with the type itself on the path. -/
theorem exists_describeAlong_of_hasPart {path : List TypeKey} {key part : TypeKey}
    {description : Description}
    (h : describeAlong types unspecified path key = .ok description)
    (hpart : types.HasPart key part) :
    ∃ made, describeAlong types unspecified (key :: path) part = .ok made := by
  obtain ⟨type, _, parts, htype, -, -, hparts, -⟩ := describeAlong_eq_ok h
  obtain ⟨type', htype', hmem⟩ := hpart
  cases htype.symm.trans htype'
  exact exists_ok_of_mapM_eq_ok (mapM_eq_ok_iff.mpr hparts) hmem

/-- Whatever a described type leads to is described on the way, on a longer path. -/
theorem exists_describeAlong_of_leadsTo {path : List TypeKey} {key part : TypeKey}
    {description : Description}
    (h : describeAlong types unspecified path key = .ok description)
    (hleads : types.LeadsTo key part) :
    ∃ longer made, path ⊆ longer ∧ describeAlong types unspecified longer part = .ok made := by
  induction hleads using ReflTransGen.head_induction_on generalizing path description with
  | refl => exact ⟨path, description, List.Subset.refl _, h⟩
  | head hpart _ ih =>
      obtain ⟨made, hmade⟩ := exists_describeAlong_of_hasPart h hpart
      obtain ⟨longer, other, hsubset, hother⟩ := ih hmade
      exact ⟨longer, other, fun passed hpassed =>
        hsubset (List.mem_cons_of_mem _ hpassed), hother⟩

/-- What is described is without faults. -/
theorem describable_of_describeAlong {path : List TypeKey} {key : TypeKey}
    {description : Description}
    (h : describeAlong types unspecified path key = .ok description) :
    types.Describable key := by
  refine ⟨fun part hleads => ?_, fun part hleads hback => ?_⟩
  · obtain ⟨_, made, -, hmade⟩ := exists_describeAlong_of_leadsTo h hleads
    obtain ⟨type, fullName, _, htype, -, hname, -⟩ := describeAlong_eq_ok hmade
    exact ⟨type, fullName, htype, hname⟩
  · obtain ⟨_, made, -, hmade⟩ := exists_describeAlong_of_leadsTo h hleads
    -- A type that leads to itself would be described with its own key on the path.
    obtain ⟨next, hpart, hrest⟩ := TransGen.head'_iff.mp hback
    obtain ⟨_, hnext⟩ := exists_describeAlong_of_hasPart hmade hpart
    obtain ⟨longer, _, hsubset, hagain⟩ := exists_describeAlong_of_leadsTo hnext hrest
    obtain ⟨_, _, _, -, hmet, -⟩ := describeAlong_eq_ok hagain
    exact hmet (hsubset List.mem_cons_self)

/-- Errors of a request are true. -/
theorem tellsTruth_of_describeAfresh {key : TypeKey} {error : DescriptionError}
    (h : describeAfresh types unspecified key = .error error) : types.TellsTruth key error :=
  tellsTruth_of_describeAlong (by simp [CameAlong]) h

theorem exists_describeAfresh_iff {key : TypeKey} :
    (∃ description, describeAfresh types unspecified key = .ok description) ↔
      types.Describable key := by
  constructor
  · rintro ⟨description, h⟩
    exact describable_of_describeAlong h
  · intro h
    cases houtcome : describeAfresh types unspecified key with
    | ok description => exact ⟨description, rfl⟩
    | error error => exact absurd (tellsTruth_of_describeAfresh houtcome) (h.not_tellsTruth error)

/-! ### Requests -/

/--
**What is without faults is described, and an error tells of a fault.**  After any
requests, successful or failed, a request is answered by a walk that never gets
deeper than there are known keys: whatever would be done deeper down, the answer is
the same.  A type is described exactly if everything it leads to is known, has a
full name and does not lead to itself.  An error names something that the type
leads to, and that is as the error says.
-/
theorem describe_succeeds_iff (types : Reflection) (unspecified : Nullness)
    (requests : List TypeKey) (key : TypeKey) :
    let catalogue := Catalogue.afterRequests types unspecified requests
    let answer := ((describe types unspecified key).on catalogue).1
    (∀ deeper : TypeKey → Describing Description,
      (((describeStep types unspecified)^[types.keys.length + 1] deeper key).on catalogue).1 =
        answer) ∧
    ((∃ description, answer = .ok description) ↔ types.Describable key) ∧
    ∀ error, answer = .error error → types.TellsTruth key error := by
  obtain ⟨hsound, hrest⟩ := Catalogue.sound_afterRequests types unspecified requests
  obtain ⟨after, -, hon⟩ := on_describe hsound hrest key
  dsimp only
  rw [hon]
  refine ⟨fun deeper => ?_, exists_describeAfresh_iff, fun error => tellsTruth_of_describeAfresh⟩
  obtain ⟨_, -, hdeeper⟩ := on_iterate hsound hrest deeper key
  rw [hdeeper]

/-- A type that has another one twice over, and a ring of two. -/
def tangled : Reflection where
  entries := [
    (⟨40⟩, .namedClass "App.Node"),
    (⟨41⟩, { name := "Node[]", fullName := some "App.Node[]", shape := .array ⟨40⟩ }),
    (⟨42⟩, { name := "Pair`2", fullName := some "App.Pair`2", shape := .generic [⟨41⟩, ⟨40⟩] }),
    (⟨43⟩, { name := "Ring`2", fullName := some "App.Ring`2", shape := .generic [⟨42⟩, ⟨44⟩] }),
    (⟨44⟩, { name := "Ring`2[]", fullName := some "App.Ring`2[]", shape := .array ⟨43⟩ })]

/-- What is shared leads to no cycle, also after a request that met one. -/
theorem describe_tangled :
    tangled.Describable ⟨42⟩ ∧ ¬tangled.Describable ⟨44⟩ ∧
      tangled.TellsTruth ⟨44⟩ (.cycle "App.Ring`2[]") := by
  obtain ⟨-, hpair, -⟩ := describe_succeeds_iff tangled .nonNull [⟨43⟩] ⟨42⟩
  obtain ⟨-, -, htrue⟩ := describe_succeeds_iff tangled .nonNull [⟨43⟩] ⟨44⟩
  have hdescribed : ((describe tangled .nonNull ⟨42⟩).on
      (.afterRequests tangled .nonNull [⟨43⟩])).1.isOk = true := by decide +kernel
  have hring := htrue (.cycle "App.Ring`2[]") (by decide +kernel)
  refine ⟨hpair.mp ?_, fun h => h.not_tellsTruth _ hring, hring⟩
  cases houtcome : ((describe tangled .nonNull ⟨42⟩).on
      (.afterRequests tangled .nonNull [⟨43⟩])).1 with
  | error error => rw [houtcome] at hdescribed; cases hdescribed
  | ok description => exact ⟨description, rfl⟩

end Interop
