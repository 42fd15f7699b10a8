/-
Describing a type with nothing remembered.

`describeAlong` is the walk without a catalogue.  It is told the keys whose parts
are being described, its path, and whatever it meets it describes again, so what
it says of a type depends on the path and on reflection only.  No fuel is needed:
each step puts a known key on the path that was not there, and there are only so
many of them.

The walk with a catalogue is shown to say the same in `Proofs/Faithful.lean`.
-/
import Interop.Catalogue
import Interop.Proofs.FirstFailure

namespace Interop

namespace Reflection

/-- How many entries stand at keys that are not on a path. -/
def offPath (types : Reflection) (path : List TypeKey) : Nat :=
  (types.keys.filter (· ∉ path)).length

theorem offPath_le (types : Reflection) (path : List TypeKey) :
    types.offPath path ≤ types.keys.length :=
  List.length_filter_le ..

/-- A path that takes in one more known key leaves fewer entries off. -/
theorem offPath_cons_lt {types : Reflection} {path : List TypeKey} {key : TypeKey}
    (hknown : key ∈ types.keys) (hfresh : key ∉ path) :
    types.offPath (key :: path) < types.offPath path := by
  have hsplit : types.keys.filter (· ∉ key :: path) =
      (types.keys.filter (· ∉ path)).filter (· ≠ key) := by
    rw [List.filter_filter]
    refine List.filter_congr fun other _ => ?_
    simp
  unfold offPath
  rw [hsplit]
  refine List.length_filter_lt_length_iff_exists.mpr ⟨key, ?_, by simp⟩
  exact List.mem_filter.mpr ⟨hknown, by simpa using hfresh⟩

/-- A type that is found is that of an entry. -/
theorem mem_entries_of_get? {types : Reflection} {key : TypeKey} {type : ManagedType}
    (h : types.get? key = some type) : (key, type) ∈ types.entries := by
  obtain ⟨before, after, hsplit, -⟩ := List.lookup_eq_some_iff.mp h
  rw [hsplit]
  simp

theorem mem_keys_of_get? {types : Reflection} {key : TypeKey} {type : ManagedType}
    (h : types.get? key = some type) : key ∈ types.keys :=
  mem_keys_iff.mpr (by rw [h]; rfl)

end Reflection

section

variable (types : Reflection) (unspecified : Nullness)

/-- Describes a type on a path of keys whose parts are being described. -/
def describeAlong (path : List TypeKey) (key : TypeKey) : Except DescriptionError Description :=
  match _hknown : types.get? key with
  | none => .error (.unknownType key)
  | some type =>
    if _hmet : key ∈ path then
      .error (.cycle type.displayName)
    else
      match type.fullName with
      | none => .error (.noFullName type.name)
      | some declaredName => do
        let parts ← type.shape.parts.mapM fun part => describeAlong (key :: path) part
        return Description.build unspecified key type declaredName parts
termination_by types.offPath path
decreasing_by exact Reflection.offPath_cons_lt (Reflection.mem_keys_of_get? _hknown) _hmet

/-- Describes a type from nothing. -/
def describeAfresh (key : TypeKey) : Except DescriptionError Description :=
  describeAlong types unspecified [] key

/-! ### One step, case by case -/

variable {types unspecified} {path : List TypeKey} {key : TypeKey} {type : ManagedType}

theorem describeAlong_of_unknown (htype : types.get? key = none) :
    describeAlong types unspecified path key = .error (.unknownType key) := by
  rw [describeAlong]
  split
  · rfl
  · simp_all

theorem describeAlong_of_met (htype : types.get? key = some type) (hmet : key ∈ path) :
    describeAlong types unspecified path key = .error (.cycle type.displayName) := by
  rw [describeAlong]
  split
  · simp_all
  · rename_i found hfound
    obtain rfl : found = type := Option.some.inj (hfound.symm.trans htype)
    rw [dif_pos hmet]

theorem describeAlong_of_nameless (htype : types.get? key = some type) (hmet : key ∉ path)
    (hname : type.fullName = none) :
    describeAlong types unspecified path key = .error (.noFullName type.name) := by
  rw [describeAlong]
  split
  · simp_all
  · rename_i found hfound
    obtain rfl : found = type := Option.some.inj (hfound.symm.trans htype)
    rw [dif_neg hmet, hname]

theorem describeAlong_of_named {declaredName : String} (htype : types.get? key = some type)
    (hmet : key ∉ path) (hname : type.fullName = some declaredName) :
    describeAlong types unspecified path key =
      match type.shape.parts.mapM (describeAlong types unspecified (key :: path)) with
      | .ok parts => .ok (Description.build unspecified key type declaredName parts)
      | .error error => .error error := by
  rw [describeAlong]
  split
  · simp_all
  · rename_i found hfound
    obtain rfl : found = type := Option.some.inj (hfound.symm.trans htype)
    rw [dif_neg hmet, hname]
    cases found.shape.parts.mapM (describeAlong types unspecified (key :: path)) <;> rfl

/-- What can be described is known, named, not on the path, and has parts that can be described. -/
theorem describeAlong_eq_ok {description : Description}
    (h : describeAlong types unspecified path key = .ok description) :
    ∃ type declaredName parts, types.get? key = some type ∧ key ∉ path ∧
      type.fullName = some declaredName ∧
      List.Forall₂ (fun part made => describeAlong types unspecified (key :: path) part = .ok made)
        type.shape.parts parts ∧
      description = Description.build unspecified key type declaredName parts := by
  cases htype : types.get? key with
  | none => cases (describeAlong_of_unknown htype).symm.trans h
  | some type =>
      by_cases hmet : key ∈ path
      · cases (describeAlong_of_met htype hmet).symm.trans h
      · cases hname : type.fullName with
        | none => cases (describeAlong_of_nameless htype hmet hname).symm.trans h
        | some declaredName =>
            rw [describeAlong_of_named htype hmet hname] at h
            split at h
            · rename_i parts hparts
              cases h
              exact ⟨type, declaredName, parts, rfl, hmet, hname, mapM_eq_ok_iff.mp hparts, rfl⟩
            · cases h

theorem key_of_describeAlong {description : Description}
    (h : describeAlong types unspecified path key = .ok description) : description.key = key := by
  obtain ⟨type, declaredName, parts, -, -, -, -, rfl⟩ := describeAlong_eq_ok h
  rfl

end

end Interop
