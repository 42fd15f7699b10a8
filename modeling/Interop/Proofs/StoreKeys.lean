/-
Which keys a store hands out, and what it hands them out for.

The keys of a store are the numbers of the slots that hold a type, read off the row
from its start, so they increase as long as they do not run past 2^32.  What
reflection offers is exactly this.

A full name is spelled out in the index, whatever calls filled the store, and so two
types can share one only if one of them is generic.
-/
import Interop.Proofs.NameIndex

namespace Interop

namespace TypeStore

/-! ### Keys -/

section

variable {store : TypeStore} {key : TypeKey}

/-- The keys are those of the slots that hold a type. -/
theorem mem_keys_iff_slot :
    key ∈ store.keys ↔
      ∃ index type, store.slots[index]? = some (some type) ∧ keyAt index = key := by
  simp only [← Array.getElem?_toList]
  constructor
  · intro hkey
    obtain ⟨⟨slot, index⟩, hmem, rfl⟩ := List.mem_map.mp hkey
    obtain ⟨hslot, hsome⟩ := List.mem_filter.mp hmem
    obtain ⟨type, rfl⟩ := Option.isSome_iff_exists.mp hsome
    exact ⟨index, type, List.mk_mem_zipIdx_iff_getElem?.mp hslot, rfl⟩
  · rintro ⟨index, type, hslot, rfl⟩
    refine List.mem_map.mpr ⟨(some type, index), List.mem_filter.mpr ⟨?_, rfl⟩, rfl⟩
    exact List.mk_mem_zipIdx_iff_getElem?.mpr hslot

/-- Each key has a type, and no other has one. -/
theorem mem_keys_iff_isSome (hroom : store.HasRoom) :
    key ∈ store.keys ↔ (store.get? key).isSome = true := by
  rw [mem_keys_iff_slot, Option.isSome_iff_exists]
  constructor
  · rintro ⟨index, type, hslot, rfl⟩
    obtain ⟨hindex, -⟩ := Array.getElem?_eq_some_iff.mp hslot
    refine ⟨type, ?_⟩
    rw [get?, toNat_keyAt (Nat.lt_of_lt_of_le hindex hroom), hslot]
    rfl
  · rintro ⟨type, htype⟩
    refine ⟨key.raw.toNat, type, Option.join_eq_some_iff.mp htype, ?_⟩
    rw [keyAt, UInt32.ofNat_toNat]

/-- **The keys increase.** -/
theorem keys_increasing (hroom : store.HasRoom) :
    store.keys.Pairwise fun key other => key.raw < other.raw := by
  have hslots : store.slots.toList.zipIdx.Pairwise fun entry other => entry.2 < other.2 := by
    rw [← List.pairwise_map (f := Prod.snd), List.zipIdx_map_snd]
    exact List.pairwise_lt_range'
  have hindex : ∀ entry ∈ store.slots.toList.zipIdx, (keyAt entry.2).raw.toNat = entry.2 := by
    intro entry hentry
    have hlt := (List.mem_zipIdx' hentry).1
    rw [Array.length_toList] at hlt
    exact toNat_keyAt (Nat.lt_of_lt_of_le hlt hroom)
  refine List.pairwise_map.mpr ((hslots.imp_of_mem ?_).filter _)
  intro entry other hentry hother hlt
  rwa [UInt32.lt_iff_toNat_lt, hindex entry hentry, hindex other hother]

/-- There are as many keys as types. -/
theorem length_keys (store : TypeStore) : store.keys.length = store.size := by
  rw [keys, List.length_map, ← List.countP_eq_length_filter, size, ← Array.countP_toList]
  conv_rhs => rw [← List.zipIdx_map_fst 0 store.slots.toList, List.countP_map]
  rfl

/-- A type that is added brings its key with it, behind the others. -/
theorem keys_push (store : TypeStore) (names : List (String × TypeKey)) (type : ManagedType) :
    (TypeStore.mk (store.slots.push (some type)) names).keys =
      store.keys ++ [keyAt store.slots.size] := by
  simp [keys, List.zipIdx_append]

/-! ### What reflection offers -/

/-- Looking up a key among listed ones gives what was listed for it. -/
theorem lookup_filterMap_map {α : Type} (value? : TypeKey → Option α) (keys : List TypeKey)
    (key : TypeKey) :
    (keys.filterMap fun listed => (value? listed).map fun value => (listed, value)).lookup key =
      if key ∈ keys then value? key else none := by
  induction keys with
  | nil => rfl
  | cons first rest ih =>
      rw [List.filterMap_cons]
      by_cases hsame : key = first
      · subst hsame
        cases hvalue : value? key with
        | none => simp [ih, hvalue]
        | some value => simp
      · have hbeq : (key == first) = false := by simpa using hsame
        cases hvalue : value? first with
        | none => simp [ih, hsame]
        | some value => simp [List.lookup_cons, hbeq, ih, hsame]

/-- Reflection offers nothing but what is in the store. -/
theorem get?_of_reflection {type : ManagedType} (h : store.reflection.get? key = some type) :
    store.get? key = some type := by
  rw [Reflection.get?, reflection, lookup_filterMap_map] at h
  split at h
  · exact h
  · cases h

/-- And it offers all of it. -/
theorem get?_reflection (hroom : store.HasRoom) (key : TypeKey) :
    store.reflection.get? key = store.get? key := by
  rw [Reflection.get?, reflection, lookup_filterMap_map]
  by_cases hkey : key ∈ store.keys
  · rw [if_pos hkey]
  · rw [if_neg hkey]
    rw [mem_keys_iff_isSome hroom, Option.not_isSome_iff_eq_none] at hkey
    exact hkey.symm

theorem keys_reflection (hroom : store.HasRoom) : store.reflection.keys = store.keys := by
  rw [Reflection.keys, reflection, List.map_filterMap]
  refine (List.filterMap_congr fun key hkey => ?_).trans List.filterMap_some
  obtain ⟨type, htype⟩ := Option.isSome_iff_exists.mp ((mem_keys_iff_isSome hroom).mp hkey)
  rw [htype]
  rfl

/-! ### Full names -/

/-- The full name of a type leads to its key, unless the type is generic. -/
def NamesLead (store : TypeStore) : Prop :=
  ∀ ⦃key type name⦄, store.get? key = some type → type.fullName = some name →
    store.find? name = some key ∨ ∃ arguments, type.shape = .generic arguments

theorem namesLead_empty : TypeStore.empty.NamesLead :=
  fun _ _ _ htype hname => indexed_empty.owned htype hname

/-- What is put under its own name, or is generic, keeps the names leading to their types. -/
theorem NamesLead.put (h : store.NamesLead) {name? : Option String} {type : ManagedType}
    (howned : ∀ {name}, type.fullName = some name →
      name? = some name ∨ ∃ arguments, type.shape = .generic arguments) :
    (store.put name? type).2.NamesLead := by
  have hgrows := grows_put store name? type
  obtain ⟨name, key, -, -, hput⟩ | ⟨names, -, hlookup, hput⟩ := store.put_cases name? type
  · rw [hput]
    exact h
  rw [hput] at hgrows ⊢
  intro key found name hfound hname
  rcases get?_push_cases hfound with ⟨rfl, rfl⟩ | hold
  · exact (howned hname).imp_left fun hown => (hlookup name).trans (if_pos hown)
  · exact (h hold hname).imp_left hgrows.names

/-- **Whatever calls filled the store, full names lead to their types.** -/
theorem namesLead_afterCalls (calls : List Call) (h : store.NamesLead) :
    (store.afterCalls calls).NamesLead := by
  induction calls generalizing store with
  | nil => exact h
  | cons call rest ih =>
      refine ih ?_
      show (call.run store).2.NamesLead
      rw [call.run_eq]
      exact h.put indexName_of_fullName

/-- Two types that are not generic never share a full name. -/
theorem NamesLead.key_eq (h : store.NamesLead) {other : TypeKey} {type type' : ManagedType}
    {name : String} (htype : store.get? key = some type) (htype' : store.get? other = some type')
    (hname : type.fullName = some name) (hname' : type'.fullName = some name)
    (hshape : ∀ arguments, type.shape ≠ .generic arguments)
    (hshape' : ∀ arguments, type'.shape ≠ .generic arguments) : key = other := by
  obtain hfind | ⟨arguments, hgeneric⟩ := h htype hname
  · obtain hfind' | ⟨arguments, hgeneric⟩ := h htype' hname'
    · exact Option.some.inj (hfind.symm.trans hfind')
    · exact absurd hgeneric (hshape' arguments)
  · exact absurd hgeneric (hshape arguments)

end

end TypeStore

end Interop
