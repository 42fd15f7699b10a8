/-
What a name leads to, whatever it looks like.

The names that a store is called with need not be plain.  A type may be declared
under a name that reads like that of an array or of a generic type, and then the two
are taken for one another.  So what a name leads to need not be what its spelling
suggests.  But it is always a type that goes by this name: it has it as its full name,
or it is a generic type whose definition and arguments have full names that the name
is put together from.  Types never change, so it goes by the name from then on.

Full names are looked up before a type is added, unless it is made of a generic
definition.  So of all types that share a full name at most one was added otherwise,
and this is the one that the name leads to.
-/
import Interop.Proofs.NameIndex

namespace Interop

namespace TypeStore

/-! ### Names of a type -/

/-- A type goes by a name. -/
inductive GoesBy (store : TypeStore) (type : ManagedType) (name : String) : Prop
  /-- It is the full name of the type. -/
  | own (hname : type.fullName = some name)
  /-- It is put together from the full name of a generic type and those of its arguments. -/
  | applied {definition : String} {arguments : List TypeKey} {names : List String}
      (hdefinition : type.fullName = some definition) (hshape : type.shape = .generic arguments)
      (hnames : store.Called arguments names)
      (hname : name = definition ++ "[" ++ ",".intercalate names ++ "]")

section

variable {store next : TypeStore} {call : Call} {key : TypeKey} {type : ManagedType}
  {name : String}

theorem GoesBy.mono (hgrows : store.Grows next) (h : store.GoesBy type name) :
    next.GoesBy type name := by
  cases h with
  | own hname => exact .own hname
  | applied hdefinition hshape hnames hname =>
      exact .applied hdefinition hshape (hnames.mono hgrows) hname

/-- The type that a call brings goes by the name that the call looks for. -/
theorem goesBy_type (call : Call) (hname : call.indexName store = some name) :
    store.GoesBy (call.type store) name := by
  rcases call with type | element | inner | ⟨definition, arguments⟩
  · exact .own hname
  · exact .own ((Construction.indexName_array element store).symm.trans hname)
  · exact .own ((Construction.indexName_nullable inner store).symm.trans hname)
  · obtain ⟨names, hnames, hspell⟩ := indexName_eq_some.mp hname
    exact .applied rfl rfl hnames hspell.symm

theorem Spelled.goesBy (h : store.Spelled type name) : store.GoesBy type name := by
  cases h with
  | own hname _ => exact .own hname
  | made _ hname => exact goesBy_type (.construct _) hname

theorem leadsTo_empty : TypeStore.empty.LeadsTo GoesBy := by
  intro name key hname
  obtain ⟨type, htype, hspelled⟩ := indexed_empty.found hname
  exact ⟨type, htype, hspelled.goesBy⟩

/-- **After any calls, a name leads to a type that goes by it.** -/
theorem LeadsTo.afterCalls (h : store.LeadsTo GoesBy) (calls : List Call)
    (hroom : (store.afterCalls calls).HasRoom) : (store.afterCalls calls).LeadsTo GoesBy := by
  induction calls generalizing store with
  | nil => exact h
  | cons call rest ih =>
      have hcall : (call.run store).2.HasRoom := (grows_afterCalls rest _).hasRoom hroom
      refine ih ?_ hroom
      show (call.run store).2.LeadsTo GoesBy
      rw [call.run_eq] at hcall ⊢
      exact h.put hcall GoesBy.mono (goesBy_type call)

/-! ### What calls add -/

/-- A call adds the type that it brings, at the key that it returns. -/
structure Adds (store : TypeStore) (call : Call) (key : TypeKey) : Prop where
  new : store.get? key = none
  key_eq : (call.run store).1 = key
  type_eq : (call.run store).2.get? key = some (call.type store)

/-- Among the calls that fill a store there is one that adds a type at a key. -/
def Added (store : TypeStore) (calls : List Call) (call : Call) (key : TypeKey) : Prop :=
  ∃ earlier later, calls = earlier ++ call :: later ∧ (store.afterCalls earlier).Adds call key

/-- A type is there after a call if it was there before, or if the call adds it. -/
theorem get?_run_cases (h : (call.run store).2.get? key = some type) :
    store.get? key = some type ∨ store.Adds call key ∧ type = call.type store := by
  cases hold : store.get? key with
  | some other =>
      have hkept := (grows_run store call).types hold
      exact .inl (hkept.symm.trans h)
  | none =>
      obtain ⟨_, _, -, -, hput⟩ | ⟨names, -, -, hput⟩ :=
        store.put_cases (call.indexName store) (call.type store)
      · rw [call.run_eq, hput, hold] at h
        cases h
      · rw [← call.run_eq] at hput
        have hpush := hput ▸ h
        obtain ⟨rfl, rfl⟩ := (get?_push_cases hpush).resolve_right (by rw [hold]; nofun)
        exact .inr ⟨⟨hold, by rw [hput], h⟩, rfl⟩

/-- A type is there after some calls if it was there before, or if one of them adds it. -/
theorem get?_afterCalls_cases {calls : List Call}
    (h : (store.afterCalls calls).get? key = some type) :
    store.get? key = some type ∨
      ∃ call earlier later, calls = earlier ++ call :: later ∧
        (store.afterCalls earlier).Adds call key ∧
        type = call.type (store.afterCalls earlier) := by
  induction calls generalizing store with
  | nil => exact .inl h
  | cons first rest ih =>
      rcases ih h with hfirst | ⟨call, earlier, later, rfl, hadds, htype⟩
      · rcases get?_run_cases hfirst with hold | ⟨hadds, htype⟩
        · exact .inl hold
        · exact .inr ⟨first, [], rest, rfl, hadds, htype⟩
      · exact .inr ⟨call, first :: earlier, later, rfl, hadds, htype⟩

/-- A full name leads to the type that has it, unless this was made of a generic definition of that
name. -/
theorem find?_or_added {calls : List Call}
    (h : (TypeStore.empty.afterCalls calls).fullNameOf key = some name) :
    (TypeStore.empty.afterCalls calls).find? name = some key ∨
      ∃ arguments, TypeStore.empty.Added calls (.construct (.generic name arguments)) key := by
  obtain ⟨type, htype, hfull⟩ := Option.bind_eq_some_iff.mp h
  rcases get?_afterCalls_cases htype with hbuiltin | ⟨call, earlier, later, rfl, hadds, rfl⟩
  · have hname := Option.bind_eq_some_iff.mpr ⟨type, hbuiltin, hfull⟩
    exact .inl ((grows_afterCalls calls _).names (find?_of_fullNameOf_empty hname).1)
  · rcases indexName_or_generic hfull with hindex | ⟨arguments, rfl⟩
    · have hfind := find?_run_of_indexName _ call hindex
      rw [hadds.key_eq] at hfind
      rw [afterCalls_append]
      exact .inl ((grows_afterCalls later _).names hfind)
    · exact .inr ⟨arguments, earlier, later, rfl, hadds⟩

/-- A type without a full name is always added. -/
theorem adds_of_nameless (hname : type.fullName = none)
    (hroom : (store.register type).2.HasRoom) :
    store.Adds (.declare type) (store.register type).1 := by
  have hadd : store.register type =
      (keyAt store.slots.size, ⟨store.slots.push (some type), store.names⟩) := by
    rw [register, hname]
    rfl
  have htype : ((Call.declare type).run store).2.get? (store.register type).1 =
      (store.register type).2.get? (store.register type).1 := rfl
  rw [hadd] at hroom htype ⊢
  have hkey := toNat_keyAt hroom.next_lt
  refine ⟨get?_next hkey, congrArg Prod.fst hadd, htype.trans ?_⟩
  rw [get?_push, if_pos hkey]
  rfl

end

/-! ### The index of names -/

/--
**What names lead to after any calls.**  As long as there are keys for all types, a name
leads to a type that goes by it.  The key that a type with a full name is registered at
is the one that this name leads to, then and after all calls to come.  Two types share a
full name only if one of them was added for a generic definition of that name.  And a
type without a full name is always added.
-/
theorem afterCalls_names_found (calls : List Call) :
    let store := TypeStore.empty.afterCalls calls
    (store.HasRoom → ∀ name key, store.find? name = some key →
      ∃ type, store.get? key = some type ∧ store.GoesBy type name) ∧
    (∀ type name later, type.fullName = some name →
      ((store.register type).2.afterCalls later).find? name = some (store.register type).1) ∧
    (∀ key other name, key ≠ other → store.fullNameOf key = some name →
      store.fullNameOf other = some name →
      ∃ arguments, TypeStore.empty.Added calls (.construct (.generic name arguments)) key ∨
        TypeStore.empty.Added calls (.construct (.generic name arguments)) other) ∧
    ∀ type, type.fullName = none → (store.register type).2.HasRoom →
      store.Adds (.declare type) (store.register type).1 := by
  intro store
  refine ⟨fun hroom name key hname => leadsTo_empty.afterCalls calls hroom hname, ?_, ?_,
    fun type => adds_of_nameless⟩
  · intro type name later hname
    have hfind := find?_run_of_indexName store (.declare type) hname
    exact (grows_afterCalls later _).names hfind
  · intro key other name hne hkey hother
    rcases find?_or_added hkey with hfind | ⟨arguments, hadded⟩
    · rcases find?_or_added hother with hfind' | ⟨arguments, hadded⟩
      · exact absurd (Option.some.inj (hfind.symm.trans hfind')) hne
      · exact ⟨arguments, .inr hadded⟩
    · exact ⟨arguments, .inl hadded⟩

/-- A class that is declared under a name like that of a generic type is taken for it, and another
one shares the name of its definition. -/
theorem afterCalls_names_imitated :
    let calls := [.construct (.generic "App.Box" [.int32]), .declare (.namedClass "App.Box")]
    let store := TypeStore.empty.afterCalls calls
    let imitation := ManagedType.namedClass "App.Box[System.Int32]"
    let nameless : ManagedType := { name := "T", fullName := none, shape := .genericParameter }
    (∃ type, store.get? ⟨32⟩ = some type ∧ store.GoesBy type "App.Box[System.Int32]") ∧
      (store.register imitation).1 = ⟨32⟩ ∧
      ((store.register imitation).2.afterCalls calls).find? "App.Box[System.Int32]" =
        some (store.register imitation).1 ∧
      (∃ arguments,
        TypeStore.empty.Added calls (.construct (.generic "App.Box" arguments)) ⟨32⟩ ∨
          TypeStore.empty.Added calls (.construct (.generic "App.Box" arguments)) ⟨33⟩) ∧
      store.Adds (.declare nameless) (store.register nameless).1 := by
  intro calls store imitation nameless
  obtain ⟨hleads, hregistered, hshared, hnameless⟩ := afterCalls_names_found calls
  refine ⟨hleads (by decide +kernel) _ _ (by decide +kernel), by decide +kernel,
    hregistered imitation _ calls rfl, ?_, hnameless nameless rfl (by decide +kernel)⟩
  exact hshared ⟨32⟩ ⟨33⟩ "App.Box" (by decide) (by decide +kernel) (by decide +kernel)

end TypeStore

end Interop
