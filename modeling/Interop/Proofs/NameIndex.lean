/-
What a store of types remembers of how its types were made.

A store is filled by calls: a type is declared, or one is made of others.  Each
call puts a type under a name, or adds it under none, so a store changes in a
single way, and types and names that are there stay what they are.

What is kept all along is that a name leads to a type that is spelled by it, that
no two names lead to one type, and that each type with a full name is the one that
this name leads to, unless it is a generic type.  A generic type carries the name
of its definition, and that is the one way for two types to share a full name.

The keys are numbers below 2^32, and no store is thought to use them up.
-/
import Interop.Proofs.FirstFailure
import Interop.Proofs.TypeNames

namespace Interop

/-! ### Types made of others -/

/-- A type that is made of others. -/
inductive Construction where
  | array (element : TypeKey)
  | nullable (inner : TypeKey)
  | generic (definition : String) (arguments : List TypeKey)
  deriving DecidableEq, Repr

/-- The way in which a type is made of others. -/
inductive Former where
  | array
  | nullable
  | generic (definition : String)
  deriving DecidableEq, Repr

/-- The name of a type that is made of types with full names. -/
def Former.spell : Former → List String → String
  | .array, names => arrayName (names.headD "")
  | .nullable, names => nullableName (names.headD "")
  | .generic definition, names => TypeStore.genericIndexName definition names

namespace Construction

def former : Construction → Former
  | array _ => .array
  | nullable _ => .nullable
  | generic definition _ => .generic definition

/-- The types that the type is made of. -/
def components : Construction → List TypeKey
  | array element => [element]
  | nullable inner => [inner]
  | generic _ arguments => arguments

/-- Makes the type, or finds the one that was made. -/
def run (construction : Construction) (store : TypeStore) : TypeKey × TypeStore :=
  match construction with
  | array element => store.registerArray element
  | nullable inner => store.registerNullable inner
  | generic definition arguments => store.registerGeneric definition arguments

/-- The name that the type is looked up under, if all its components have full names. -/
def indexName (construction : Construction) (store : TypeStore) : Option String :=
  (construction.components.mapM store.fullNameOf).map construction.former.spell

/-- The type that is made. -/
def type (construction : Construction) (store : TypeStore) : ManagedType :=
  match construction with
  | array element => {
      name := match store.get? element with
        | some type => type.name ++ "[]"
        | none => "Array"
      fullName := (store.fullNameOf element).map arrayName
      shape := .array element }
  | nullable inner => {
      name := "Nullable`1"
      fullName := (store.fullNameOf inner).map nullableName
      shape := .nullable inner
      nullability := .nullable }
  | generic definition arguments => {
      name := ManagedType.shortName definition
      fullName := some definition
      shape := .generic arguments
      base := some .object }

theorem indexName_array (element : TypeKey) (store : TypeStore) :
    (array element).indexName store = (store.fullNameOf element).map arrayName := by
  show ([element].mapM store.fullNameOf).map _ = _
  rw [List.mapM_cons]
  cases store.fullNameOf element <;> rfl

theorem indexName_nullable (inner : TypeKey) (store : TypeStore) :
    (nullable inner).indexName store = (store.fullNameOf inner).map nullableName := by
  show ([inner].mapM store.fullNameOf).map _ = _
  rw [List.mapM_cons]
  cases store.fullNameOf inner <;> rfl

end Construction

/-! ### Calls -/

/-- A call that fills a store. -/
inductive Call where
  | declare (type : ManagedType)
  | construct (construction : Construction)
  deriving DecidableEq, Repr

namespace Call

def run (call : Call) (store : TypeStore) : TypeKey × TypeStore :=
  match call with
  | declare type => store.register type
  | construct construction => construction.run store

/-- The name that the call looks for. -/
def indexName (call : Call) (store : TypeStore) : Option String :=
  match call with
  | declare type => type.fullName
  | construct construction => construction.indexName store

/-- The type that the call brings. -/
def type (call : Call) (store : TypeStore) : ManagedType :=
  match call with
  | declare type => type
  | construct construction => construction.type store

/-- All names that the call brings with it are plain. -/
def IsPlain : Call → Prop
  | declare type => ∀ name ∈ type.fullName, PlainName name
  | construct (.generic definition _) => PlainName definition
  | construct (.array _) | construct (.nullable _) => True

instance : DecidablePred IsPlain
  | declare type => inferInstanceAs (Decidable (∀ name ∈ type.fullName, PlainName name))
  | construct (.generic definition _) => inferInstanceAs (Decidable (PlainName definition))
  | construct (.array _) | construct (.nullable _) => isTrue trivial

end Call

namespace TypeStore

/-- The store after some calls in order. -/
def afterCalls (store : TypeStore) (calls : List Call) : TypeStore :=
  calls.foldl (fun store call => (call.run store).2) store

/-- Some calls with plain names lead from one store to another. -/
def Reaches (store next : TypeStore) : Prop :=
  ∃ calls : List Call, (∀ call ∈ calls, call.IsPlain) ∧ store.afterCalls calls = next

/-- Puts a type under a name, or adds it under none. -/
def put (store : TypeStore) (name? : Option String) (type : ManagedType) : TypeKey × TypeStore :=
  match name? with
  | some name => store.addUnder name type
  | none => store.add type

end TypeStore

/-- Every call puts one type under one name or none. -/
theorem Call.run_eq (call : Call) (store : TypeStore) :
    call.run store = store.put (call.indexName store) (call.type store) := by
  cases call with
  | declare type =>
      show store.register type = store.put type.fullName type
      unfold TypeStore.register
      cases type.fullName <;> rfl
  | construct construction =>
      cases construction with
      | array element =>
          rw [Call.indexName, Construction.indexName_array]
          rfl
      | nullable inner =>
          rw [Call.indexName, Construction.indexName_nullable]
          rfl
      | generic definition arguments =>
          show store.registerGeneric definition arguments = _
          unfold TypeStore.registerGeneric
          dsimp only [Call.indexName, Construction.indexName, Construction.components]
          cases arguments.mapM store.fullNameOf <;> rfl

namespace TypeStore

/-! ### Putting -/

/-- There are keys for all slots of the store. -/
def HasRoom (store : TypeStore) : Prop :=
  store.slots.size ≤ UInt32.size

instance (store : TypeStore) : Decidable store.HasRoom :=
  inferInstanceAs (Decidable (_ ≤ _))

/-- What is in a store is in another one at the same keys and under the same names. -/
structure Grows (store next : TypeStore) : Prop where
  types : ∀ {key type}, store.get? key = some type → next.get? key = some type
  names : ∀ {name key}, store.find? name = some key → next.find? name = some key
  size : store.slots.size ≤ next.slots.size

namespace Grows

theorem refl (store : TypeStore) : store.Grows store := ⟨id, id, Nat.le_refl _⟩

theorem trans {store next last : TypeStore} (h : store.Grows next) (h' : next.Grows last) :
    store.Grows last :=
  ⟨fun htype => h'.types (h.types htype), fun hname => h'.names (h.names hname),
    Nat.le_trans h.size h'.size⟩

theorem hasRoom {store next : TypeStore} (h : store.Grows next) (hroom : next.HasRoom) :
    store.HasRoom :=
  Nat.le_trans h.size hroom

theorem fullNameOf {store next : TypeStore} (h : store.Grows next) {key : TypeKey} {name : String}
    (hname : store.fullNameOf key = some name) : next.fullNameOf key = some name := by
  unfold TypeStore.fullNameOf at hname ⊢
  obtain ⟨type, htype, hfull⟩ := Option.bind_eq_some_iff.mp hname
  rw [h.types htype]
  exact hfull

end Grows

section

variable {store : TypeStore} {key : TypeKey} {type : ManagedType} {name : String}

/-- A type that is added stands in the new slot, and the others stay where they are. -/
theorem get?_push (store : TypeStore) (names : List (String × TypeKey)) (type : ManagedType)
    (key : TypeKey) :
    (TypeStore.mk (store.slots.push (some type)) names).get? key =
      if key.raw.toNat = store.slots.size then some type else store.get? key := by
  unfold TypeStore.get?
  rw [Array.getElem?_push]
  split <;> rfl

/-- There is nothing behind the last slot. -/
theorem get?_next (h : key.raw.toNat = store.slots.size) : store.get? key = none := by
  rw [get?, h, Array.getElem?_size]
  rfl

theorem HasRoom.next_lt {names : List (String × TypeKey)}
    (hroom : (TypeStore.mk (store.slots.push (some type)) names).HasRoom) :
    store.slots.size < UInt32.size := by
  have hsize : (store.slots.push (some type)).size ≤ UInt32.size := hroom
  rwa [Array.size_push] at hsize

theorem toNat_keyAt {index : Nat} (h : index < UInt32.size) : (keyAt index).raw.toNat = index := by
  simp only [keyAt, UInt32.toNat_ofNat']
  exact Nat.mod_eq_of_lt h

/-- A type of the larger store is the one that was added, or was there before. -/
theorem get?_push_cases {names : List (String × TypeKey)} {found : ManagedType}
    (h : (TypeStore.mk (store.slots.push (some type)) names).get? key = some found) :
    key = keyAt store.slots.size ∧ found = type ∨ store.get? key = some found := by
  rw [get?_push] at h
  by_cases hnext : key.raw.toNat = store.slots.size
  · rw [if_pos hnext] at h
    refine .inl ⟨?_, (Option.some.inj h).symm⟩
    -- A slot whose number is that of a key has this key.
    have hslot := toNat_keyAt (hnext ▸ key.raw.toNat_lt)
    exact TypeKey.eq_of_toNat (hnext.trans hslot.symm)
  · rw [if_neg hnext] at h
    exact .inr h

/-- **What putting a type into a store comes to.**  The name is known and nothing happens, or the
type is added at the next key, which its name, if it has one, leads to from then on. -/
theorem put_cases (store : TypeStore) (name? : Option String) (type : ManagedType) :
    (∃ name key, name? = some name ∧ store.find? name = some key ∧
      store.put name? type = (key, store)) ∨
    ∃ names : List (String × TypeKey),
      (∀ name, name? = some name → store.find? name = none) ∧
      (∀ name, names.lookup name =
        if name? = some name then some (keyAt store.slots.size) else store.find? name) ∧
      store.put name? type =
        (keyAt store.slots.size, ⟨store.slots.push (some type), names⟩) := by
  cases name? with
  | none => exact .inr ⟨store.names, nofun, fun name => rfl, rfl⟩
  | some own =>
      cases hfind : store.find? own with
      | some key => exact .inl ⟨own, key, rfl, hfind, addUnder_of_known hfind type⟩
      | none =>
          refine .inr ⟨(own, keyAt store.slots.size) :: store.names, ?_, ?_,
            addUnder_of_new hfind type⟩
          · intro name hname
            rwa [← Option.some.inj hname]
          · intro name
            rw [List.lookup_cons]
            by_cases hsame : name = own
            · subst hsame
              simp
            · have hbeq : (name == own) = false := by simpa using hsame
              rw [hbeq, if_neg fun hname => hsame (Option.some.inj hname).symm]
              rfl

/-- What is put into a store leaves everything else where it was. -/
theorem grows_put (store : TypeStore) (name? : Option String) (type : ManagedType) :
    store.Grows (store.put name? type).2 := by
  obtain ⟨name, key, -, -, hput⟩ | ⟨names, hnew, hnames, hput⟩ := store.put_cases name? type
  · rw [hput]
    exact .refl store
  · rw [hput]
    refine ⟨?_, ?_, ?_⟩
    · intro key found hfound
      rw [get?_push]
      by_cases hnext : key.raw.toNat = store.slots.size
      · rw [get?_next hnext] at hfound
        cases hfound
      · rw [if_neg hnext, hfound]
    · intro name key hname
      refine (hnames name).trans ?_
      by_cases hown : name? = some name
      · rw [hnew name hown] at hname
        cases hname
      · rw [if_neg hown, hname]
    · rw [Array.size_push]
      omega

/-- Every name leads to a type of which something holds. -/
def LeadsTo (store : TypeStore) (holds : TypeStore → ManagedType → String → Prop) : Prop :=
  ∀ ⦃name key⦄, store.find? name = some key →
    ∃ type, store.get? key = some type ∧ holds store type name

/-- Names go on leading to such types, if what holds of a type stays true and holds of what is put
under a name. -/
theorem LeadsTo.put {holds : TypeStore → ManagedType → String → Prop} (h : store.LeadsTo holds)
    {name? : Option String} (hroom : (store.put name? type).2.HasRoom)
    (hmono : ∀ {store next : TypeStore} {found name}, store.Grows next →
      holds store found name → holds next found name)
    (hput : ∀ {name}, name? = some name → holds store type name) :
    (store.put name? type).2.LeadsTo holds := by
  have hgrows := grows_put store name? type
  obtain ⟨_, _, -, -, hknown⟩ | ⟨names, -, hlookup, hadded⟩ := store.put_cases name? type
  · rw [hknown]
    exact h
  rw [hadded] at hroom hgrows ⊢
  intro name key hname
  replace hname := (hlookup name).symm.trans hname
  split at hname
  · obtain rfl := Option.some.inj hname
    refine ⟨type, ?_, hmono hgrows (hput ‹_›)⟩
    rw [get?_push, if_pos (toNat_keyAt hroom.next_lt)]
  · obtain ⟨found, hfound, hholds⟩ := h hname
    exact ⟨found, hgrows.types hfound, hmono hgrows hholds⟩

end

/-! ### Spelling -/

/-- The types at some keys have these full names. -/
def Called (store : TypeStore) : List TypeKey → List String → Prop :=
  List.Forall₂ fun key name => store.fullNameOf key = some name

/-- A type is looked up under its own name, or under one that is made of its components' names. -/
inductive Spelled (store : TypeStore) : ManagedType → String → Prop
  | own {type : ManagedType} {name : String} (hname : type.fullName = some name)
      (hown : OwnName name) : Spelled store type name
  | made {construction : Construction} {name : String}
      (hplain : (Call.construct construction).IsPlain)
      (hname : construction.indexName store = some name) :
      Spelled store (construction.type store) name

section

variable {store next : TypeStore} {construction : Construction} {name : String}

theorem indexName_eq_some :
    construction.indexName store = some name ↔
      ∃ names, store.Called construction.components names ∧
        construction.former.spell names = name := by
  simp only [Construction.indexName, Option.map_eq_some_iff, mapM_eq_some_iff]
  rfl

theorem Called.mono {keys : List TypeKey} {names : List String} (h : store.Called keys names)
    (hgrows : store.Grows next) : next.Called keys names :=
  h.imp fun _ _ => hgrows.fullNameOf

theorem Grows.indexName (h : store.Grows next)
    (hname : construction.indexName store = some name) :
    construction.indexName next = some name := by
  obtain ⟨names, hnames, hspell⟩ := indexName_eq_some.mp hname
  exact indexName_eq_some.mpr ⟨names, hnames.mono h, hspell⟩

/-- What is looked up under a name is the same type in any later store. -/
theorem Grows.type (h : store.Grows next) (hname : construction.indexName store = some name) :
    construction.type next = construction.type store := by
  unfold Construction.type
  cases construction with
  | array element =>
      rw [Construction.indexName_array] at hname
      obtain ⟨own, hown, -⟩ := Option.map_eq_some_iff.mp hname
      obtain ⟨type, htype, -⟩ := Option.bind_eq_some_iff.mp hown
      dsimp only
      rw [h.fullNameOf hown, hown, h.types htype, htype]
  | nullable inner =>
      rw [Construction.indexName_nullable] at hname
      obtain ⟨own, hown, -⟩ := Option.map_eq_some_iff.mp hname
      dsimp only
      rw [h.fullNameOf hown, hown]
  | generic definition arguments => rfl

theorem Spelled.mono {type : ManagedType} (h : store.Spelled type name)
    (hgrows : store.Grows next) : next.Spelled type name := by
  cases h with
  | own hname hown => exact .own hname hown
  | made hplain hname =>
      rw [← hgrows.type hname]
      exact .made hplain (hgrows.indexName hname)

end

/-! ### The index -/

/-- The index of a store leads to what it names. -/
structure Indexed (store : TypeStore) : Prop where
  /-- A name leads to a type that is spelled by it. -/
  found : ∀ {name key}, store.find? name = some key →
    ∃ type, store.get? key = some type ∧ store.Spelled type name
  /-- No two names lead to one type. -/
  apart : ∀ {name other key}, store.find? name = some key → store.find? other = some key →
    name = other
  /-- A full name leads to the type that has it, unless it is a generic type. -/
  owned : ∀ {key type name}, store.get? key = some type → type.fullName = some name →
    store.find? name = some key ∨ ∃ arguments, type.shape = .generic arguments
  /-- Full names can stand in lists. -/
  listable : ∀ {key type name}, store.get? key = some type → type.fullName = some name →
    ListableName name

section

variable {store : TypeStore} {name? : Option String} {type : ManagedType}

/-- No name leads to the next slot yet. -/
theorem Indexed.find?_ne_next (h : store.Indexed) {key : TypeKey} {name : String}
    (hkey : key.raw.toNat = store.slots.size) :
    store.find? name ≠ some key := by
  intro hname
  obtain ⟨found, hfound, -⟩ := h.found hname
  rw [get?_next hkey] at hfound
  cases hfound

/-- What is put into a store keeps the index. -/
theorem Indexed.put (h : store.Indexed) (hroom : (store.put name? type).2.HasRoom)
    (hspelled : ∀ {name}, name? = some name → store.Spelled type name)
    (howned : ∀ {name}, type.fullName = some name →
      name? = some name ∨ ∃ arguments, type.shape = .generic arguments)
    (hlistable : ∀ {name}, type.fullName = some name → ListableName name) :
    (store.put name? type).2.Indexed := by
  have hgrows := grows_put store name? type
  have hleads : (store.put name? type).2.LeadsTo Spelled :=
    LeadsTo.put (fun _ _ => h.found) hroom (fun hgrows hold => hold.mono hgrows) hspelled
  obtain ⟨name, key, -, -, hput⟩ | ⟨names, -, hlookup, hput⟩ := store.put_cases name? type
  · rw [hput]
    exact h
  rw [hput] at hroom hgrows hleads ⊢
  have hkey := toNat_keyAt hroom.next_lt
  have hnames : ∀ {name key}, names.lookup name = some key →
      name? = some name ∧ key = keyAt store.slots.size ∨ store.find? name = some key := by
    intro name key hname
    rw [hlookup] at hname
    split at hname
    · exact .inl ⟨‹_›, (Option.some.inj hname).symm⟩
    · exact .inr hname
  refine ⟨fun hname => hleads hname, ?_, ?_, ?_⟩
  · intro name other key hname hother
    rcases hnames hname with ⟨hsome, rfl⟩ | hold
    · rcases hnames hother with ⟨hsome', -⟩ | hold'
      · exact Option.some.inj (hsome.symm.trans hsome')
      · exact absurd hold' (h.find?_ne_next hkey)
    · rcases hnames hother with ⟨hsome', rfl⟩ | hold'
      · exact absurd hold (h.find?_ne_next hkey)
      · exact h.apart hold hold'
  · intro key found name hfound hname
    rcases get?_push_cases hfound with ⟨rfl, rfl⟩ | hold
    · rcases howned hname with hsome | hgeneric
      · exact .inl ((hlookup name).trans (if_pos hsome))
      · exact .inr hgeneric
    · rcases h.owned hold hname with hfind | hgeneric
      · exact .inl (hgrows.names hfind)
      · exact .inr hgeneric
  · intro key found name hfound hname
    rcases get?_push_cases hfound with ⟨rfl, rfl⟩ | hold
    · exact hlistable hname
    · exact h.listable hold hname

end

/-! ### Calls keep the index -/

/-- The full names of the runtime's own types lead to them, and can stand in lists. -/
theorem find?_of_fullNameOf_empty {key : TypeKey} {name : String}
    (h : TypeStore.empty.fullNameOf key = some name) :
    TypeStore.empty.find? name = some key ∧ ListableName name := by
  have hslots : ∀ index ∈ List.range TypeStore.empty.slots.size,
      ∀ name ∈ TypeStore.empty.fullNameOf (keyAt index),
        TypeStore.empty.find? name = some (keyAt index) ∧ ListableName name := by
    decide +kernel
  have hkey : key = keyAt key.raw.toNat := by rw [keyAt, UInt32.ofNat_toNat]
  obtain ⟨type, htype, -⟩ := Option.bind_eq_some_iff.mp h
  obtain ⟨hslot, -⟩ := Array.getElem?_eq_some_iff.mp (Option.join_eq_some_iff.mp htype)
  rw [hkey] at h ⊢
  exact hslots _ (List.mem_range.mpr hslot) name h

/-- The runtime's own types are indexed under their own names. -/
theorem indexed_empty : TypeStore.empty.Indexed := by
  have hnames : ∀ entry ∈ TypeStore.empty.names,
      TypeStore.empty.fullNameOf entry.2 = some entry.1 ∧ OwnName entry.1 := by decide +kernel
  have hfound : ∀ {name key}, TypeStore.empty.find? name = some key →
      TypeStore.empty.fullNameOf key = some name ∧ OwnName name := by
    intro name key hname
    obtain ⟨before, after, hsplit, -⟩ := List.lookup_eq_some_iff.mp hname
    refine hnames (name, key) ?_
    show (name, key) ∈ TypeStore.empty.names
    rw [hsplit]
    simp
  refine ⟨?_, ?_, ?_, ?_⟩
  · intro name key hname
    obtain ⟨hfull, hown⟩ := hfound hname
    obtain ⟨type, htype, hfull⟩ := Option.bind_eq_some_iff.mp hfull
    exact ⟨type, htype, .own hfull hown⟩
  · intro name other key hname hother
    exact Option.some.inj ((hfound hname).1.symm.trans (hfound hother).1)
  · intro key type name htype hname
    exact .inl (find?_of_fullNameOf_empty (Option.bind_eq_some_iff.mpr ⟨type, htype, hname⟩)).1
  · intro key type name htype hname
    exact (find?_of_fullNameOf_empty (Option.bind_eq_some_iff.mpr ⟨type, htype, hname⟩)).2

variable {store : TypeStore} {call : Call}

theorem spelled_type (hplain : call.IsPlain) {name : String}
    (hname : call.indexName store = some name) : store.Spelled (call.type store) name := by
  cases call with
  | declare type => exact .own hname (hplain name hname).ownName
  | construct construction => exact .made hplain hname

/-- Only what is made of a generic definition is looked up under another name than its own. -/
theorem indexName_or_generic {name : String} (hname : (call.type store).fullName = some name) :
    call.indexName store = some name ∨ ∃ arguments, call = .construct (.generic name arguments) := by
  cases call with
  | declare type => exact .inl hname
  | construct construction =>
      cases construction with
      | array element => exact .inl ((Construction.indexName_array element store).trans hname)
      | nullable inner => exact .inl ((Construction.indexName_nullable inner store).trans hname)
      | generic definition arguments =>
          obtain rfl := Option.some.inj hname
          exact .inr ⟨arguments, rfl⟩

/-- So it is a generic type. -/
theorem indexName_of_fullName {name : String} (hname : (call.type store).fullName = some name) :
    call.indexName store = some name ∨
      ∃ arguments, (call.type store).shape = .generic arguments := by
  refine (indexName_or_generic hname).imp_right ?_
  rintro ⟨arguments, rfl⟩
  exact ⟨arguments, rfl⟩

theorem Indexed.listable_fullName (h : store.Indexed) {key : TypeKey} {name : String}
    (hname : store.fullNameOf key = some name) : ListableName name := by
  obtain ⟨type, htype, hfull⟩ := Option.bind_eq_some_iff.mp hname
  exact h.listable htype hfull

theorem Indexed.listable_type (h : store.Indexed) (hplain : call.IsPlain) {name : String}
    (hname : (call.type store).fullName = some name) : ListableName name := by
  cases call with
  | declare type => exact (hplain name hname).listable
  | construct construction =>
      cases construction with
      | array element =>
          obtain ⟨own, hown, rfl⟩ := Option.map_eq_some_iff.mp hname
          exact (h.listable_fullName hown).array
      | nullable inner =>
          obtain ⟨own, hown, rfl⟩ := Option.map_eq_some_iff.mp hname
          exact (h.listable_fullName hown).nullable
      | generic definition arguments =>
          obtain rfl := Option.some.inj hname
          exact hplain.listable

/-- One call keeps the index. -/
theorem Indexed.run (h : store.Indexed) (hplain : call.IsPlain)
    (hroom : (call.run store).2.HasRoom) : (call.run store).2.Indexed := by
  rw [call.run_eq] at hroom ⊢
  exact h.put hroom (fun hname => spelled_type hplain hname) indexName_of_fullName
    (fun hname => h.listable_type hplain hname)

theorem grows_run (store : TypeStore) (call : Call) : store.Grows (call.run store).2 := by
  rw [call.run_eq]
  exact grows_put ..

/-- The name that a call looks for leads to what it returns. -/
theorem find?_run_of_indexName (store : TypeStore) (call : Call) {name : String}
    (hname : call.indexName store = some name) :
    (call.run store).2.find? name = some (call.run store).1 := by
  rw [call.run_eq]
  obtain ⟨own, key, hown, hfind, hput⟩ | ⟨names, -, hlookup, hput⟩ :=
    store.put_cases (call.indexName store) (call.type store)
  · obtain rfl := Option.some.inj (hown.symm.trans hname)
    rw [hput, hfind]
  · rw [hput]
    exact (hlookup name).trans (if_pos hname)

theorem afterCalls_append (store : TypeStore) (earlier later : List Call) :
    store.afterCalls (earlier ++ later) = (store.afterCalls earlier).afterCalls later :=
  List.foldl_append

/-- After any calls there is what was there before. -/
theorem grows_afterCalls (calls : List Call) :
    ∀ store : TypeStore, store.Grows (store.afterCalls calls) := by
  induction calls with
  | nil => exact fun store => .refl store
  | cons call rest ih =>
      intro store
      exact (grows_run store call).trans (ih (call.run store).2)

theorem Reaches.grows {next : TypeStore} (h : store.Reaches next) : store.Grows next := by
  obtain ⟨calls, -, rfl⟩ := h
  exact grows_afterCalls calls store

/-- **Calls with plain names keep the index.** -/
theorem Reaches.indexed {next : TypeStore} (h : store.Reaches next) (hindexed : store.Indexed)
    (hroom : next.HasRoom) : next.Indexed := by
  obtain ⟨calls, hplain, rfl⟩ := h
  induction calls generalizing store with
  | nil => exact hindexed
  | cons call rest ih =>
      have hcall : (call.run store).2.Indexed := by
        refine hindexed.run (hplain call List.mem_cons_self) ?_
        exact (grows_afterCalls rest (call.run store).2).hasRoom hroom
      exact ih hcall (fun other hother => hplain other (List.mem_cons_of_mem _ hother)) hroom

end TypeStore

end Interop
