/-
What calls never change about a store.

A call finds the type it brings under the name of that type, and then nothing
happens, or it adds the type at the next key, and then nothing else happens.  So
whatever was at a key or under a name stays there, however many calls follow and
whatever they are called with: no name has to be plain for that.

Two things are carried along from call to call.  Every name leads to a type.  And the
row of slots is twelve longer than there are types: these slots are left empty behind
the runtime's own types when a store is made, and no call fills them or adds another
one.  That is what the number of the next key rests on.
-/
import Interop.Proofs.FoundNames
import Interop.Proofs.StoreKeys

namespace Interop

namespace TypeStore

/-! ### Empty slots -/

/-- Twelve slots are empty: those between the runtime's own types and the registered ones. -/
def Spaced (store : TypeStore) : Prop :=
  store.slots.size = 12 + store.size

theorem spaced_empty : TypeStore.empty.Spaced := by
  unfold Spaced
  decide +kernel

theorem size_push (store : TypeStore) (names : List (String × TypeKey)) (type : ManagedType) :
    (TypeStore.mk (store.slots.push (some type)) names).size = store.size + 1 :=
  Array.countP_push

/-- A call fills a new slot or none. -/
theorem Spaced.run {store : TypeStore} (h : store.Spaced) (call : Call) :
    (call.run store).2.Spaced := by
  rw [call.run_eq]
  obtain ⟨_, _, -, -, hput⟩ | ⟨names, -, -, hput⟩ :=
    store.put_cases (call.indexName store) (call.type store)
  · rw [hput]
    exact h
  · rw [hput]
    show (store.slots.push _).size = 12 + _
    rw [Array.size_push, size_push, h, Nat.add_assoc]

theorem Spaced.afterCalls {store : TypeStore} (h : store.Spaced) (calls : List Call) :
    (store.afterCalls calls).Spaced := by
  induction calls generalizing store with
  | nil => exact h
  | cons call rest ih => exact ih (h.run call)

/-! ### One call -/

/-- What a call does to a store. -/
inductive Takes (store : TypeStore) (call : Call) : Prop
  /-- It finds its type under the type's name, and leaves the store as it is. -/
  | found {name : String} (hname : call.indexName store = some name)
      (hfind : store.find? name = some (call.run store).1)
      (hstore : (call.run store).2 = store)
  /-- It adds its type at the next key. -/
  | added (hnew : ∀ name, call.indexName store = some name → store.find? name = none)
      (hkey : (call.run store).1.raw.toNat = 12 + store.size)
      (hsize : (call.run store).2.size = store.size + 1)
      (hkeys : (call.run store).2.keys = store.keys ++ [(call.run store).1])
      (htype : (call.run store).2.get? (call.run store).1 = some (call.type store))
      (hfind : ∀ name, call.indexName store = some name →
        (call.run store).2.find? name = some (call.run store).1)

theorem Spaced.takes_run {store : TypeStore} {call : Call} (h : store.Spaced)
    (hroom : (call.run store).2.HasRoom) : store.Takes call := by
  obtain ⟨name, key, hname, hfind, hput⟩ | ⟨names, hnew, hlookup, hput⟩ :=
    store.put_cases (call.indexName store) (call.type store)
  · rw [← call.run_eq] at hput
    exact .found hname (by rw [hfind, hput]) (by rw [hput])
  · rw [← call.run_eq] at hput
    rw [hput] at hroom
    have hkey := toNat_keyAt hroom.next_lt
    refine .added hnew ?_ ?_ ?_ ?_ ?_
    · rw [hput, hkey, h]
    · rw [hput, size_push]
    · rw [hput, keys_push]
    · rw [hput, get?_push, if_pos hkey]
    · intro name hname
      rw [hput]
      exact (hlookup name).trans (if_pos hname)

/-! ### Any calls -/

/-- The runtime's own types are at their keys and under their names from the start. -/
theorem builtins_empty :
    ∀ entry ∈ builtins, TypeStore.empty.get? entry.1 = some entry.2 ∧
      ∀ name ∈ entry.2.fullName, TypeStore.empty.find? name = some entry.1 := by
  decide +kernel

/-- What is seen of a store at any moment. -/
structure Orderly (store : TypeStore) : Prop where
  /-- The runtime's own types are at their keys and under their names. -/
  builtins : ∀ entry ∈ TypeStore.builtins, store.get? entry.1 = some entry.2 ∧
    ∀ name ∈ entry.2.fullName, store.find? name = some entry.1
  /-- The keys increase. -/
  increasing : store.keys.Pairwise fun key other => key.raw < other.raw
  /-- They are those that have a type. -/
  mem_keys_iff (key : TypeKey) : key ∈ store.keys ↔ (store.get? key).isSome = true
  length_keys : store.keys.length = store.size
  /-- The slots without a type are those that were left empty at the start. -/
  spaced : store.Spaced
  /-- No name leads anywhere else. -/
  found {name : String} {key : TypeKey} (h : store.find? name = some key) : key ∈ store.keys

theorem orderly_afterCalls (calls : List Call)
    (hroom : (TypeStore.empty.afterCalls calls).HasRoom) :
    (TypeStore.empty.afterCalls calls).Orderly where
  builtins entry hentry := by
    have hgrows := grows_afterCalls calls TypeStore.empty
    obtain ⟨htype, hnames⟩ := builtins_empty entry hentry
    exact ⟨hgrows.types htype, fun name hname => hgrows.names (hnames name hname)⟩
  increasing := keys_increasing hroom
  mem_keys_iff _ := mem_keys_iff_isSome hroom
  length_keys := length_keys _
  spaced := spaced_empty.afterCalls calls
  found hname := by
    obtain ⟨type, htype, -⟩ := leadsTo_empty.afterCalls calls hroom hname
    exact (mem_keys_iff_isSome hroom).mpr (Option.isSome_iff_exists.mpr ⟨type, htype⟩)

/--
**What is in a store stays there.**  After any calls, however many more follow and as
long as there are keys for all types, each key keeps its type and each name its key.
At every moment the runtime's own types are at their keys, and the keys increase and
are exactly those that have a type.  A new store holds the runtime's twenty types, and
each call finds its type, or adds it at the key that comes next.
-/
theorem afterCalls_stable (earlier later : List Call)
    (hroom : (TypeStore.empty.afterCalls (earlier ++ later)).HasRoom) :
    let store := TypeStore.empty.afterCalls earlier
    let last := TypeStore.empty.afterCalls (earlier ++ later)
    (∀ key type, store.get? key = some type → last.get? key = some type) ∧
      (∀ name key, store.find? name = some key → last.find? name = some key) ∧
      store.Orderly ∧ TypeStore.empty.size = TypeKey.builtinCount ∧
      ∀ call rest, later = call :: rest → store.Takes call := by
  intro store last
  have hlast : last = store.afterCalls later := afterCalls_append _ earlier later
  have hgrows : store.Grows last := hlast ▸ grows_afterCalls later store
  refine ⟨fun key type => hgrows.types, fun name key => hgrows.names,
    orderly_afterCalls earlier (hgrows.hasRoom hroom), by decide +kernel, ?_⟩
  rintro call rest rfl
  have hrest : (store.afterCalls (call :: rest)).HasRoom := hlast ▸ hroom
  have hnext : (call.run store).2.HasRoom := (grows_afterCalls rest _).hasRoom hrest
  exact (spaced_empty.afterCalls earlier).takes_run hnext

/-- A class and an array of it stay what they are when another type of that name is declared, the
array is made once more, and a type without a name is added. -/
theorem afterCalls_redeclared :
    let box : Call := .declare (.namedClass "App.Box")
    let boxes : Call := .construct (.array ⟨32⟩)
    let again : Call := .declare (.namedDelegate "App.Box" { params := [], returnType := .void })
    let nameless : Call :=
      .declare { name := "T", fullName := none, shape := .genericParameter }
    let store := TypeStore.empty.afterCalls [box, boxes]
    let last := TypeStore.empty.afterCalls [box, boxes, again, boxes, nameless]
    last.get? ⟨32⟩ = some (.namedClass "App.Box") ∧ last.find? "App.Box[]" = some ⟨33⟩ ∧
      store.Orderly ∧ store.Takes again ∧ last.size = 23 := by
  intro box boxes again nameless store last
  obtain ⟨htypes, hnames, horderly, -, htakes⟩ :=
    afterCalls_stable [box, boxes] [again, boxes, nameless] (by decide +kernel)
  exact ⟨htypes ⟨32⟩ _ (by decide +kernel), hnames "App.Box[]" ⟨33⟩ (by decide +kernel), horderly,
    htakes again [boxes, nameless] rfl, by decide +kernel⟩

end TypeStore

end Interop
