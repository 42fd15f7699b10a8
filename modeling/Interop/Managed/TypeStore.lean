/-
The types of a run and the keys they were given.

A store is a row of slots, and the key of a type is the number of its slot.  The
runtime's own types are put into the first slots when the store is made, and the row
is then brought to a fixed length, so that some slots between them and the registered
types stay empty.  A registered type goes to a new slot at the end, and once it is
there it stays there: nothing is ever replaced or moved.

Registering is idempotent by name.  An index remembers which name led to which
key, and a type whose name is already known is answered with the key it has.  An
array, a nullable and a plain type are indexed under their full names.  A generic
type is different: its full name is that of its definition, which it shares with
every other use of that definition, so it is indexed under the definition's name
followed by the names of its arguments.  A type without a name cannot be looked
up again, and each registration of one adds a type.
-/
import Interop.Managed.Reflection

namespace Interop

/-- The primitive as reflection tells it. -/
def Primitive.managedType (p : Primitive) : ManagedType where
  name := p.runtimeName
  fullName := some ("System." ++ p.runtimeName)
  shape := .primitive p
  nullability := .nonNull

/-- The types of a run. -/
structure TypeStore where
  /-- What is kept at each key. -/
  slots : Array (Option ManagedType) := #[]
  /-- The key that a name was given, newest first. -/
  names : List (String × TypeKey) := []
  deriving DecidableEq, Repr

namespace TypeStore

/-- The key of a slot.  Keys have 32 bits, and a store is thought to have fewer slots. -/
def keyAt (index : Nat) : TypeKey := ⟨UInt32.ofNat index⟩

/-! ### The runtime's own types -/

/-- Cuts the row of slots to a length, or fills it up with empty ones. -/
def resize (store : TypeStore) (length : Nat) : TypeStore :=
  { store with
    slots := store.slots.take length ++ Array.replicate (length - store.slots.size) none }

/-- Puts one of the runtime's own types at its key, and indexes it under its full name. -/
def putBuiltin (store : TypeStore) (key : TypeKey) (type : ManagedType) : TypeStore :=
  let index := key.raw.toNat
  let store := if store.slots.size ≤ index then store.resize (index + 1) else store
  let names := match type.fullName with
    | some name => (name, key) :: store.names
    | none => store.names
  { slots := store.slots.setIfInBounds index (some type), names }

/-- The runtime's own types with their keys. -/
def builtins : List (TypeKey × ManagedType) :=
  (.void, { name := "Void", fullName := some "System.Void", shape := .void }) ::
  Primitive.all.map (fun p => (p.key, p.managedType)) ++
  [(.string,
      { name := "String", fullName := some "System.String", shape := .string,
        base := some .object }),
   (.object, { name := "Object", fullName := some "System.Object", shape := .classType }),
   (.delegate, .namedClass "System.Delegate"),
   (.multicastDelegate,
      { ManagedType.namedClass "System.MulticastDelegate" with base := some .delegate }),
   (.byteSpan,
      { name := "ReadOnlySpan`1", fullName := some "System.ReadOnlySpan<System.Byte>",
        shape := .byteSpan, nullability := .nonNull })]

/-- A store that holds the runtime's own types only. -/
def empty : TypeStore :=
  let filled := builtins.foldl (fun (store : TypeStore) (key, type) => store.putBuiltin key type) {}
  filled.resize TypeKey.firstRegistered

instance : Inhabited TypeStore := ⟨empty⟩

/-! ### Looking up -/

/-- The type at a key. -/
def get? (store : TypeStore) (key : TypeKey) : Option ManagedType :=
  store.slots[key.raw.toNat]?.join

/-- The key that a name leads to. -/
def find? (store : TypeStore) (name : String) : Option TypeKey :=
  store.names.lookup name

/-- How many types there are, the runtime's own included. -/
def size (store : TypeStore) : Nat :=
  store.slots.countP Option.isSome

def isEmpty (store : TypeStore) : Bool := store.size == 0

/-- The keys of all slots that hold a type, in the order of the slots. -/
def keys (store : TypeStore) : List TypeKey :=
  (store.slots.toList.zipIdx.filter fun (slot, _) => slot.isSome).map fun (_, index) =>
    keyAt index

/-- What reflection offers once every type is in the store. -/
def reflection (store : TypeStore) : Reflection where
  entries := store.keys.filterMap fun key => (store.get? key).map fun type => (key, type)

/-- The full name of the type at a key. -/
def fullNameOf (store : TypeStore) (key : TypeKey) : Option String :=
  (store.get? key).bind ManagedType.fullName

/-! ### Registering -/

/-- Puts a type into a new slot at the end. -/
def add (store : TypeStore) (type : ManagedType) : TypeKey × TypeStore :=
  (keyAt store.slots.size, { store with slots := store.slots.push (some type) })

/-- Puts a type into a new slot and indexes it under `name`, unless the name is taken: then its
key is the answer and the store stays as it is. -/
def addUnder (store : TypeStore) (name : String) (type : ManagedType) : TypeKey × TypeStore :=
  match store.find? name with
  | some key => (key, store)
  | none =>
    let (key, added) := store.add type
    (key, { added with names := (name, key) :: added.names })

theorem addUnder_of_known {store : TypeStore} {name : String} {key : TypeKey}
    (h : store.find? name = some key) (type : ManagedType) :
    store.addUnder name type = (key, store) := by
  simp [addUnder, h]

theorem addUnder_of_new {store : TypeStore} {name : String} (h : store.find? name = none)
    (type : ManagedType) :
    store.addUnder name type =
      (keyAt store.slots.size,
        { slots := store.slots.push (some type)
          names := (name, keyAt store.slots.size) :: store.names }) := by
  simp [addUnder, h, add]

/-- Registers a type under its full name, if it has one. -/
def register (store : TypeStore) (type : ManagedType) : TypeKey × TypeStore :=
  match type.fullName with
  | some name => store.addUnder name type
  | none => store.add type

/-- Registers the array type over an element type. -/
def registerArray (store : TypeStore) (element : TypeKey) : TypeKey × TypeStore :=
  store.register {
    name := match store.get? element with
      | some type => type.name ++ "[]"
      | none => "Array"
    fullName := (store.fullNameOf element).map (· ++ "[]")
    shape := .array element }

/-- Registers the nullable type over a value type. -/
def registerNullable (store : TypeStore) (inner : TypeKey) : TypeKey × TypeStore :=
  store.register {
    name := "Nullable`1"
    fullName := (store.fullNameOf inner).map fun name => "System.Nullable<" ++ name ++ ">"
    shape := .nullable inner
    nullability := .nullable }

/-- The name a generic type is indexed under. -/
def genericIndexName (definition : String) (argumentNames : List String) : String :=
  definition ++ "[" ++ ",".intercalate argumentNames ++ "]"

/-- Registers a generic definition applied to arguments.  `definition` is the full name of the
definition, with its number of parameters. -/
def registerGeneric (store : TypeStore) (definition : String) (arguments : List TypeKey) :
    TypeKey × TypeStore :=
  let type : ManagedType := {
    name := ManagedType.shortName definition
    fullName := some definition
    shape := .generic arguments
    base := some .object }
  match arguments.mapM store.fullNameOf with
  | some argumentNames => store.addUnder (genericIndexName definition argumentNames) type
  | none => store.add type

end TypeStore

end Interop
