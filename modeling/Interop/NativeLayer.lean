/-
What the native layer offers for each delegate.

The C declarations that a delegate's wrapper calls into come from elsewhere.  All
that is known of them here is their names, and for which types they exist.
-/
import Interop.Managed.Reflection
import Interop.Text.Identifier

namespace Interop

/-- The names of the C declarations for one delegate type. -/
structure NativeSymbols where
  cTypeName : String
  /-- The type of a pointer to a callback; the context is the callback's first parameter. -/
  functionType : String
  /-- The type of a pointer to the function that releases a context. -/
  destructorFunctionType : String
  /-- The function that calls the delegate. -/
  invokeFunction : String
  deriving DecidableEq, Repr, Inhabited

namespace NativeSymbols

/-- The names that follow from the name of the type. -/
def conventional (cTypeName : String) : NativeSymbols where
  cTypeName := cTypeName
  functionType := cTypeName ++ "_CFunction_t"
  destructorFunctionType := cTypeName ++ "_CDestructorFunction_t"
  invokeFunction := cTypeName ++ "_Invoke"

end NativeSymbols

/-- The types that the native layer has declarations for. -/
structure NativeLayer where
  /-- Newest first; each key stands here once. -/
  entries : List (TypeKey × NativeSymbols) := []
  deriving DecidableEq, Repr, Inhabited

namespace NativeLayer

def empty : NativeLayer := {}

/-- The declarations for a type. -/
def get? (layer : NativeLayer) (key : TypeKey) : Option NativeSymbols :=
  layer.entries.lookup key

/-- Records the declarations for a type, in place of earlier ones. -/
def record (layer : NativeLayer) (key : TypeKey) (symbols : NativeSymbols) : NativeLayer :=
  ⟨(key, symbols) :: layer.entries.filter (·.1 != key)⟩

theorem lookup_filter_ne {key other : TypeKey} (h : other ≠ key)
    (entries : List (TypeKey × NativeSymbols)) :
    (entries.filter (·.1 != key)).lookup other = entries.lookup other := by
  induction entries with
  | nil => rfl
  | cons entry rest ih =>
    obtain ⟨first, symbols⟩ := entry
    by_cases hf : first = key
    · have hne : (other == first) = false := by simpa [hf] using h
      simp [hf, ih, List.lookup_cons, hf ▸ hne]
    · simp [hf, ih, List.lookup_cons]

theorem get?_record (layer : NativeLayer) (key other : TypeKey) (symbols : NativeSymbols) :
    (layer.record key symbols).get? other =
      if other = key then some symbols else layer.get? other := by
  by_cases h : other = key
  · simp [record, get?, h]
  · have hne : (other == key) = false := by simpa using h
    simp [record, get?, List.lookup_cons, hne, h, lookup_filter_ne h]

def size (layer : NativeLayer) : Nat := layer.entries.length

def isEmpty (layer : NativeLayer) : Bool := layer.entries.isEmpty

/-- The declarations that follow from a type's full name; a type without one has none. -/
def conventionalSymbols? (types : Reflection) (key : TypeKey) : Option NativeSymbols :=
  (types.get? key).bind fun type =>
    type.fullName.map fun fullName => .conventional (Identifier.ofFullName fullName)

/-- The native layer in which every type of a list has the declarations that follow from its
name. -/
def conventional (types : Reflection) (keys : List TypeKey) : NativeLayer :=
  keys.foldl
    (fun layer key =>
      match conventionalSymbols? types key with
      | some symbols => layer.record key symbols
      | none => layer)
    empty

end NativeLayer

end Interop
