/-
What reflection offers about the types of a program: finitely many types, each
at a key.

Two entries may carry one key.  Then the first one answers for it, and the list
of keys still names it twice.
-/
import Interop.Managed.ManagedType

namespace Interop

/-- The types of a program, in the order in which they were met. -/
structure Reflection where
  entries : List (TypeKey × ManagedType)
  deriving DecidableEq, Repr, Inhabited

namespace Reflection

/-- The type at a key. -/
def get? (types : Reflection) (key : TypeKey) : Option ManagedType :=
  types.entries.lookup key

/-- Every key, in the order of the entries. -/
def keys (types : Reflection) : List TypeKey :=
  types.entries.map Prod.fst

/-- The keys are those that have a type. -/
theorem mem_keys_iff {types : Reflection} {key : TypeKey} :
    key ∈ types.keys ↔ (types.get? key).isSome = true := by
  obtain ⟨entries⟩ := types
  simp only [keys, get?]
  induction entries with
  | nil => simp
  | cons entry rest ih =>
    obtain ⟨first, type⟩ := entry
    by_cases h : key = first
    · simp [h]
    · have hne : (key == first) = false := by simpa using h
      simp only [List.map_cons, List.mem_cons, h, false_or, ih, List.lookup_cons, hne]

/-- The name under which a key is reported: that of its type, or the key itself. -/
def nameOf (types : Reflection) (key : TypeKey) : String :=
  match types.get? key with
  | some type => type.displayName
  | none => key.text

end Reflection

end Interop
