/-
What reflection tells about one managed type.

A type is plain data: its names, its shape, its base, what it says about null,
and, for a delegate, the signature its calls go through.  Other types appear only
as keys, so a type that mentions itself is as finite as any other.
-/
import Interop.Managed.Primitive
import Interop.Nullness

namespace Interop

/-- What a type is made of. -/
inductive Shape where
  | void
  | primitive (of : Primitive)
  | enumeration (underlying : Primitive)
  | string
  | classType
  | interfaceType
  | structType
  | delegate
  /-- A one-dimensional array. -/
  | array (element : TypeKey)
  /-- A generic type applied to arguments; the type's full name is that of the definition. -/
  | generic (arguments : List TypeKey)
  /-- A value type that may be absent. -/
  | nullable (inner : TypeKey)
  /-- A read-only view of bytes. -/
  | byteSpan
  | pointer (pointee : TypeKey)
  /-- A parameter of a generic definition that has no argument yet. -/
  | genericParameter
  deriving DecidableEq, Repr, Inhabited

namespace Shape

/-- Whether values of the shape are object handles in native code. -/
def isReference : Shape → Bool
  | .string | .classType | .interfaceType | .delegate | .array _ | .generic _ => true
  | _ => false

def isDelegate : Shape → Bool
  | .delegate => true
  | _ => false

theorem isDelegate_iff {shape : Shape} : shape.isDelegate = true ↔ shape = .delegate := by
  cases shape <;> simp [isDelegate]

/-- The types that have to be described first, since this type's name is built from theirs. -/
def parts : Shape → List TypeKey
  | .array element => [element]
  | .generic arguments => arguments
  | .nullable inner => [inner]
  | _ => []

end Shape

/-- How a parameter is passed. -/
inductive Passing where
  | byValue
  /-- By reference, read and written. -/
  | byRef
  /-- By reference, only read. -/
  | readOnly
  /-- By reference, only written. -/
  | output
  deriving DecidableEq, Repr, Inhabited

/-- One parameter of a signature. -/
structure Param where
  name : String
  /-- The type of the value itself, also where it is passed by reference. -/
  type : TypeKey
  passing : Passing := .byValue
  nullability : Nullability := .notSpecified
  deriving DecidableEq, Repr, Inhabited

/-- The signature a delegate is called through. -/
structure Signature where
  params : List Param
  returnType : TypeKey
  returnNullability : Nullability := .notSpecified
  returnsByRef : Bool := false
  deriving DecidableEq, Repr, Inhabited

namespace Signature

/-- Whether two parameter lists take the same types in the same way, one by one. -/
def paramsAgree : List Param → List Param → Bool
  | [], [] => true
  | a :: as, b :: bs => a.type == b.type && a.passing == b.passing && paramsAgree as bs
  | _, _ => false

/-- Whether two signatures take and return the same types in the same way.

Parameter names and what is said about null play no part. -/
def agrees (a b : Signature) : Bool :=
  a.returnType == b.returnType && a.returnsByRef == b.returnsByRef
    && paramsAgree a.params b.params

end Signature

/-- A managed type as reflection tells it. -/
structure ManagedType where
  name : String
  /-- Open generic parameters and some generated types have no full name. -/
  fullName : Option String
  shape : Shape
  base : Option TypeKey := none
  nullability : Nullability := .notSpecified
  /-- The signature of a delegate's calls. -/
  invoke : Option Signature := none
  deriving DecidableEq, Repr, Inhabited

namespace ManagedType

/-- The part of a dotted name after its last dot, or all of a name without dots. -/
def shortName (fullName : String) : String :=
  String.ofList (fullName.toList.reverse.takeWhile (· != '.')).reverse

/-- A named class derived from the root object. -/
def namedClass (fullName : String) : ManagedType where
  name := shortName fullName
  fullName := some fullName
  shape := .classType
  base := some .object

/-- A named delegate derived from the common base of declared delegates. -/
def namedDelegate (fullName : String) (invoke : Signature) : ManagedType where
  name := shortName fullName
  fullName := some fullName
  shape := .delegate
  base := some .multicastDelegate
  invoke := some invoke

/-- The full name, or the short one where there is no other. -/
def displayName (type : ManagedType) : String := type.fullName.getD type.name

end ManagedType

end Interop
