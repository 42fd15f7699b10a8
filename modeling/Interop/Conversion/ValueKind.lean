/-
How the values of a type cross the native boundary.

The shape of a type decides it.  Void has no values, and for pointers and open
generic parameters there are no rules, so a type falls into one of three
categories, and only the middle one says how a value travels.
-/
import Interop.Managed.ManagedType

namespace Interop

/-- The way a value travels. -/
inductive ValueKind where
  /-- As it is, up to sign and width. -/
  | primitive (of : Primitive)
  /-- As its underlying primitive. -/
  | enumeration
  /-- As the handle of a managed string. -/
  | string
  /-- Boxed on the native side and optional on the host's. -/
  | optionalWrapper
  /-- As an opaque handle. -/
  | referenceObject
  /-- As a pointer with a length. -/
  | byteSpan
  /-- As the address of a place that holds a value. -/
  | byRef
  deriving DecidableEq, Repr, Inhabited

namespace ValueKind

/-- Whether the host sees a handle that may be absent. -/
def isReferenceLike : ValueKind → Bool
  | .string | .referenceObject | .optionalWrapper => true
  | _ => false

/-- The kind's name in messages. -/
def text : ValueKind → String
  | .primitive p => "primitive " ++ p.runtimeName
  | .enumeration => "enum"
  | .string => "string"
  | .optionalWrapper => "optional wrapper"
  | .referenceObject => "reference object"
  | .byteSpan => "read-only byte span"
  | .byRef => "by-ref"

end ValueKind

/-- Why there are no rules for the values of a type. -/
inductive Unruled where
  | unmanagedPointer
  | openGenericParameter
  deriving DecidableEq, Repr, Inhabited

namespace Unruled

def text : Unruled → String
  | .unmanagedPointer => "unmanaged pointer"
  | .openGenericParameter => "open generic parameter"

end Unruled

/-- What is known about the values of a type. -/
inductive Category where
  /-- There are none; the type is only returned. -/
  | void
  | value (kind : ValueKind)
  /-- The type can be named, but its values have no rules. -/
  | unrecognized (why : Unruled)
  deriving DecidableEq, Repr, Inhabited

namespace Category

/-- The category of a shape. -/
def ofShape : Shape → Category
  | .void => .void
  | .primitive p => .value (.primitive p)
  | .enumeration _ => .value .enumeration
  | .string => .value .string
  | .classType | .interfaceType | .structType | .delegate | .array _ | .generic _ =>
    .value .referenceObject
  | .nullable _ => .value .optionalWrapper
  | .byteSpan => .value .byteSpan
  | .pointer _ => .unrecognized .unmanagedPointer
  | .genericParameter => .unrecognized .openGenericParameter

def valueKind? : Category → Option ValueKind
  | .value kind => some kind
  | .void | .unrecognized _ => none

def isVoid : Category → Bool
  | .void => true
  | .value _ | .unrecognized _ => false

end Category

end Interop
