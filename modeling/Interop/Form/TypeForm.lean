/-
What managed types are declared to be made of.

A managed type is a record of six fields, and three of them may be absent.  Its shape is
a choice: most shapes are told by a name alone, a primitive is held as it is, and the
others have a single field.  A key is written as its number.
-/
import Interop.Form.Scheme
import Interop.Managed.ManagedType

namespace Interop

/-! ### Names of the plain choices -/

def Primitive.spelling : Primitive → String
  | .bool => "Bool"
  | .char => "Char"
  | .sbyte => "SByte"
  | .byte => "Byte"
  | .int16 => "Int16"
  | .uint16 => "UInt16"
  | .int32 => "Int32"
  | .uint32 => "UInt32"
  | .int64 => "Int64"
  | .uint64 => "UInt64"
  | .float32 => "Float32"
  | .float64 => "Float64"
  | .intPtr => "IntPtr"
  | .uintPtr => "UIntPtr"

def Nullability.all : List Nullability := [.nonNull, .nullable, .notSpecified]

def Nullability.spelling : Nullability → String
  | .nonNull => "NonNullable"
  | .nullable => "Nullable"
  | .notSpecified => "NotSpecified"

def Passing.all : List Passing := [.byValue, .byRef, .readOnly, .output]

def Passing.spelling : Passing → String
  | .byValue => "ByValue"
  | .byRef => "Ref"
  | .readOnly => "In"
  | .output => "Out"

namespace Scheme

variable (scheme : Scheme)

def primitive : Codec Primitive :=
  scheme.choice (.ofNames Primitive.all Primitive.spelling Primitive.mem_all (by decide))

def nullability : Codec Nullability :=
  scheme.choice
    (.ofNames Nullability.all Nullability.spelling (by rintro ⟨⟩ <;> decide) (by decide))

def passing : Codec Passing :=
  scheme.choice (.ofNames Passing.all Passing.spelling (by rintro ⟨⟩ <;> decide) (by decide))

def key : Codec TypeKey := scheme.wrapped TypeKey.mk TypeKey.raw scheme.number

/-! ### Shapes -/

/-- The alternative of a shape, and what it holds. -/
def tellShape : Shape → (alternative : Alternative Shape) × alternative.Content
  | .void => ⟨.plain "Void" .void, ()⟩
  | .primitive p => ⟨.holding "Primitive" scheme.primitive .primitive, p⟩
  | .enumeration underlying =>
    ⟨.withFields "Enum" (.single "underlying" scheme.primitive) .enumeration, underlying⟩
  | .string => ⟨.plain "String" .string, ()⟩
  | .classType => ⟨.plain "Class" .classType, ()⟩
  | .interfaceType => ⟨.plain "Interface" .interfaceType, ()⟩
  | .structType => ⟨.plain "Struct" .structType, ()⟩
  | .delegate => ⟨.plain "Delegate" .delegate, ()⟩
  | .array element => ⟨.withFields "Array" (.single "element" scheme.key) .array, element⟩
  | .generic arguments =>
    ⟨.withFields "GenericInstance" (.single "args" (scheme.list scheme.key)) .generic, arguments⟩
  | .nullable inner => ⟨.withFields "Nullable" (.single "inner" scheme.key) .nullable, inner⟩
  | .byteSpan => ⟨.plain "ReadOnlySpanOfByte" .byteSpan, ()⟩
  | .pointer pointee => ⟨.withFields "Pointer" (.single "pointee" scheme.key) .pointer, pointee⟩
  | .genericParameter => ⟨.plain "GenericParameter" .genericParameter, ()⟩

/-- One shape of each alternative. -/
def shapeKinds : List Shape :=
  [.void, .primitive .bool, .enumeration .bool, .string, .classType, .interfaceType, .structType,
    .delegate, .array .void, .generic [], .nullable .void, .byteSpan, .pointer .void,
    .genericParameter]

def shapeChoice : Choice Shape where
  alternatives := shapeKinds.map fun shape => (scheme.tellShape shape).1
  tell := scheme.tellShape
  distinct := by simp [shapeKinds, tellShape, Alternative.name]
  mem_alternatives shape := by cases shape <;> simp [shapeKinds, tellShape]
  value_tell shape := by cases shape <;> rfl

def shape : Codec Shape := scheme.choice scheme.shapeChoice

/-! ### Records -/

def paramRecord : Record Param where
  fields := Fields.build Param.mk
    |>.field "name" Param.name scheme.text
    |>.field "ty" Param.type scheme.key
    |>.field "mode" Param.passing scheme.passing
    |>.field "nullability" Param.nullability scheme.nullability
  distinct := by simp [Fields.names]
  rebuild _ := rfl

def param : Codec Param := scheme.record scheme.paramRecord

def signatureRecord : Record Signature where
  fields := Fields.build Signature.mk
    |>.field "params" Signature.params (scheme.list scheme.param)
    |>.field "return_type" Signature.returnType scheme.key
    |>.field "return_nullability" Signature.returnNullability scheme.nullability
    |>.field "returns_by_ref" Signature.returnsByRef scheme.flag
  distinct := by simp [Fields.names]
  rebuild _ := rfl

def signature : Codec Signature := scheme.record scheme.signatureRecord

def typeRecord : Record ManagedType where
  fields := Fields.build ManagedType.mk
    |>.field "name" ManagedType.name scheme.text
    |>.field "full_name" ManagedType.fullName (scheme.optional scheme.text)
    |>.field "kind" ManagedType.shape scheme.shape
    |>.field "base" ManagedType.base (scheme.optional scheme.key)
    |>.field "nullability" ManagedType.nullability scheme.nullability
    |>.field "invoke" ManagedType.invoke (scheme.optional scheme.signature)
  distinct := by simp [Fields.names]
  rebuild _ := rfl

def managedType : Codec ManagedType := scheme.record scheme.typeRecord

end Scheme

end Interop
