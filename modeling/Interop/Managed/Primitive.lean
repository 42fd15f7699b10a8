/-
The primitive value types and their keyword in each language.

JNA has no unsigned integers, so an unsigned primitive shares the keyword of the
signed one of its width there.  A pointer-sized integer is a 64-bit one on
Kotlin's side and has a keyword of its own everywhere else.
-/
import Interop.Language
import Interop.Managed.TypeKey

namespace Interop

/-- A value type with a fixed native representation. -/
inductive Primitive where
  | bool
  | char
  | sbyte
  | byte
  | int16
  | uint16
  | int32
  | uint32
  | int64
  | uint64
  | float32
  | float64
  | intPtr
  | uintPtr
  deriving DecidableEq, Repr, Inhabited

namespace Primitive

/-- Every primitive, in the order of their keys. -/
def all : List Primitive :=
  [.bool, .char, .sbyte, .byte, .int16, .uint16, .int32, .uint32, .int64, .uint64, .float32,
    .float64, .intPtr, .uintPtr]

theorem mem_all (p : Primitive) : p ∈ all := by cases p <;> decide

/-- The key the runtime keeps the primitive at. -/
def key : Primitive → TypeKey
  | .bool => .bool
  | .char => .char
  | .sbyte => .sbyte
  | .byte => .byte
  | .int16 => .int16
  | .uint16 => .uint16
  | .int32 => .int32
  | .uint32 => .uint32
  | .int64 => .int64
  | .uint64 => .uint64
  | .float32 => .float32
  | .float64 => .float64
  | .intPtr => .intPtr
  | .uintPtr => .uintPtr

/-- The runtime's short name of the primitive. -/
def runtimeName : Primitive → String
  | .bool => "Boolean"
  | .char => "Char"
  | .sbyte => "SByte"
  | .byte => "Byte"
  | .int16 => "Int16"
  | .uint16 => "UInt16"
  | .int32 => "Int32"
  | .uint32 => "UInt32"
  | .int64 => "Int64"
  | .uint64 => "UInt64"
  | .float32 => "Single"
  | .float64 => "Double"
  | .intPtr => "IntPtr"
  | .uintPtr => "UIntPtr"

def isUnsigned : Primitive → Bool
  | .byte | .uint16 | .uint32 | .uint64 | .uintPtr => true
  | _ => false

/-! ### Keywords -/

def cKeyword : Primitive → String
  | .bool => "bool"
  | .char => "wchar_t"
  | .sbyte => "int8_t"
  | .byte => "uint8_t"
  | .int16 => "int16_t"
  | .uint16 => "uint16_t"
  | .int32 => "int32_t"
  | .uint32 => "uint32_t"
  | .int64 => "int64_t"
  | .uint64 => "uint64_t"
  | .float32 => "float"
  | .float64 => "double"
  | .intPtr => "intptr_t"
  | .uintPtr => "uintptr_t"

def jnaKeyword : Primitive → String
  | .bool => "Boolean"
  | .char => "Char"
  | .sbyte | .byte => "Byte"
  | .int16 | .uint16 => "Short"
  | .int32 | .uint32 => "Int"
  | .int64 | .uint64 | .intPtr | .uintPtr => "Long"
  | .float32 => "Float"
  | .float64 => "Double"

def kotlinKeyword : Primitive → String
  | .bool => "Boolean"
  | .char => "Char"
  | .sbyte => "Byte"
  | .byte => "UByte"
  | .int16 => "Short"
  | .uint16 => "UShort"
  | .int32 => "Int"
  | .uint32 => "UInt"
  | .int64 | .intPtr => "Long"
  | .uint64 | .uintPtr => "ULong"
  | .float32 => "Float"
  | .float64 => "Double"

def swiftKeyword : Primitive → String
  | .bool => "Bool"
  | .char => "DNChar"
  | .sbyte => "Int8"
  | .byte => "UInt8"
  | .int16 => "Int16"
  | .uint16 => "UInt16"
  | .int32 => "Int32"
  | .uint32 => "UInt32"
  | .int64 => "Int64"
  | .uint64 => "UInt64"
  | .float32 => "Float"
  | .float64 => "Double"
  | .intPtr => "Int"
  | .uintPtr => "UInt"

/-- The name of the primitive in a language. -/
def keyword (p : Primitive) : Language → String
  | .c => p.cKeyword
  | .kotlinJna => p.jnaKeyword
  | .kotlin => p.kotlinKeyword
  | .swift => p.swiftKeyword

end Primitive

end Interop
