/-
The identity of a managed type during one run.

Every reference from one type to another is a key.  The runtime's own types sit
at the fixed keys 0 to 19, and the keys that a type store hands out start at 32.
-/

namespace Interop

/-- The identity of a managed type. -/
structure TypeKey where
  raw : UInt32
  deriving DecidableEq, Repr, Inhabited

namespace TypeKey

/-- Keys with the same number are the same. -/
theorem eq_of_toNat {key other : TypeKey} (h : key.raw.toNat = other.raw.toNat) : key = other := by
  obtain ⟨raw⟩ := key
  obtain ⟨raw'⟩ := other
  exact congrArg TypeKey.mk (UInt32.toNat_inj.mp h)

/-! ### The runtime's own types -/

def void : TypeKey := ⟨0⟩
def bool : TypeKey := ⟨1⟩
/-- The key of a UTF-16 code unit. -/
def char : TypeKey := ⟨2⟩
def sbyte : TypeKey := ⟨3⟩
def byte : TypeKey := ⟨4⟩
def int16 : TypeKey := ⟨5⟩
def uint16 : TypeKey := ⟨6⟩
def int32 : TypeKey := ⟨7⟩
def uint32 : TypeKey := ⟨8⟩
def int64 : TypeKey := ⟨9⟩
def uint64 : TypeKey := ⟨10⟩
def float32 : TypeKey := ⟨11⟩
def float64 : TypeKey := ⟨12⟩
def intPtr : TypeKey := ⟨13⟩
def uintPtr : TypeKey := ⟨14⟩
def string : TypeKey := ⟨15⟩
/-- The root of every reference type. -/
def object : TypeKey := ⟨16⟩
def delegate : TypeKey := ⟨17⟩
/-- The base of every declared delegate. -/
def multicastDelegate : TypeKey := ⟨18⟩
def byteSpan : TypeKey := ⟨19⟩

/-- How many types the runtime brings along. -/
def builtinCount : Nat := 20

/-- The first key handed out to a registered type. -/
def firstRegistered : Nat := 32

def isBuiltin (key : TypeKey) : Bool := key.raw.toNat < builtinCount

def isVoid (key : TypeKey) : Bool := key == void

/-! ### Text -/

/-- The key as messages show it. -/
def text (key : TypeKey) : String := s!"#{key.raw.toNat}"

/-- The key as a dump of values shows it. -/
def dumpText (key : TypeKey) : String := s!"TypeKey({key.raw.toNat})"

end TypeKey

end Interop
