/-
Documents: values without types, as they are exchanged with other programs.

A number is an integer, or a fraction with the digits it was written with.  The
fields of an object are found by their names.
-/

namespace Interop

/-- A value without a type. -/
inductive Document where
  | null
  | bool (value : Bool)
  | integer (value : Int)
  /-- A number with so many digits after its point. -/
  | fraction (digits : Int) (places : Nat)
  | string (value : String)
  | array (items : List Document)
  | object (fields : List (String × Document))
  deriving Repr, Inhabited

/-- How the values of a type are written as documents and read from them. -/
structure Codec (α : Type) where
  write : α → Document
  read? : Document → Option α
  /-- What is read where a record has a field of this type and its document has none, if that
  may be. -/
  missing? : Option α := none

/-- Reads the field of a record, which its document may lack. -/
def Codec.readField? {α : Type} (codec : Codec α) : Option Document → Option α
  | some document => codec.read? document
  | none => codec.missing?

end Interop
