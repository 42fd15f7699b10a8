/-
Schemes: ways to write typed values as documents.

Which values are written is declared.  A record has fields and a choice has
alternatives, in a fixed order and each with a name of its own.  An alternative may
hold nothing, a value, or fields.  A scheme is what makes codecs out of declarations,
and it is not part of what is declared: another program brings it along.  It also has
codecs for plain values, for lists and for values that may be absent.
-/
import Interop.Form.Document

namespace Interop

/-! ### Records -/

/-- Some fields of the records in `α`, in order, and how a value is built of theirs. -/
inductive Fields (α : Type) : Type → Type 1 where
  | build {β : Type} (value : β) : Fields α β
  | field {β γ : Type} (earlier : Fields α (β → γ)) (name : String) (get : α → β)
      (codec : Codec β) : Fields α γ

namespace Fields

variable {α : Type}

def names {β : Type} : Fields α β → List String
  | build _ => []
  | field earlier name _ _ => earlier.names ++ [name]

/-- The fields of a record with their documents. -/
def entries {β : Type} : Fields α β → α → List (String × Document)
  | build _, _ => []
  | field earlier name get codec, value =>
    earlier.entries value ++ [(name, codec.write (get value))]

/-- What is built of the fields of a record. -/
def rebuild {β : Type} : Fields α β → α → β
  | build value, _ => value
  | field earlier _ get _, value => earlier.rebuild value (get value)

/-- Builds a value of documents that are found by the names of the fields. -/
def readFrom (given : List (String × Document)) {β : Type} : Fields α β → Option β
  | build value => some value
  | field earlier name _ codec => do
    let make ← earlier.readFrom given
    return make (← codec.readField? (given.lookup name))

end Fields

/-- The declaration of a record type. -/
structure Record (α : Type) where
  fields : Fields α α
  distinct : fields.names.Nodup
  /-- A record is nothing but its fields. -/
  rebuild (value : α) : fields.rebuild value = value

namespace Record

/-- A record with a single field. -/
def single {α : Type} (name : String) (codec : Codec α) : Record α where
  fields := .field (.build id) name id codec
  distinct := by simp [Fields.names]
  rebuild _ := rfl

/-- No field of the record is given twice.  Other fields may be. -/
def GivenOnce {α : Type} (record : Record α) (given : List (String × Document)) : Prop :=
  ((given.map Prod.fst).filter (· ∈ record.fields.names)).Nodup

instance {α : Type} (record : Record α) (given : List (String × Document)) :
    Decidable (record.GivenOnce given) :=
  inferInstanceAs (Decidable (List.Nodup _))

end Record

/-! ### Choices -/

/-- One alternative of the choices in `α`, and how a value is made of what it holds. -/
inductive Alternative (α : Type) : Type 1 where
  | plain (name : String) (value : α)
  | holding {β : Type} (name : String) (codec : Codec β) (make : β → α)
  | withFields {β : Type} (name : String) (record : Record β) (make : β → α)

namespace Alternative

variable {α : Type}

def name : Alternative α → String
  | plain name _ | holding name _ _ | withFields name _ _ => name

/-- What the alternative holds. -/
def Content : Alternative α → Type
  | plain _ _ => Unit
  | @holding _ β _ _ _ => β
  | @withFields _ β _ _ _ => β

/-- The value that is made of what the alternative holds. -/
def value : (alternative : Alternative α) → alternative.Content → α
  | plain _ value, _ => value
  | holding _ _ make, content | withFields _ _ make, content => make content

/-- The name of the alternative, alone or as the only field of an object with what it holds. -/
def document : (alternative : Alternative α) → alternative.Content → Document
  | plain name _, _ => .string name
  | holding name codec _, content => .object [(name, codec.write content)]
  | withFields name record _, content =>
    .object [(name, .object (record.fields.entries content))]

end Alternative

/-- The declaration of a choice type. -/
structure Choice (α : Type) where
  alternatives : List (Alternative α)
  /-- The alternative of a value, and what it holds. -/
  tell : α → (alternative : Alternative α) × alternative.Content
  distinct : (alternatives.map Alternative.name).Nodup
  mem_alternatives (value : α) : (tell value).1 ∈ alternatives
  value_tell (value : α) : (tell value).1.value (tell value).2 = value

/-- A choice between values that are told by their names alone. -/
def Choice.ofNames {α : Type} (all : List α) (name : α → String) (mem_all : ∀ value, value ∈ all)
    (distinct : (all.map name).Nodup) : Choice α where
  alternatives := all.map fun value => .plain (name value) value
  tell value := ⟨.plain (name value) value, ()⟩
  distinct := by rwa [List.map_map]
  mem_alternatives value := List.mem_map.mpr ⟨value, mem_all value, rfl⟩
  value_tell _ := rfl

/-! ### Schemes -/

/-- A way to write typed values as documents and to read them back. -/
structure Scheme where
  text : Codec String
  flag : Codec Bool
  number : Codec UInt32
  list {α : Type} (codec : Codec α) : Codec (List α)
  optional {α : Type} (codec : Codec α) : Codec (Option α)
  /-- A value of one type that stands for one of another. -/
  wrapped {α β : Type} (make : β → α) (get : α → β) (codec : Codec β) : Codec α
  record {α : Type} (record : Record α) : Codec α
  choice {α : Type} (choice : Choice α) : Codec α

end Interop
