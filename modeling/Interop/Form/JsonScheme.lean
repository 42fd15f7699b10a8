/-
The scheme that documents are exchanged under.

A record is written as an object, and read from an object or from an array with all
its fields in order.  A field that a record does not have does no harm, but one that it
has must not be given twice.  A choice is written as the name of the alternative, or as
an object whose only field has that name.  An alternative that holds nothing may also
be given with null, and the fields of one that has fields are read from an object only.
-/
import Interop.Form.Scheme

namespace Interop

namespace Document

def items? : Document → Option (List Document)
  | .array items => some items
  | _ => none

/-- An integer that is not negative and has 32 bits at most. -/
def number? : Document → Option UInt32
  | .integer (.ofNat value) => if value < UInt32.size then some (.ofNat value) else none
  | _ => none

/-- The record whose fields are given by an object. -/
def ofFields? {α : Type} (record : Record α) : Document → Option α
  | .object given =>
    if record.GivenOnce given then record.fields.readFrom given else none
  | _ => none

def record? {α : Type} (record : Record α) : Document → Option α
  | .array items =>
    if items.length = record.fields.names.length then
      record.fields.readFrom (record.fields.names.zip items)
    else
      none
  | document => document.ofFields? record

/-- What an alternative makes of a document that stands next to its name. -/
def alternative? {α : Type} : Alternative α → Document → Option α
  | .plain _ value, .null => some value
  | .plain _ _, _ => none
  | .holding _ codec make, content => (codec.read? content).map make
  | .withFields _ record make, content => (content.ofFields? record).map make

def choice? {α : Type} (choice : Choice α) : Document → Option α
  | .string name =>
    match choice.alternatives.find? (·.name == name) with
    | some (.plain _ value) => some value
    | _ => none
  | .object [(name, content)] =>
    (choice.alternatives.find? (·.name == name)).bind fun alternative =>
      content.alternative? alternative
  | _ => none

end Document

namespace Scheme

/-- The scheme that documents are exchanged under. -/
def json : Scheme where
  text.write := .string
  text.read?
    | .string value => some value
    | _ => none
  flag.write := .bool
  flag.read?
    | .bool value => some value
    | _ => none
  number.write value := .integer (.ofNat value.toNat)
  number.read? := Document.number?
  list codec := {
    write := fun values => .array (values.map codec.write)
    read? := fun document => document.items?.bind (List.mapM codec.read?) }
  optional codec := {
    write := fun
      | none => .null
      | some value => codec.write value
    read? := fun
      | .null => some none
      | document => (codec.read? document).map some
    missing? := some none }
  wrapped make get codec := {
    write := codec.write ∘ get
    read? := fun document => (codec.read? document).map make }
  record record := {
    write := fun value => .object (record.fields.entries value)
    read? := Document.record? record }
  choice choice := {
    write := fun value => (choice.tell value).1.document (choice.tell value).2
    read? := Document.choice? choice }

end Scheme

end Interop
