/-
Bindings for many types at once.

A batch goes through a list of keys in order, and adds to two lists as it goes.  Every
key leaves an artifact: its bindings, or a comment with the reason why there are none,
or nothing at all if the native layer let it down.  A type without bindings is put into
the manifest as well, so none is lost in silence.  The catalogue grows along the way,
and that is all that one type leaves for the next.
-/
import Interop.Delegate.Wrapper
import Interop.Manifest

namespace Interop

/-- What a type came to. -/
inductive Product where
  | generated (wrapper : Wrapper)
  /-- A comment that gives the reason. -/
  | skipped (comment : String)
  | aborted
  deriving DecidableEq, Repr, Inhabited

/-- A type that is refused leaves a comment, unless the refusal is fatal. -/
def Product.ofRefusal (typeName : String) (refusal : Refusal) : Product :=
  if refusal.isFatal then .aborted else .skipped (refusal.skipComment typeName)

/-- What a batch leaves for one key. -/
structure Artifact where
  key : TypeKey
  typeName : String
  product : Product
  deriving DecidableEq, Repr, Inhabited

namespace Artifact

/-- The text that is written for the type, if any is. -/
def text? (artifact : Artifact) : Option String :=
  match artifact.product with
  | .generated wrapper => some wrapper.text
  | .skipped comment => some comment
  | .aborted => none

/-- The bindings of the type, if it has any. -/
def wrapper? (artifact : Artifact) : Option Wrapper :=
  match artifact.product with
  | .generated wrapper => some wrapper
  | .skipped _ | .aborted => none

end Artifact

/-- Everything that came of a list of keys. -/
structure Harvest where
  /-- One for each key, in order. -/
  artifacts : List Artifact := []
  manifest : Manifest := .empty
  deriving DecidableEq, Repr, Inhabited

namespace Harvest

def wrappers (harvest : Harvest) : List Wrapper :=
  harvest.artifacts.filterMap Artifact.wrapper?

/-- The first artifact of a type. -/
def artifact? (harvest : Harvest) (typeName : String) : Option Artifact :=
  harvest.artifacts.find? (·.typeName == typeName)

/-- All text that was written, with an empty line between the types. -/
def text (harvest : Harvest) : String :=
  "\n\n".intercalate (harvest.artifacts.filterMap Artifact.text?)

def push (harvest : Harvest) (artifact : Artifact) : Harvest :=
  { harvest with artifacts := harvest.artifacts ++ [artifact] }

/-- Adds what became of a key at the end.  A refusal is put into the manifest first. -/
def add (harvest : Harvest) (key : TypeKey) (typeName : String)
    (outcome : Except Refusal Wrapper) : Harvest :=
  match outcome with
  | .ok wrapper => harvest.push { key, typeName, product := .generated wrapper }
  | .error refusal =>
    let recorded := { harvest with manifest := harvest.manifest.record typeName refusal }
    recorded.push { key, typeName, product := .ofRefusal typeName refusal }

end Harvest

/-- What bindings are written from. -/
structure Batch where
  types : Reflection
  settings : Settings := {}
  native : NativeLayer := .empty
  deriving DecidableEq, Repr, Inhabited

namespace Batch

/-- Every delegate type that is not the runtime's own, in the order of the types. -/
def delegateKeys (batch : Batch) : List TypeKey :=
  batch.types.keys.filter fun key =>
    !key.isBuiltin && (batch.types.get? key).any (·.shape.isDelegate)

/-- Writes the bindings of the next type and adds what becomes of it. -/
def step (batch : Batch) (harvest : Harvest) (key : TypeKey) :
    StateT Catalogue Option Harvest := do
  let outcome ← (wrap batch.types batch.settings batch.native key).run
  return harvest.add key (batch.types.nameOf key) outcome

/-- Writes the bindings of some types, in order.  There is no answer if the chain of bases of one
of them never ends. -/
def generate (batch : Batch) (keys : List TypeKey) : StateT Catalogue Option Harvest :=
  keys.foldlM batch.step {}

/-- Writes the bindings of every delegate type. -/
def generateAll (batch : Batch) : StateT Catalogue Option Harvest :=
  batch.generate batch.delegateKeys

end Batch

end Interop
