/-
The descriptions made so far, and the walk that makes more.

A type is described after its parts, and its parts may be any types at all: the
same one twice, one that is not there, one without a name, or the type itself
again.  So the walk keeps two things.  Descriptions that were finished are kept
for good, and are never made twice.  Keys that are under way are kept while their
parts are described, and meeting one of them again is an error: a type cannot
come before itself.

Every step of the walk puts a key under way that was not, and only known keys are
put there.  So the walk is never deeper than there are known keys, and one more
step than that is enough.
-/
import Interop.Description
import Interop.Managed.Reflection

namespace Interop

/-- Why a type cannot be described. -/
inductive DescriptionError where
  /-- The type has no full name, and nothing can be named after it. -/
  | noFullName (name : String)
  | unknownType (key : TypeKey)
  /-- The type is one of its own parts. -/
  | cycle (fullName : String)
  deriving DecidableEq, Repr, Inhabited

namespace DescriptionError

def message : DescriptionError → String
  | .noFullName name => "type `" ++ name ++ "` has no full name"
  | .unknownType key => "type key " ++ key.text ++ " is not known to the reflection source"
  | .cycle fullName => "type `" ++ fullName ++ "` refers to itself while being described"

end DescriptionError

/-- What has been described, and what is being described. -/
structure Catalogue where
  /-- Finished descriptions, newest first; each key stands here once. -/
  descriptions : List Description := []
  /-- The keys under way, innermost first. -/
  underWay : List TypeKey := []
  deriving DecidableEq

namespace Catalogue

def empty : Catalogue := {}

/-- The description of a key, if it is finished. -/
def get? (catalogue : Catalogue) (key : TypeKey) : Option Description :=
  catalogue.descriptions.find? (·.key == key)

/-- How many descriptions are finished. -/
def size (catalogue : Catalogue) : Nat := catalogue.descriptions.length

def isEmpty (catalogue : Catalogue) : Bool := catalogue.descriptions.isEmpty

def keep (catalogue : Catalogue) (description : Description) : Catalogue :=
  { catalogue with descriptions := description :: catalogue.descriptions }

def enter (catalogue : Catalogue) (key : TypeKey) : Catalogue :=
  { catalogue with underWay := key :: catalogue.underWay }

def leave (catalogue : Catalogue) (key : TypeKey) : Catalogue :=
  { catalogue with underWay := catalogue.underWay.erase key }

theorem get?_keep (catalogue : Catalogue) (description : Description) (key : TypeKey) :
    (catalogue.keep description).get? key =
      if description.key = key then some description else catalogue.get? key := by
  by_cases h : description.key = key
  · simp [keep, get?, h]
  · simp [keep, get?, h]

@[simp] theorem get?_enter (catalogue : Catalogue) (key other : TypeKey) :
    (catalogue.enter key).get? other = catalogue.get? other := rfl

@[simp] theorem get?_leave (catalogue : Catalogue) (key other : TypeKey) :
    (catalogue.leave key).get? other = catalogue.get? other := rfl

@[simp] theorem leave_enter (catalogue : Catalogue) (key : TypeKey) :
    (catalogue.enter key).leave key = catalogue := by
  simp [enter, leave]

end Catalogue

/-- Work that describes types.  What it added to the catalogue stays there also if it fails. -/
abbrev Describing := ExceptT DescriptionError (StateM Catalogue)

namespace Describing

variable {α β : Type}

/-- What work comes to on a catalogue, and the catalogue it leaves behind. -/
def on (work : Describing α) (catalogue : Catalogue) : Except DescriptionError α × Catalogue :=
  work.run.run catalogue

/-- Does work while a key is under way, and takes the key off again however the work ends. -/
def whileUnderWay (key : TypeKey) (work : Describing α) : Describing α :=
  ExceptT.mk do
    modify (·.enter key)
    let outcome ← work.run
    modify (·.leave key)
    return outcome

/-! ### What each kind of work does to the catalogue -/

theorem on_pure (value : α) (catalogue : Catalogue) :
    (pure value : Describing α).on catalogue = (.ok value, catalogue) := rfl

theorem on_throw (error : DescriptionError) (catalogue : Catalogue) :
    (throw error : Describing α).on catalogue = (.error error, catalogue) := rfl

theorem on_get (catalogue : Catalogue) :
    (get : Describing Catalogue).on catalogue = (.ok catalogue, catalogue) := rfl

theorem on_modify (change : Catalogue → Catalogue) (catalogue : Catalogue) :
    (modify change : Describing Unit).on catalogue = (.ok (), change catalogue) := rfl

theorem on_bind (work : Describing α) (next : α → Describing β) (catalogue : Catalogue) :
    (work >>= next).on catalogue =
      match work.on catalogue with
      | (.ok value, after) => (next value).on after
      | (.error error, after) => (.error error, after) := by
  simp only [on, ExceptT.run_bind, StateT.run_bind]
  rcases work.run.run catalogue with ⟨_ | _, _⟩ <;> rfl

theorem on_whileUnderWay (key : TypeKey) (work : Describing α) (catalogue : Catalogue) :
    (whileUnderWay key work).on catalogue =
      ((work.on (catalogue.enter key)).1, (work.on (catalogue.enter key)).2.leave key) := rfl

/-- Work on a list stops at the first failure, and what came before stays done. -/
theorem on_mapM_cons (work : α → Describing β) (first : α) (rest : List α)
    (catalogue : Catalogue) :
    ((first :: rest).mapM work).on catalogue =
      match (work first).on catalogue with
      | (.ok value, after) =>
        match (rest.mapM work).on after with
        | (.ok values, last) => (.ok (value :: values), last)
        | (.error error, last) => (.error error, last)
      | (.error error, after) => (.error error, after) := by
  rw [List.mapM_cons, on_bind]
  rcases (work first).on catalogue with ⟨error | value, after⟩
  · rfl
  · simp only [on_bind]
    rcases (rest.mapM work).on after with ⟨_ | _, _⟩ <;> rfl

end Describing

section

variable (types : Reflection) (unspecified : Nullness)

/-- Describes a type from its own names and its parts, each part by `describePart`. -/
def describeFromParts (describePart : TypeKey → Describing Description) (key : TypeKey)
    (type : ManagedType) : Describing Description :=
  match type.fullName with
  | none => throw (.noFullName type.name)
  | some declaredName => do
    let parts ← type.shape.parts.mapM describePart
    return Description.build unspecified key type declaredName parts

/-- Describes a type on a walk that has some steps left.  A walk without any has met more keys
than there are, so it has come back to one of them. -/
def describeWithin : Nat → TypeKey → Describing Description
  | 0, key => throw (.cycle (types.nameOf key))
  | steps + 1, key => do
    let catalogue ← get
    match catalogue.get? key, types.get? key with
    | some description, _ => return description
    | none, none => throw (.unknownType key)
    | none, some type =>
      if key ∈ catalogue.underWay then
        throw (.cycle type.displayName)
      else do
        let description ← Describing.whileUnderWay key
          (describeFromParts unspecified (describeWithin steps) key type)
        modify (·.keep description)
        return description

/-- Describes a type, or finds the description it already has. -/
def describe (key : TypeKey) : Describing Description :=
  describeWithin types unspecified (types.keys.length + 1) key

end

end Interop
