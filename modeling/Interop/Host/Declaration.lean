/-
Declarations of a host language, before they are written out.

A declaration is a plain value with one field for each thing that can be said about
it.  Names, types and bodies are finished text; where they go is the host's matter.
-/

namespace Interop

/-- Who can see a declaration. -/
inductive Visibility where
  /-- Nothing is written. -/
  | unmarked
  | visible
  | internal
  | hidden
  /-- Visible, and open to be overridden. -/
  | overridable
  deriving DecidableEq, Repr, Inhabited

structure ClassDeclaration where
  name : String
  /-- Written beside the name. -/
  comment : Option String := none
  visibility : Visibility := .unmarked
  baseType : Option String := none
  interfaces : List String := []
  /-- The parameters of the primary constructor, as they are declared. -/
  constructorParams : List String := []
  /-- What the constructor of the base type is given. -/
  baseArguments : List String := []
  /-- The members, each a text of its own. -/
  members : List String := []
  deriving DecidableEq, Repr, Inhabited

structure FunctionDeclaration where
  name : String
  visibility : Visibility := .unmarked
  isOverride : Bool := false
  throws : Bool := false
  /-- The parameters, as they are declared. -/
  params : List String := []
  /-- The name of the type returned, if anything is. -/
  returnType : Option String := none
  body : String
  deriving DecidableEq, Repr, Inhabited

/-- A property that is only read. -/
structure PropertyDeclaration where
  name : String
  typeName : String
  visibility : Visibility := .unmarked
  isOverride : Bool := false
  /-- The property belongs to the type and not to its values. -/
  isStatic : Bool := false
  throws : Bool := false
  /-- The expression that is read. -/
  getter : String
  deriving DecidableEq, Repr, Inhabited

/-- A local name. -/
structure LocalDeclaration where
  name : String
  isMutable : Bool := false
  typeName : Option String := none
  value : Option String := none
  deriving DecidableEq, Repr, Inhabited

namespace LocalDeclaration

/-- A name for a value, for good. -/
def fixed (name value : String) : LocalDeclaration := { name, value := some value }

/-- A declaration behind the keyword of its host. -/
def textAfter (keyword : String) (decl : LocalDeclaration) : String :=
  keyword ++ " " ++ decl.name ++ (decl.typeName.elim "" (": " ++ ·))
    ++ (decl.value.elim "" (" = " ++ ·))

end LocalDeclaration

/-- What a callback stops with when it is called without a context. -/
def nilContextMessage : String := "Context is nil"

end Interop
