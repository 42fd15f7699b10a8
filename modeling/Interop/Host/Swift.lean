/-
Swift, on top of C.

A Swift class has no primary constructor, so the parameters of one and the
arguments for the base class are not written.  A native callback is a plain
closure, and a value is returned from it like from any function.
-/
import Interop.Host.Declaration
import Interop.Text.Listing

namespace Interop

namespace Swift

/-- Nothing is visible outside its module without a word. -/
def visibilityText : Visibility → String
  | .unmarked => ""
  | .visible => "public "
  | .internal => "internal "
  | .hidden => "private "
  | .overridable => "open "

/-- The word that a member needs to override another. -/
def overrideText (isOverride : Bool) : String := if isOverride then "override " else ""

/-! ### Declarations -/

/-- What a class is derived from, the base class first. -/
def supertypes (decl : ClassDeclaration) : List String :=
  decl.baseType.toList ++ decl.interfaces

/-- The first line of a class. -/
def classHeader (decl : ClassDeclaration) : String :=
  visibilityText decl.visibility ++ "class " ++ decl.name
    ++ decl.comment.elim "" (fun comment => " /* " ++ comment ++ " */")
    ++ (if (supertypes decl).isEmpty then "" else ": " ++ ", ".intercalate (supertypes decl))
    ++ " \x7b"

/-- A class with its members, an empty line between any two. -/
def classText (decl : ClassDeclaration) : String :=
  listingText [.line (classHeader decl), .indent, .blocks decl.members, .dedent, .line "\x7d"]

/-- The line that declares a function. -/
def functionHeader (decl : FunctionDeclaration) : String :=
  visibilityText decl.visibility ++ overrideText decl.isOverride ++ "func " ++ decl.name
    ++ "(" ++ ", ".intercalate decl.params ++ ")" ++ (if decl.throws then " throws" else "")
    ++ decl.returnType.elim "" (" -> " ++ ·) ++ " \x7b"

/-- A function with its body. -/
def functionText (decl : FunctionDeclaration) : String :=
  listingText [.line (functionHeader decl), .indent, .block decl.body, .dedent, .line "\x7d"]

/-- The braces around the getter; one that can throw has to be spelled out. -/
def accessorText (decl : PropertyDeclaration) : String :=
  if decl.throws then "\x7b get throws \x7b " ++ decl.getter ++ " \x7d \x7d"
  else "\x7b " ++ decl.getter ++ " \x7d"

/-- A property of the type is a class variable, which can be overridden. -/
def propertyText (decl : PropertyDeclaration) : String :=
  visibilityText decl.visibility ++ overrideText decl.isOverride
    ++ (if decl.isStatic then "class " else "")
    ++ "var " ++ decl.name ++ ": " ++ decl.typeName ++ " " ++ accessorText decl

/-- Properties, one after the other. -/
def propertiesText (decls : List PropertyDeclaration) : String :=
  "\n\n".intercalate (decls.map propertyText)

/-- The word says whether the name can be given another value. -/
def localText (decl : LocalDeclaration) : String :=
  decl.textAfter (if decl.isMutable then "var" else "let")

/-- Parameters are passed without labels. -/
def parameterText (name typeName : String) : String := "_ " ++ name ++ ": " ++ typeName

/-! ### Handles -/

/-- There is no primary constructor to take a handle. -/
def handleParams : List String := []

/-- And so there is nothing to pass on. -/
def handleArguments : List String := []

/-- The handle of the current object. -/
def selfHandle : String := "self.__handle"

/-! ### Callbacks -/

/-- The literal is a closure and names its parameters. -/
def callbackOpening (params : List String) : String :=
  "\x7b " ++ ", ".intercalate params ++ " in"

/-- The statement that stops unless the context is there. -/
def contextGuard (context : String) : String :=
  "guard let " ++ context ++ " else \x7b fatalError(\"" ++ nilContextMessage ++ "\") \x7d"

/-- The box behind the context. -/
def unboxContext (context closureType : String) : String :=
  "NativeBox<" ++ closureType ++ ">.fromPointer(" ++ context ++ ")"

/-- The statement that lets go of the box. -/
def releaseContext (context closureType : String) : String :=
  "NativeBox<" ++ closureType ++ ">.release(" ++ context ++ ")"

/-- The statement that leaves the value to the managed side; a value that may be absent is
reached safely. -/
def suppressDestroy (value : String) (isNullable : Bool) : String :=
  value ++ (if isNullable then "?." else ".")
    ++ "__destroyMode = .skip // Will be destroyed by the managed runtime"

/-! ### Exceptions -/

/-- The slot is a variable that native code writes to. -/
def exceptionSlot (slot : String) : String := "var " ++ slot ++ ": System_Exception_t?"

/-- The address of the variable is passed. -/
def exceptionArgument (slot : String) : String := "&" ++ slot

/-- What the slot holds is wrapped and raised if it is there. -/
def exceptionCheckSteps (slot : String) : List Listing.Step :=
  [.line ("if let " ++ slot ++ " \x7b"),
   .indent,
   .line ("let __exception = System_Exception(handle: " ++ slot ++ ")"),
   .line "let __error = __exception.swiftError",
   .blank,
   .line "throw __error",
   .dedent,
   .line "\x7d"]

end Swift

end Interop
