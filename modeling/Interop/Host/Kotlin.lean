/-
Kotlin, on top of JNA.

What belongs to a type rather than to its values goes into a companion object, and
a member of a companion cannot override anything.  A native callback is an
interface with one method, so its literal starts with the name of that interface
and a return from inside has to name it as well.
-/
import Interop.Host.Declaration
import Interop.Text.Listing

namespace Interop

namespace Kotlin

/-- What is visible anyway needs no word. -/
def visibilityText : Visibility → String
  | .unmarked | .visible => ""
  | .internal => "internal "
  | .hidden => "private "
  | .overridable => "open "

/-- The word that a member needs to override another. -/
def overrideText (isOverride : Bool) : String := if isOverride then "override " else ""

/-! ### Declarations -/

/-- What a class is derived from, the base class with the arguments of its constructor first. -/
def supertypes (decl : ClassDeclaration) : List String :=
  (decl.baseType.map fun base => base ++ "(" ++ ", ".intercalate decl.baseArguments ++ ")").toList
    ++ decl.interfaces

/-- The first line of a class. -/
def classHeader (decl : ClassDeclaration) : String :=
  visibilityText decl.visibility ++ "class " ++ decl.name
    ++ decl.comment.elim "" (fun comment => " /* " ++ comment ++ " */")
    ++ (if decl.constructorParams.isEmpty then ""
        else "(" ++ ", ".intercalate decl.constructorParams ++ ")")
    ++ (if (supertypes decl).isEmpty then "" else " : " ++ ", ".intercalate (supertypes decl))
    ++ " \x7b"

/-- A class with its members, an empty line between any two. -/
def classText (decl : ClassDeclaration) : String :=
  listingText [.line (classHeader decl), .indent, .blocks decl.members, .dedent, .line "\x7d"]

/-- The line that declares a function. -/
def functionHeader (decl : FunctionDeclaration) : String :=
  visibilityText decl.visibility ++ overrideText decl.isOverride ++ "fun " ++ decl.name
    ++ "(" ++ ", ".intercalate decl.params ++ ")" ++ decl.returnType.elim "" (": " ++ ·) ++ " \x7b"

/-- A function with its body. -/
def functionText (decl : FunctionDeclaration) : String :=
  listingText <|
    (if decl.throws then [.line "@Throws(Throwable::class)"] else [])
    ++ [.line (functionHeader decl), .indent, .block decl.body, .dedent, .line "\x7d"]

/-- A property under its marks, each on a line of its own. -/
def propertyText (decl : PropertyDeclaration) : String :=
  "\n".intercalate <|
    (if decl.isStatic then ["@JvmStatic"] else [])
    ++ (if decl.throws then ["@get:Throws(Throwable::class)"] else [])
    ++ [visibilityText decl.visibility ++ overrideText (decl.isOverride && !decl.isStatic)
        ++ "val " ++ decl.name ++ ": " ++ decl.typeName ++ " get() = " ++ decl.getter]

/-- The properties of the type, gathered in its companion object. -/
def companionText (decls : List PropertyDeclaration) : String :=
  listingText
    [.line "companion object \x7b", .indent, .blocks (decls.map propertyText), .dedent,
      .line "\x7d"]

/-- Properties, those of the type first. -/
def propertiesText (decls : List PropertyDeclaration) : String :=
  let statics := decls.filter (·.isStatic)
  let others := decls.filter (!·.isStatic)
  "\n\n".intercalate <|
    (if statics.isEmpty then [] else [companionText statics]) ++ others.map propertyText

/-- The word says whether the name can be given another value. -/
def localText (decl : LocalDeclaration) : String :=
  decl.textAfter (if decl.isMutable then "var" else "val")

def parameterText (name typeName : String) : String := name ++ ": " ++ typeName

/-! ### Handles -/

/-- The wrapper's primary constructor takes the handle. -/
def handleParams : List String := ["handle: Pointer"]

/-- The handle is passed on to the base class. -/
def handleArguments : List String := ["handle"]

/-- The handle of the current object. -/
def selfHandle : String := "this.__handle"

/-! ### Callbacks -/

/-- The literal starts with the interface and names its parameters. -/
def callbackOpening (functionType : String) (params : List String) : String :=
  functionType ++ " \x7b " ++ ", ".intercalate params ++ " ->"

/-- A return that names the literal it leaves. -/
def callbackReturn (functionType expression : String) : String :=
  "return@" ++ functionType ++ " " ++ expression

/-- The statement that stops unless the context is there. -/
def contextGuard (context : String) : String :=
  "checkNotNull(" ++ context ++ ") \x7b \"" ++ nilContextMessage ++ "\" \x7d"

/-- The box behind the context. -/
def unboxContext (context closureType : String) : String :=
  "NativeBox.fromPointer<" ++ closureType ++ ">(" ++ context ++ ")"

/-- The statement that lets go of the box. -/
def releaseContext (context closureType : String) : String :=
  "NativeBox.release<" ++ closureType ++ ">(" ++ context ++ ")"

/-- The statement that leaves the value to the managed side; a value that may be absent is
reached safely. -/
def suppressDestroy (value : String) (isNullable : Bool) : String :=
  value ++ (if isNullable then "?." else ".")
    ++ "__destroyMode = DestroyMode.SKIP // Will be destroyed by the managed runtime"

/-! ### Exceptions -/

/-- The slot is an object that native code writes to. -/
def exceptionSlot (slot : String) : String := "val " ++ slot ++ " = PointerByReference()"

/-- The object itself is passed. -/
def exceptionArgument (slot : String) : String := slot

/-- What the slot holds is read once, and raised if it is not null. -/
def exceptionCheckSteps (slot : String) : List Listing.Step :=
  [.line ("val " ++ slot ++ "Value = " ++ slot ++ ".value"),
   .line ("if (" ++ slot ++ "Value != null) \x7b"),
   .indent,
   .line ("throw System_Exception(" ++ slot ++ "Value).toKotlinException()"),
   .dedent,
   .line "\x7d"]

end Kotlin

end Interop
