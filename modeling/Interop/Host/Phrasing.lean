/-
How a host phrases the declarations and statements that bindings are made of.

Whatever the hosts agree on is said here once.  Everything else asks the host, and
no other module writes host text of its own.
-/
import Interop.Host.Kotlin
import Interop.Host.Swift
import Interop.Language

namespace Interop

namespace Host

/-! ### Declarations -/

def classText : Host → ClassDeclaration → String
  | .kotlin => Kotlin.classText
  | .swift => Swift.classText

def functionText : Host → FunctionDeclaration → String
  | .kotlin => Kotlin.functionText
  | .swift => Swift.functionText

/-- Several properties of one class, as one text. -/
def propertiesText : Host → List PropertyDeclaration → String
  | .kotlin => Kotlin.propertiesText
  | .swift => Swift.propertiesText

def localText : Host → LocalDeclaration → String
  | .kotlin => Kotlin.localText
  | .swift => Swift.localText

/-- The declaration of a parameter. -/
def parameterText : Host → String → String → String
  | .kotlin => Kotlin.parameterText
  | .swift => Swift.parameterText

/-- The constructor parameters of a class that wraps a native handle. -/
def handleParams : Host → List String
  | .kotlin => Kotlin.handleParams
  | .swift => Swift.handleParams

/-- What a class that wraps a native handle gives to the constructor of its base. -/
def handleArguments : Host → List String
  | .kotlin => Kotlin.handleArguments
  | .swift => Swift.handleArguments

/-! ### Statements and expressions -/

/-- The type of a closure. -/
def closureType (paramTypes : List String) (returnType : String) : String :=
  "(" ++ ", ".intercalate paramTypes ++ ") -> " ++ returnType

def returnStatement (expression : String) : String := "return " ++ expression

/-- The statement that gives a value a name for good. -/
def bind (host : Host) (name value : String) : String := host.localText (.fixed name value)

/-- The first line of the literal of a native function; its last line is a closing brace. -/
def callbackOpening : Host → String → List String → String
  | .kotlin, functionType, params => Kotlin.callbackOpening functionType params
  | .swift, _, params => Swift.callbackOpening params

/-- A return from inside the literal of a native function. -/
def callbackReturn : Host → String → String → String
  | .kotlin, functionType, expression => Kotlin.callbackReturn functionType expression
  | .swift, _, expression => returnStatement expression

/-- The statement after which the context is known to be there. -/
def contextGuard : Host → String → String
  | .kotlin => Kotlin.contextGuard
  | .swift => Swift.contextGuard

/-- The expression for the holder of the closure behind a context. -/
def unboxContext : Host → String → String → String
  | .kotlin => Kotlin.unboxContext
  | .swift => Swift.unboxContext

/-- The statement that lets go of the closure behind a context. -/
def releaseContext : Host → String → String → String
  | .kotlin => Kotlin.releaseContext
  | .swift => Swift.releaseContext

/-- The statement that leaves a value to the managed side. -/
def suppressDestroy : Host → String → Bool → String
  | .kotlin => Kotlin.suppressDestroy
  | .swift => Swift.suppressDestroy

/-- The expression for the native handle of the current object. -/
def selfHandle : Host → String
  | .kotlin => Kotlin.selfHandle
  | .swift => Swift.selfHandle

/-- The declaration of the place where native code leaves an exception. -/
def exceptionSlot : Host → String → String
  | .kotlin => Kotlin.exceptionSlot
  | .swift => Swift.exceptionSlot

/-- The argument by which native code is told that place. -/
def exceptionArgument : Host → String → String
  | .kotlin => Kotlin.exceptionArgument
  | .swift => Swift.exceptionArgument

def exceptionCheckSteps : Host → String → List Listing.Step
  | .kotlin => Kotlin.exceptionCheckSteps
  | .swift => Swift.exceptionCheckSteps

/-- The statements that look at that place and raise what they find. -/
def exceptionCheck (host : Host) (slot : String) : String :=
  listingText (host.exceptionCheckSteps slot)

end Host

end Interop
