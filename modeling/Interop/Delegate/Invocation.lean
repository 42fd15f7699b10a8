/-
How the host calls a delegate: the member `invoke` of its wrapper.

The arguments are converted, the native function is called with the wrapper's
handle and with a place for an exception, and the exception is raised if there is
one.  Only after that is the result touched.
-/
import Interop.Delegate.ResolvedDelegate
import Interop.NativeLayer

namespace Interop

/-- The member of a wrapper that calls the delegate. -/
structure Invocation where
  isOverride : Bool
  nativeFunction : String
  /-- The arguments of the native call: the handle, the parameters, and the exception's place. -/
  nativeArguments : List String
  isReturning : Bool
  /-- The whole declaration of the member. -/
  text : String
  deriving DecidableEq, Repr, Inhabited

namespace Invocation

/-! ### Names used in the body -/

/-- The wrapper's own handle. -/
def handleName : String := "__selfC"

/-- The place where native code leaves an exception. -/
def slotName : String := "__exceptionC"

/-- What the native function returns. -/
def nativeReturnName : String := "__returnValueC"

/-- What the native function returns, once it is converted. -/
def returnName : String := "__returnValue"

/-- The names that the body uses itself, with those of either host's exception check. -/
def reservedNames : List String :=
  [handleName, slotName, nativeReturnName, returnName, "__exceptionCValue", "__exception",
    "__error"]

/-! ### The body -/

/-- The native call, with a name for what it returns. -/
def callLine (delegate : ResolvedDelegate) (call : String) : String :=
  if delegate.isReturning then delegate.host.bind nativeReturnName call else call

/-- The return of the result, given its conversion. -/
def returningSteps (host : Host) : Option Template → List Listing.Step
  | some template =>
    [.line (host.bind returnName (template.apply nativeReturnName)),
      .line (Host.returnStatement returnName)]
  | none => [.line (Host.returnStatement nativeReturnName)]

/-- What follows the exception check. -/
def resultSteps (delegate : ResolvedDelegate) : Except ConversionError (List Listing.Step) :=
  if delegate.isReturning then do
    let conversion ← delegate.returnDescription.convert delegate.host.nativeLanguage
      delegate.host.language delegate.returnNullness
    return .blank :: returningSteps delegate.host conversion
  else
    return []

/-- The arguments of the native call, given how the parameters arrive. -/
def argumentsFor (host : Host) (arrivals : List Crossing.Arrival) : List String :=
  handleName :: Crossing.arguments arrivals ++ [host.exceptionArgument slotName]

/-- The steps that write the body. -/
def bodySteps (delegate : ResolvedDelegate) (symbols : NativeSymbols)
    (arrivals : List Crossing.Arrival) (result : List Listing.Step) : List Listing.Step :=
  let host := delegate.host
  let call := symbols.invokeFunction ++ "("
    ++ ", ".intercalate (argumentsFor host arrivals) ++ ")"
  [.line (host.exceptionSlot slotName), .line (host.bind handleName host.selfHandle), .blank]
    ++ Crossing.conversionSteps host arrivals
    ++ [.line (callLine delegate call), .blank, .block (host.exceptionCheck slotName)]
    ++ result

/-! ### The member -/

/-- The declaration of the member.  It is left open where it overrides nothing, so that a derived
wrapper can override it. -/
def declaration (delegate : ResolvedDelegate) (body : List Listing.Step) :
    FunctionDeclaration where
  name := "invoke"
  visibility := if delegate.isOverride then .visible else .overridable
  isOverride := delegate.isOverride
  throws := true
  params := delegate.params.map (·.declaration delegate.host delegate.host.language)
  returnType :=
    if delegate.isReturning then some (delegate.returnTypeName delegate.host.language) else none
  body := listingText body

/-- The member that calls the delegate. -/
def ofDelegate (delegate : ResolvedDelegate) (symbols : NativeSymbols) :
    Except ConversionError Invocation := do
  let host := delegate.host
  let arrivals ← Crossing.arrive host.language host.nativeLanguage host.language reservedNames
    delegate.params
  let result ← resultSteps delegate
  return {
    isOverride := delegate.isOverride
    nativeFunction := symbols.invokeFunction
    nativeArguments := argumentsFor host arrivals
    isReturning := delegate.isReturning
    text := host.functionText
      (declaration delegate (bodySteps delegate symbols arrivals result)) }

end Invocation

end Interop
