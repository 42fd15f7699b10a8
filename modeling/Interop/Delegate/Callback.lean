/-
How a host closure is handed to native code.

Native code calls a plain function with a context, and the closure is found in a
box behind that context.  Two functions go with one closure.  The callback finds the
closure, calls it with converted arguments and converts what it returns.  The
destructor lets go of the box.  Both stop at once if the context is missing, and
both agree on the type of the closure in the box.

A wrapper offers a private function for each of them, which returns it.
-/
import Interop.Delegate.ResolvedDelegate
import Interop.NativeLayer

namespace Interop

/-- A member of a wrapper that returns a native function. -/
structure CallableFactory where
  name : String
  /-- The type of the native function. -/
  returnType : String
  /-- The whole declaration of the member. -/
  text : String
  deriving DecidableEq, Repr, Inhabited

namespace Callback

/-! ### Names used in the literals -/

/-- The first parameter of every native callback. -/
def contextName : String := "__innerContext"

/-- The box found behind the context. -/
def boxName (host : Host) : String :=
  "__inner" ++ Crossing.valueMark host.language ++ "Context"

def closureName : String := "__innerClosure"

/-- What the closure returns. -/
def hostReturnName (host : Host) : String :=
  "__returnValue" ++ Crossing.valueMark host.language

/-- What the closure returns, once it is converted. -/
def returnName : String := "__returnValue"

/-- The names that the callback uses itself. -/
def reservedNames (host : Host) : List String :=
  [contextName, boxName host, closureName, hostReturnName host, returnName]

/-- The name of the member that returns the callback. -/
def creatorName : String := "__createCFunction"

/-- The name of the member that returns the destructor. -/
def destructorCreatorName : String := "__createCDestructorFunction"

/-! ### Bodies -/

/-- The statement that leaves a returned object to native code, if an object is returned. -/
def handOverSteps (delegate : ResolvedDelegate) : List Listing.Step :=
  if delegate.returnDescription.category.valueKind? = some .referenceObject then
    [.line (delegate.host.suppressDestroy (hostReturnName delegate.host)
      delegate.returnNullness.isNullable)]
  else []

/-- The call of the closure and the return of its result, given the result's conversion. -/
def returningSteps (delegate : ResolvedDelegate) (symbols : NativeSymbols) (call : String)
    (conversion : Option Template) : List Listing.Step :=
  let host := delegate.host
  let value := hostReturnName host
  let (converted, returned) : List Listing.Step × String :=
    match conversion with
    | some template => ([.line (host.bind returnName (template.apply value))], returnName)
    | none => ([], value)
  [.line (host.bind value call)] ++ converted ++ handOverSteps delegate
    ++ [.blank, .line (host.callbackReturn symbols.functionType returned)]

/-- The call of the closure and what follows it. -/
def callSteps (delegate : ResolvedDelegate) (symbols : NativeSymbols) (call : String) :
    Except ConversionError (List Listing.Step) :=
  if delegate.isReturning then do
    let conversion ← delegate.returnDescription.convert delegate.host.language
      delegate.host.nativeLanguage delegate.returnNullness
    return returningSteps delegate symbols call conversion
  else
    return [.line call]

/-- The parameters of the callback's literal.  The literal is host text, so they have host
identifiers, although their values are native. -/
def literalParams (delegate : ResolvedDelegate) : List String :=
  contextName :: delegate.params.map (·.identifier delegate.host.language)

/-- The call of the closure. -/
def callText (arrivals : List Crossing.Arrival) : String :=
  closureName ++ "(" ++ ", ".intercalate (Crossing.arguments arrivals) ++ ")"

/-- The steps that write the callback's literal. -/
def bodySteps (delegate : ResolvedDelegate) (symbols : NativeSymbols)
    (arrivals : List Crossing.Arrival) (calling : List Listing.Step) : List Listing.Step :=
  let host := delegate.host
  [.line (Host.returnStatement
      (host.callbackOpening symbols.functionType (literalParams delegate))),
    .indent,
    .line (host.contextGuard contextName),
    .blank,
    .line (host.bind (boxName host) (host.unboxContext contextName delegate.closureType)),
    .line (host.bind closureName (boxName host ++ ".value")),
    .blank]
    ++ Crossing.conversionSteps host arrivals
    ++ calling
    ++ [.dedent, .line "\x7d"]

/-- The steps that write the destructor's literal. -/
def destructorSteps (delegate : ResolvedDelegate) (symbols : NativeSymbols) : List Listing.Step :=
  let host := delegate.host
  [.line (Host.returnStatement
      (host.callbackOpening symbols.destructorFunctionType [contextName])),
    .indent,
    .line (host.contextGuard contextName),
    .blank,
    .line (host.releaseContext contextName delegate.closureType),
    .dedent,
    .line "\x7d"]

/-! ### Members -/

/-- A private member that returns a native function of a type. -/
def factory (host : Host) (name returnType : String) (body : List Listing.Step) :
    CallableFactory where
  name := name
  returnType := returnType
  text := host.functionText {
    name
    visibility := .hidden
    returnType := some returnType
    body := listingText body }

/-- The member that returns the callback. -/
def creator (delegate : ResolvedDelegate) (symbols : NativeSymbols) :
    Except ConversionError CallableFactory := do
  let host := delegate.host
  let arrivals ← Crossing.arrive host.nativeLanguage host.language host.language
    (reservedNames host) delegate.params
  let calling ← callSteps delegate symbols (callText arrivals)
  return factory host creatorName symbols.functionType
    (bodySteps delegate symbols arrivals calling)

/-- The member that returns the destructor. -/
def destructorCreator (delegate : ResolvedDelegate) (symbols : NativeSymbols) : CallableFactory :=
  factory delegate.host destructorCreatorName symbols.destructorFunctionType
    (destructorSteps delegate symbols)

end Callback

end Interop
