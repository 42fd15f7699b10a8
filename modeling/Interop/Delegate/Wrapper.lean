/-
The bindings of one delegate type: a host class that wraps a native handle.

The class says which managed type it stands for, hands closures to native code, and
calls the delegate.  The native layer has to be there first: a type it has nothing
for is refused before its signature is looked at, and a type for which it has the
declarations of another is refused once it is known what the right name is.
-/
import Interop.Delegate.Callback
import Interop.Delegate.Invocation

namespace Interop

/-- The bindings of one delegate type. -/
structure Wrapper where
  key : TypeKey
  fullTypeName : String
  hostTypeName : String
  /-- The properties that say which managed type the class stands for. -/
  typeIdentity : String
  createCallable : CallableFactory
  createDestructor : CallableFactory
  invoke : Invocation
  /-- The whole class. -/
  text : String
  deriving DecidableEq, Repr, Inhabited

namespace Wrapper

/-- A property of the type that names it. -/
def identityProperty (name value : String) : PropertyDeclaration where
  name := name
  typeName := "String"
  isOverride := true
  isStatic := true
  getter := "\"" ++ value ++ "\""

def typeIdentityText (delegate : ResolvedDelegate) : String :=
  delegate.host.propertiesText
    [identityProperty "typeName" delegate.typeName,
      identityProperty "fullTypeName" delegate.fullTypeName]

/-- The class with its members. -/
def classDeclaration (delegate : ResolvedDelegate) (members : List String) :
    ClassDeclaration where
  name := delegate.hostTypeName
  comment := some delegate.fullTypeName
  visibility := .overridable
  baseType := some delegate.hostBaseTypeName
  constructorParams := delegate.host.handleParams
  baseArguments := delegate.host.handleArguments
  members := members

/-- The bindings of a resolved delegate over the declarations it has in the native layer. -/
def ofDelegate (delegate : ResolvedDelegate) (symbols : NativeSymbols) :
    Except ConversionError Wrapper := do
  let typeIdentity := typeIdentityText delegate
  let createCallable ← Callback.creator delegate symbols
  let createDestructor := Callback.destructorCreator delegate symbols
  let invoke ← Invocation.ofDelegate delegate symbols
  return {
    key := delegate.key
    fullTypeName := delegate.fullTypeName
    hostTypeName := delegate.hostTypeName
    typeIdentity
    createCallable
    createDestructor
    invoke
    text := delegate.host.classText (classDeclaration delegate
      [typeIdentity, createCallable.text, createDestructor.text, invoke.text]) }

/-- The declarations have to be those of this very type. -/
def checkNativeLayer (delegate : ResolvedDelegate) (symbols : NativeSymbols) :
    Except Refusal Unit :=
  if symbols.cTypeName = delegate.description.cTypeName then
    .ok ()
  else
    .error (.nativeLayerMismatch delegate.fullTypeName delegate.description.cTypeName
      symbols.cTypeName)

/-- The declarations that the native layer has for a type. -/
def nativeSymbols (native : NativeLayer) (key : TypeKey) (fullName : String) :
    Except Refusal NativeSymbols :=
  match native.get? key with
  | some symbols => .ok symbols
  | none => .error (.missingNativeLayer fullName)

end Wrapper

/-- Writes the bindings of the delegate type at a key. -/
def wrap (types : Reflection) (settings : Settings) (native : NativeLayer) (key : TypeKey) :
    Resolving Wrapper := do
  let (_, fullName) ← Resolving.ofDecision (namedDelegateAt types key)
  let symbols ← Resolving.ofDecision (Wrapper.nativeSymbols native key fullName)
  let delegate ← resolve types settings key
  Resolving.ofDecision (Wrapper.checkNativeLayer delegate symbols)
  Resolving.ofConversion (Wrapper.ofDelegate delegate symbols)

end Interop
