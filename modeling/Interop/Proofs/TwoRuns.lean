/-
Two runs that find the same.

A run may be over another program or under other settings, and still find the same
as far as one type is concerned.  What it comes to is put together step by step, and
each step comes to the same if what it is put together from does: a survey from what
its types are described as, and resolving from the surveys along the chain of bases.
-/
import Interop.Proofs.Written

namespace Interop

section

variable {types others : Reflection} {settings settings' : Settings}

/-- A survey finds the same if its signature is supported alike and its types are described
alike. -/
theorem survey_congr {key : TypeKey}
    (hnamed : namedDelegateAt others key = namedDelegateAt types key)
    (hsigned : ∀ type fullName, namedDelegateAt types key = .ok (type, fullName) →
      supportedSignature settings' type = supportedSignature settings type)
    (hown : describeAfresh others settings'.unspecified key =
      describeAfresh types settings.unspecified key)
    (hresult : ∀ type signature, types.get? key = some type → type.invoke = some signature →
      describeAfresh others settings'.unspecified signature.returnType =
        describeAfresh types settings.unspecified signature.returnType)
    (hparam : ∀ type signature, types.get? key = some type → type.invoke = some signature →
      ∀ param ∈ signature.params,
        crossingAfresh others settings' param = crossingAfresh types settings param)
    (hbase : ∀ type, types.get? key = some type →
      describeBase others settings' type.base = describeBase types settings type.base) :
    survey others settings' key = survey types settings key := by
  unfold survey
  rw [hnamed]
  cases hfound : namedDelegateAt types key with
  | error refusal => rw [error_bind, error_bind]
  | ok named =>
      obtain ⟨type, fullName⟩ := named
      have htype := (namedDelegateAt_eq_ok hfound).1
      rw [ok_bind, ok_bind]
      dsimp only
      rw [hsigned type fullName hfound]
      cases hsupported : supportedSignature settings type with
      | error refusal => rw [error_bind, error_bind]
      | ok signature =>
          have hinvoke := invoke_of_supportedSignature hsupported
          rw [ok_bind, ok_bind, hown, hresult type signature htype hinvoke,
            mapM_congr_of_mem (hparam type signature htype hinvoke), hbase type htype]

/-- Resolving comes to the same along any number of links if surveys find the same and lead to the
same conclusions all along the chain of bases. -/
theorem resolveAfresh_congr (OnChain : TypeKey → Prop)
    (hsurvey : ∀ key, OnChain key → survey others settings' key = survey types settings key)
    (hconclude : ∀ key found baseSignature, survey types settings key = .ok found →
      found.conclude settings' key baseSignature = found.conclude settings key baseSignature)
    (hbase : ∀ key found base, OnChain key → survey types settings key = .ok found →
      found.type.base = some base → OnChain base)
    (links : Nat) :
    ∀ key, OnChain key →
      resolveAfresh others settings' links key = resolveAfresh types settings links key := by
  induction links with
  | zero => intro key _; rfl
  | succ links ih =>
      intro key hkey
      rw [resolveAfresh, resolveAfresh, hsurvey key hkey]
      cases hfound : survey types settings key with
      | error refusal => rfl
      | ok found =>
          dsimp only
          cases hlink : found.type.base with
          | none =>
              dsimp only
              rw [hconclude key found none hfound]
          | some base =>
              dsimp only
              rw [ih base (hbase key found base hkey hfound hlink)]
              exact congrArg (Option.map · _) (funext fun _ => hconclude key found _ hfound)

/-- Bindings are the same if the type resolves to the same and has the same declarations. -/
theorem wrapAfresh_congr {native natives : NativeLayer} {key : TypeKey}
    (hnamed : namedDelegateAt others key = namedDelegateAt types key)
    (hnative : natives.get? key = native.get? key)
    (hresolve : resolveAfresh others settings' (others.keys.length + 1) key =
      resolveAfresh types settings (types.keys.length + 1) key) :
    wrapAfresh others settings' natives key = wrapAfresh types settings native key := by
  unfold wrapAfresh Wrapper.nativeSymbols
  rw [hnamed, hnative, hresolve]

end

end Interop
