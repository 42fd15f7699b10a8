/-
When `invoke` overrides.

A wrapper is derived from that of its base, and its `invoke` overrides the one there
if both take and return the same types in the same way.  An override of nothing
would not compile, so the base must get bindings of its own, and whether it does
depends on its signature, on its conversions, and on nothing else: the base is
resolved along one link less, but with enough links for an answer one more or less
changes nothing.

So what a wrapper knows of its base is what resolving the base alone comes to,
however long the chain of bases is and whatever becomes of those further up.
-/
import Interop.Proofs.Written

namespace Interop

/-! ### Signatures of one form -/

namespace Signature

/-- The signatures take and return the same types in the same way. -/
structure SameForm (first second : Signature) : Prop where
  returnType : first.returnType = second.returnType
  returnsByRef : first.returnsByRef = second.returnsByRef
  params : List.Forall₂ (fun param other => param.type = other.type ∧ param.passing = other.passing)
    first.params second.params

theorem paramsAgree_iff {first second : List Param} :
    paramsAgree first second = true ↔
      List.Forall₂ (fun param other => param.type = other.type ∧ param.passing = other.passing)
        first second := by
  induction first generalizing second with
  | nil => cases second <;> simp [paramsAgree]
  | cons param rest ih =>
      cases second with
      | nil => simp [paramsAgree]
      | cons other others => simp [paramsAgree, ih]

theorem agrees_iff {first second : Signature} :
    first.agrees second = true ↔ first.SameForm second := by
  unfold agrees
  rw [Bool.and_eq_true, Bool.and_eq_true, beq_iff_eq, beq_iff_eq, paramsAgree_iff]
  constructor
  · rintro ⟨⟨hreturn, hbyRef⟩, hparams⟩
    exact ⟨hreturn, hbyRef, hparams⟩
  · rintro ⟨hreturn, hbyRef, hparams⟩
    exact ⟨⟨hreturn, hbyRef⟩, hparams⟩

end Signature

section

variable {types : Reflection} {settings : Settings} {native : NativeLayer} {key : TypeKey}

/-! ### Resolving alone -/

/-- A type that resolves has the signature that its delegate has. -/
theorem exists_invoke_of_resolveAfresh {links : Nat} {delegate : ResolvedDelegate}
    (h : resolveAfresh types settings links key = some (.ok delegate)) :
    ∃ type, types.get? key = some type ∧ type.invoke = some delegate.signature := by
  cases links with
  | zero => cases h
  | succ links =>
      obtain ⟨found, _, hsurvey, rfl, -⟩ := resolveAfresh_succ_eq_ok h
      obtain ⟨_, hnamed, hsigned, -⟩ := survey_eq_ok hsurvey
      exact ⟨found.type, (namedDelegateAt_eq_ok hnamed).1, invoke_of_supportedSignature hsigned⟩

/-- What a delegate overrides is the `invoke` of its base, if the base resolves alone. -/
theorem isOverride_iff_of_resolveAfresh {delegate : ResolvedDelegate}
    (h : resolveAfresh types settings (types.keys.length + 1) key = some (.ok delegate)) :
    delegate.isOverride = true ↔
      ∃ type base resolved, types.get? key = some type ∧ type.base = some base ∧
        resolveAfresh types settings (types.keys.length + 1) base = some (.ok resolved) ∧
        resolved.signature.SameForm delegate.signature := by
  obtain ⟨found, baseSignature, hsurvey, rfl, -, hnone, hsome⟩ := resolveAfresh_succ_eq_ok h
  obtain ⟨_, hnamed, -⟩ := survey_eq_ok hsurvey
  have htype := (namedDelegateAt_eq_ok hnamed).1
  have hoverride : (found.delegate settings key baseSignature).isOverride = true ↔
      ∃ known, baseSignature = some known ∧ known.SameForm found.signature := by
    cases baseSignature with
    | none => simp [ResolvedDelegate.isOverride, Survey.delegate]
    | some known => simp [ResolvedDelegate.isOverride, Survey.delegate, Signature.agrees_iff]
  rw [hoverride]
  constructor
  · rintro ⟨known, hknown, hform⟩
    cases hbase : found.type.base with
    | none => cases hknown.symm.trans (hnone hbase)
    | some base =>
        obtain ⟨outcome, houtcome, hsignature⟩ := hsome base hbase
        rw [hknown] at hsignature
        cases outcome with
        | error refusal => cases hsignature
        | ok resolved =>
            cases hsignature
            -- One link more leads to the same answer.
            exact ⟨found.type, base, resolved, htype, hbase,
              resolveAfresh_mono (Nat.le_succ _) houtcome, hform⟩
  · rintro ⟨type, base, resolved, htype', hbase, hresolved, hform⟩
    cases htype.symm.trans htype'
    obtain ⟨outcome, houtcome, hsignature⟩ := hsome base hbase
    cases (resolveAfresh_mono (Nat.le_succ _) houtcome).symm.trans hresolved
    exact ⟨resolved.signature, hsignature, hform⟩

/-! ### Bindings -/

/-- A type that resolves gets bindings if the native layer has its declarations. -/
theorem exists_wrapAfresh_of_resolved {delegate : ResolvedDelegate} {type : ManagedType}
    {fullName : String} {symbols : NativeSymbols}
    (h : resolveAfresh types settings (types.keys.length + 1) key = some (.ok delegate))
    (htype : types.get? key = some type) (hname : type.fullName = some fullName)
    (hsymbols : native.get? key = some symbols)
    (hmatch : symbols.cTypeName = Identifier.ofFullName fullName) :
    ∃ wrapper, wrapAfresh types settings native key = some (.ok wrapper) := by
  obtain ⟨found, baseSignature, hsurvey, rfl, hchecked, -⟩ := resolveAfresh_succ_eq_ok h
  obtain ⟨name, hnamed, -⟩ := survey_eq_ok hsurvey
  obtain ⟨htype', hname', -⟩ := namedDelegateAt_eq_ok hnamed
  cases htype.symm.trans htype'
  cases hname.symm.trans hname'
  obtain ⟨-, -, hc⟩ := survey_names hsurvey hnamed
  obtain ⟨wrapper, hwrapper⟩ := exists_wrapper hchecked symbols
  have hnative : Wrapper.checkNativeLayer (found.delegate settings key baseSignature) symbols =
      .ok () := if_pos (hmatch.trans hc.symm)
  have hconclude :
      Wrapper.conclude (found.delegate settings key baseSignature) symbols = .ok wrapper := by
    unfold Wrapper.conclude
    rw [hnative, hwrapper]
    rfl
  refine ⟨wrapper, ?_⟩
  unfold wrapAfresh Wrapper.nativeSymbols
  rw [hnamed, hsymbols]
  dsimp only
  rw [h, Option.map_some]
  exact congrArg some hconclude

/--
**`invoke` overrides what its base really has.**  Bindings override `invoke` exactly
if the type has a base that resolves with nothing requested before, and both
signatures have one form.  Where the native layer has the declarations of that base,
the base then gets bindings, whatever was requested before, and so there is an
`invoke` to override.
-/
theorem wrap_isOverride_iff {catalogue after : Catalogue} {wrapper : Wrapper}
    (hreached : catalogue.Reached types settings.unspecified)
    (h : (wrap types settings native key).on catalogue = some (.ok wrapper, after)) :
    (wrapper.invoke.isOverride = true ↔
      ∃ (type : ManagedType) (signature : Signature) (base : TypeKey) (baseType : ManagedType)
        (baseSignature : Signature) (delegate : ResolvedDelegate) (left : Catalogue),
        types.get? key = some type ∧ type.invoke = some signature ∧ type.base = some base ∧
        types.get? base = some baseType ∧ baseType.invoke = some baseSignature ∧
        (resolve types settings base).on .empty = some (.ok delegate, left) ∧
        baseSignature.SameForm signature) ∧
    (wrapper.invoke.isOverride = true →
      ∀ (type : ManagedType) (base : TypeKey) (baseType : ManagedType) (baseName : String)
        (symbols : NativeSymbols),
        types.get? key = some type → type.base = some base →
        types.get? base = some baseType → baseType.fullName = some baseName →
        native.get? base = some symbols →
        symbols.cTypeName = Identifier.ofFullName baseName →
        ∃ baseWrapper : Wrapper, ∀ earlier : Catalogue,
          earlier.Reached types settings.unspecified →
          ∃ later,
            (wrap types settings native base).on earlier = some (.ok baseWrapper, later)) := by
  obtain ⟨_, _, _, delegate, -, -, hresolved, -, -, -, hwritten⟩ :=
    wrapAfresh_eq_ok (wrapAfresh_of_on hreached h)
  obtain ⟨type, htype, hinvoke⟩ := exists_invoke_of_resolveAfresh hresolved
  rw [hwritten.isOverride_eq, isOverride_iff_of_resolveAfresh hresolved]
  refine ⟨⟨?_, ?_⟩, ?_⟩
  · rintro ⟨_, base, resolved, htype', hbase, hbaseResolved, hform⟩
    cases htype.symm.trans htype'
    obtain ⟨baseType, hbaseType, hbaseInvoke⟩ := exists_invoke_of_resolveAfresh hbaseResolved
    obtain ⟨left, hon⟩ := exists_on_empty_iff.mpr hbaseResolved
    exact ⟨type, delegate.signature, base, baseType, resolved.signature, resolved, left, htype,
      hinvoke, hbase, hbaseType, hbaseInvoke, hon, hform⟩
  · rintro ⟨_, _, base, _, _, resolved, left, htype', hinvoke', hbase, hbaseType', hbaseInvoke',
      hon, hform⟩
    cases htype.symm.trans htype'
    cases hinvoke.symm.trans hinvoke'
    have hbaseResolved := exists_on_empty_iff.mp ⟨left, hon⟩
    obtain ⟨baseType, hbaseType, hbaseInvoke⟩ := exists_invoke_of_resolveAfresh hbaseResolved
    cases hbaseType.symm.trans hbaseType'
    cases hbaseInvoke.symm.trans hbaseInvoke'
    exact ⟨type, base, resolved, htype, hbase, hbaseResolved, hform⟩
  · rintro ⟨_, base, resolved, htype', hbase, hbaseResolved, -⟩ _ _ baseType baseName symbols
      htype'' hbase' hbaseType hbaseName hsymbols hmatch
    cases htype'.symm.trans htype''
    cases hbase.symm.trans hbase'
    obtain ⟨baseWrapper, hbaseWrapper⟩ :=
      exists_wrapAfresh_of_resolved hbaseResolved hbaseType hbaseName hsymbols hmatch
    refine ⟨baseWrapper, fun earlier hearlier => ?_⟩
    have hcomes := comesTo_wrap types settings native base earlier hearlier
    rw [hbaseWrapper] at hcomes
    obtain ⟨later, -, hlater⟩ := hcomes
    exact ⟨later, hlater⟩

/-- Three delegates in a chain, the first of which is refused for how it passes its parameter. -/
def chained : Reflection :=
  let seen : Signature := {
    params := [{ name := "at", type := .int32, passing := .readOnly }]
    returnType := .void }
  let moved : Signature := { params := [{ name := "at", type := .int32 }], returnType := .void }
  { entries := [
      (⟨18⟩, .namedClass "System.MulticastDelegate"),
      (⟨0⟩, { name := "Void", fullName := some "System.Void", shape := .void }),
      (⟨7⟩, Primitive.int32.managedType),
      (⟨32⟩, .namedDelegate "App.Seen" seen),
      (⟨33⟩, { ManagedType.namedDelegate "App.Moved" moved with base := some ⟨32⟩ }),
      (⟨34⟩, { ManagedType.namedDelegate "App.Pushed" moved with base := some ⟨33⟩ })] }

/-- The last one overrides its base, which gets bindings although it overrides nothing itself. -/
theorem wrap_chained :
    ∃ (wrapper baseWrapper : Wrapper) (after later : Catalogue),
      (wrap chained {} (.conventional chained chained.keys) ⟨34⟩).on .empty =
        some (.ok wrapper, after) ∧
      wrapper.invoke.isOverride = true ∧
      (wrap chained {} (.conventional chained chained.keys) ⟨33⟩).on .empty =
        some (.ok baseWrapper, later) ∧
      baseWrapper.invoke.isOverride = false := by
  obtain ⟨delegate, left, hon⟩ := exists_ok_of_isOk (show ((resolve chained {} ⟨33⟩).on .empty).any
    (fun (outcome, _) => outcome.isOk) = true by decide +kernel)
  obtain ⟨wrapper, after, hrun⟩ := exists_ok_of_isOk
    (show ((wrap chained {} (.conventional chained chained.keys) ⟨34⟩).on .empty).any
      (fun (outcome, _) => outcome.isOk) = true by decide +kernel)
  have hbase : ((wrap chained {} (.conventional chained chained.keys) ⟨33⟩).on .empty).map
      (fun (outcome, _) => outcome.toOption.map (·.invoke.isOverride)) = some (some false) := by
    decide +kernel
  obtain ⟨hiff, hexists⟩ := wrap_isOverride_iff Catalogue.reached_empty hrun
  have hoverride : wrapper.invoke.isOverride = true :=
    hiff.mpr ⟨_, _, ⟨33⟩, _, _, delegate, left, rfl, rfl, rfl, rfl, rfl, hon,
      Signature.agrees_iff.mp (by decide)⟩
  obtain ⟨baseWrapper, hwrap⟩ := hexists hoverride _ ⟨33⟩ _ "App.Moved"
    (.conventional "App_Moved") rfl rfl rfl rfl (by decide +kernel) (by decide +kernel)
  obtain ⟨later, hlater⟩ := hwrap .empty Catalogue.reached_empty
  rw [hlater] at hbase
  exact ⟨wrapper, baseWrapper, after, later, hrun, hoverride, hlater,
    Option.some.inj (Option.some.inj hbase)⟩

end

end Interop
