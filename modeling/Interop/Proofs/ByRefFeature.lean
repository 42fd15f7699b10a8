/-
What the feature for `ref` parameters changes.

With the feature on, delegates with `ref` parameters get bindings, and what is
derived from one of them is then derived from a delegate that resolves.  Nothing
else is changed by it.  A delegate without such parameters is surveyed alike under
either setting, and what it comes to is decided by its survey, all but the signature
it knows of its base.  That signature may be there under one setting only, but then it
has a `ref` parameter, and so there is nothing in it to override.
-/
import Interop.Proofs.Overriding
import Interop.Proofs.TwoRuns
import Mathlib.Data.List.Find

namespace Interop

/-- The settings with the feature for `ref` parameters switched on or off. -/
def Settings.allowing (settings : Settings) (byRef : Bool) : Settings :=
  { settings with features := { settings.features with byRefParameters := byRef } }

/-- If the type at a key is a delegate, it has no `ref` parameters. -/
def Reflection.TakesNoRef (types : Reflection) (key : TypeKey) : Prop :=
  ∀ type signature, types.get? key = some type → type.shape = .delegate →
    type.invoke = some signature → ∀ param ∈ signature.params, param.passing ≠ .byRef

/-! ### Surveys -/

section

variable {types : Reflection} {settings : Settings} {key : TypeKey}

theorem supports_allowing {passing : Passing} (h : passing ≠ .byRef) (first second : Bool) :
    (settings.allowing first).supports passing = (settings.allowing second).supports passing := by
  cases passing with
  | byRef => exact absurd rfl h
  | byValue | readOnly | output => rfl

theorem supportedSignature_allowing {type : ManagedType}
    (h : ∀ signature, type.invoke = some signature →
      ∀ param ∈ signature.params, param.passing ≠ .byRef) (first second : Bool) :
    supportedSignature (settings.allowing first) type =
      supportedSignature (settings.allowing second) type := by
  cases hinvoke : type.invoke with
  | none =>
      unfold supportedSignature
      rw [hinvoke]
      rfl
  | some signature =>
      have hfind : (signature.params.find? fun param =>
            !(settings.allowing first).supports param.passing) =
          signature.params.find? fun param =>
            !(settings.allowing second).supports param.passing :=
        List.find?_congr fun param hparam => by
          rw [supports_allowing (h signature hinvoke param hparam) first second]
      have hchecked : checkPassing (settings.allowing first) signature.params =
          checkPassing (settings.allowing second) signature.params := by
        unfold checkPassing
        rw [hfind]
        rfl
      rw [supportedSignature_of_invoke _ hinvoke, supportedSignature_of_invoke _ hinvoke, hchecked]
      rfl

/-- A type without `ref` parameters is surveyed alike under either setting. -/
theorem survey_allowing (h : types.TakesNoRef key) (first second : Bool) :
    survey types (settings.allowing first) key = survey types (settings.allowing second) key := by
  refine survey_congr rfl ?_ rfl (fun _ _ _ _ => rfl) (fun _ _ _ _ _ _ => rfl) (fun _ _ => rfl)
  intro type fullName hnamed
  obtain ⟨htype, -, hshape⟩ := namedDelegateAt_eq_ok hnamed
  exact supportedSignature_allowing (fun signature => h type signature htype hshape) first second

/-- What is surveyed with the feature off has no `ref` parameters. -/
theorem takesNoRef_of_survey {found : Survey}
    (h : survey types (settings.allowing false) key = .ok found) : types.TakesNoRef key := by
  obtain ⟨_, hnamed, hsigned, -⟩ := survey_eq_ok h
  intro type signature htype _ hinvoke param hparam hpassing
  cases htype.symm.trans (namedDelegateAt_eq_ok hnamed).1
  cases hinvoke.symm.trans (invoke_of_supportedSignature hsigned)
  have hsupported := supports_of_checkPassing (supportedSignature_eq_ok hsigned).2.2 param hparam
  rw [hpassing] at hsupported
  cases hsupported

/-! ### What a survey decides -/

/-- Two outcomes of resolving differ at most in what is known of the base. -/
inductive SameButBase : Except Refusal ResolvedDelegate → Except Refusal ResolvedDelegate → Prop
  | refused (refusal : Refusal) : SameButBase (.error refusal) (.error refusal)
  | resolved (delegate : ResolvedDelegate) (baseSignature : Option Signature) :
      SameButBase (.ok delegate) (.ok { delegate with baseSignature })

variable (settings) in
theorem conclude_sameButBase (found : Survey) (key : TypeKey) (first second : Option Signature) :
    SameButBase (found.conclude settings key first) (found.conclude settings key second) := by
  -- The conversions that are checked are not those of the base.
  have hchecks : (found.delegate settings key second).checkConversions =
      (found.delegate settings key first).checkConversions := rfl
  unfold Survey.conclude
  dsimp only
  rw [hchecks]
  cases (found.delegate settings key first).checkConversions with
  | error error => exact .refused _
  | ok _ => exact .resolved (found.delegate settings key first) second

/-- **All but what is known of the base is decided by the survey.** -/
theorem sameButBase_of_survey {first second : Bool} {links links' : Nat}
    {outcome outcome' : Except Refusal ResolvedDelegate}
    (hsurvey : survey types (settings.allowing first) key =
      survey types (settings.allowing second) key)
    (h : resolveAfresh types (settings.allowing first) links key = some outcome)
    (h' : resolveAfresh types (settings.allowing second) links' key = some outcome') :
    SameButBase outcome outcome' := by
  obtain ⟨refusal, hfound, rfl⟩ | ⟨found, known, hfound, rfl⟩ := resolveAfresh_eq_some h
  · obtain ⟨refusal', hfound', rfl⟩ | ⟨found', known', hfound', rfl⟩ := resolveAfresh_eq_some h'
    · cases hfound.symm.trans (hsurvey.trans hfound')
      exact .refused refusal
    · cases hfound.symm.trans (hsurvey.trans hfound')
  · obtain ⟨refusal', hfound', rfl⟩ | ⟨found', known', hfound', rfl⟩ := resolveAfresh_eq_some h'
    · cases hfound.symm.trans (hsurvey.trans hfound')
    · cases hfound.symm.trans (hsurvey.trans hfound')
      exact conclude_sameButBase (settings.allowing first) found key known known'

/-! ### Overriding -/

/-- A base that has the form of a signature without `ref` parameters resolves under either
setting. -/
theorem exists_base_allowing {signature : Signature} (first second : Bool)
    (hparams : ∀ param ∈ signature.params, param.passing ≠ .byRef)
    (hends : ∀ base, types.IsBase base key → ResolveEnds types (settings.allowing second) base)
    (h : ∃ type base resolved, types.get? key = some type ∧ type.base = some base ∧
      resolveAfresh types (settings.allowing first) (types.keys.length + 1) base =
        some (.ok resolved) ∧ resolved.signature.SameForm signature) :
    ∃ type base resolved, types.get? key = some type ∧ type.base = some base ∧
      resolveAfresh types (settings.allowing second) (types.keys.length + 1) base =
        some (.ok resolved) ∧ resolved.signature.SameForm signature := by
  obtain ⟨type, base, resolved, htype, hbase, hresolved, hform⟩ := h
  obtain ⟨baseType, hbaseType, hinvoke⟩ := exists_invoke_of_resolveAfresh hresolved
  have hnoRef : types.TakesNoRef base := by
    intro other signature' hother _ hinvoke' param hparam hpassing
    cases hbaseType.symm.trans hother
    cases hinvoke.symm.trans hinvoke'
    obtain ⟨own, hown, -, hsame⟩ := exists_of_forall₂ hform.params hparam
    exact hparams own hown (hsame.symm.trans hpassing)
  obtain ⟨outcome, houtcome⟩ := (hends base ⟨type, htype, hbase⟩).exists_outcome
  cases sameButBase_of_survey (survey_allowing hnoRef first second) hresolved houtcome with
  | resolved _ baseSignature => exact ⟨type, base, _, htype, hbase, houtcome, hform⟩

theorem Reflection.TakesNoRef.signature {links : Nat} {delegate : ResolvedDelegate}
    (h : types.TakesNoRef key)
    (hresolved : resolveAfresh types settings links key = some (.ok delegate)) :
    ∀ param ∈ delegate.signature.params, param.passing ≠ .byRef := by
  cases links with
  | zero => cases hresolved
  | succ links =>
      obtain ⟨found, _, hsurvey, rfl, -⟩ := resolveAfresh_succ_eq_ok hresolved
      obtain ⟨_, hnamed, hsigned, -⟩ := survey_eq_ok hsurvey
      obtain ⟨htype, -, hshape⟩ := namedDelegateAt_eq_ok hnamed
      exact h found.type found.signature htype hshape (invoke_of_supportedSignature hsigned)

/-- A delegate without `ref` parameters overrides its base under both settings or under neither. -/
theorem isOverride_allowing {first second : Bool} {delegate delegate' : ResolvedDelegate}
    (hnoRef : types.TakesNoRef key)
    (hends : ∀ byRef base, types.IsBase base key →
      ResolveEnds types (settings.allowing byRef) base)
    (h : resolveAfresh types (settings.allowing first) (types.keys.length + 1) key =
      some (.ok delegate))
    (h' : resolveAfresh types (settings.allowing second) (types.keys.length + 1) key =
      some (.ok delegate'))
    (hsame : delegate.signature = delegate'.signature) :
    delegate'.isOverride = delegate.isOverride := by
  have hparams := hnoRef.signature h'
  rw [Bool.eq_iff_iff, isOverride_iff_of_resolveAfresh h, isOverride_iff_of_resolveAfresh h', hsame]
  exact ⟨exists_base_allowing second first hparams (hends first),
    exists_base_allowing first second hparams (hends second)⟩

/-! ### Bindings -/

/-- Of what is known of the base, bindings show only whether `invoke` overrides. -/
theorem Wrapper.conclude_of_isOverride_eq {delegate : ResolvedDelegate}
    {baseSignature : Option Signature}
    (h : { delegate with baseSignature : ResolvedDelegate }.isOverride = delegate.isOverride)
    (symbols : NativeSymbols) :
    Wrapper.conclude { delegate with baseSignature } symbols =
      Wrapper.conclude delegate symbols := by
  have hcallable : Callback.creator { delegate with baseSignature } symbols =
      Callback.creator delegate symbols := rfl
  have hinvoke : Invocation.ofDelegate { delegate with baseSignature } symbols =
      Invocation.ofDelegate delegate symbols := by
    unfold Invocation.ofDelegate Invocation.declaration
    dsimp only
    rw [h]
    rfl
  unfold Wrapper.conclude Wrapper.ofDelegate
  dsimp only
  rw [hcallable, hinvoke]
  rfl

variable (settings) in
/-- Along finite chains of bases, a type without `ref` parameters gets the same bindings, or is
refused for the same reason, under either setting. -/
theorem wrapAfresh_allowing (first second : Bool) (native : NativeLayer)
    (hnoRef : types.TakesNoRef key) (hchain : Acc types.IsBase key) :
    wrapAfresh types (settings.allowing first) native key =
      wrapAfresh types (settings.allowing second) native key := by
  have hends (byRef : Bool) : ResolveEnds types (settings.allowing byRef) key :=
    .of_acc _ hchain
  have hbase (byRef : Bool) (base : TypeKey) (hbase : types.IsBase base key) :
      ResolveEnds types (settings.allowing byRef) base := .of_acc _ (hchain.inv hbase)
  obtain ⟨outcome, houtcome⟩ := (hends first).exists_outcome
  obtain ⟨outcome', houtcome'⟩ := (hends second).exists_outcome
  unfold wrapAfresh
  rw [houtcome, houtcome']
  cases sameButBase_of_survey (survey_allowing hnoRef first second) houtcome houtcome' with
  | refused refusal => rfl
  | resolved delegate baseSignature =>
      have hoverride := isOverride_allowing hnoRef hbase houtcome houtcome' rfl
      simp only [Option.map_some, Wrapper.conclude_of_isOverride_eq hoverride]

/-- What gets bindings with the feature off has no `ref` parameters. -/
theorem takesNoRef_of_wrapAfresh {native : NativeLayer} {wrapper : Wrapper}
    (h : wrapAfresh types (settings.allowing false) native key = some (.ok wrapper)) :
    types.TakesNoRef key := by
  obtain ⟨_, _, _, _, -, -, hresolved, -⟩ := wrapAfresh_eq_ok h
  obtain ⟨_, _, hsurvey, -⟩ := resolveAfresh_succ_eq_ok hresolved
  exact takesNoRef_of_survey hsurvey

end

namespace Batch

/-- The batch with the feature for `ref` parameters switched on or off. -/
def allowing (batch : Batch) (byRef : Bool) : Batch :=
  { batch with settings := batch.settings.allowing byRef }

/-- Where chains of bases are finite, every key has a trial of its own, and a batch is the trials
of its keys. -/
theorem exists_trial_of_finite (batch : Batch) (hfinite : WellFounded batch.types.IsBase) :
    ∃ trial : TypeKey → Trial,
      (∀ key, batch.trialAfresh key = some (trial key)) ∧
      ∀ keys catalogue, catalogue.Reached batch.types batch.settings.unspecified →
        ∃ after, (batch.generate keys).run catalogue =
          some (.ofTrials (keys.map trial), after) := by
  have hexists : ∀ key, ∃ trial, batch.trialAfresh key = some trial := by
    intro key
    have hends : ResolveEnds batch.types batch.settings key := .of_acc _ (hfinite.apply key)
    obtain ⟨outcome, houtcome⟩ := hends.exists_wrapAfresh batch.native
    exact ⟨⟨key, batch.types.nameOf key, outcome⟩, by rw [trialAfresh, houtcome]; rfl⟩
  choose trial htrial using hexists
  refine ⟨trial, htrial, fun keys catalogue hreached => ?_⟩
  have htrials : keys.mapM batch.trialAfresh = some (keys.map trial) :=
    mapM_eq_some_iff.mpr
      (List.forall₂_map_right_iff.mpr (List.forall₂_same.mpr fun key _ => htrial key))
  have hanswers := batch.answers_generate keys catalogue hreached
  rw [htrials] at hanswers
  obtain ⟨after, -, hrun⟩ := hanswers
  exact ⟨after, hrun⟩

/--
**The feature for `ref` parameters changes nothing else.**  Where chains of bases are
finite, any keys have an answer with the feature on and with it off, after any
requests, and the answer is made from one trial for each key.  A type that is no
delegate or has no `ref` parameters has the same trial either way, and so has every
type that gets bindings with the feature off.
-/
theorem generate_allowing (batch : Batch) (hfinite : WellFounded batch.types.IsBase) :
    ∃ on off : TypeKey → Trial,
      (∀ keys catalogue, catalogue.Reached batch.types batch.settings.unspecified →
        ∃ after, ((batch.allowing true).generate keys).run catalogue =
          some (.ofTrials (keys.map on), after)) ∧
      (∀ keys catalogue, catalogue.Reached batch.types batch.settings.unspecified →
        ∃ after, ((batch.allowing false).generate keys).run catalogue =
          some (.ofTrials (keys.map off), after)) ∧
      (∀ key, batch.types.TakesNoRef key → on key = off key) ∧
      ∀ key wrapper, (off key).outcome = .ok wrapper → on key = off key := by
  obtain ⟨on, hon, hrunOn⟩ := (batch.allowing true).exists_trial_of_finite hfinite
  obtain ⟨off, hoff, hrunOff⟩ := (batch.allowing false).exists_trial_of_finite hfinite
  have hsame : ∀ key, batch.types.TakesNoRef key → on key = off key := by
    intro key hnoRef
    have hwrap := wrapAfresh_allowing batch.settings true false batch.native hnoRef
      (hfinite.apply key)
    have htrial : (batch.allowing true).trialAfresh key = (batch.allowing false).trialAfresh key :=
      congrArg (Option.map _) hwrap
    rw [hon, hoff] at htrial
    exact Option.some.inj htrial
  refine ⟨on, off, hrunOn, hrunOff, hsame, fun key wrapper hwrapper => hsame key ?_⟩
  obtain ⟨outcome, houtcome, htrial⟩ := Option.map_eq_some_iff.mp (hoff key)
  rw [← htrial] at hwrapper
  cases hwrapper
  exact takesNoRef_of_wrapAfresh houtcome

/-- Two delegates, each derived from the one before: the first takes its parameter by reference,
and the second takes none. -/
def swapping : Batch where
  types :=
    let swap : Signature := {
      params := [{ name := "at", type := .int32, passing := .byRef }]
      returnType := .void }
    let reset : Signature := { params := [], returnType := .void }
    { entries := [
        (.void, { name := "Void", fullName := some "System.Void", shape := .void }),
        (.int32, Primitive.int32.managedType),
        (⟨32⟩, { ManagedType.namedDelegate "App.Swap" swap with base := none }),
        (⟨33⟩, { ManagedType.namedDelegate "App.Reset" reset with base := some ⟨32⟩ })] }
  native := ⟨[(⟨32⟩, .conventional "App_Swap"), (⟨33⟩, .conventional "App_Reset")]⟩

/-- The second one gets the same bindings either way, and the first one only with the feature. -/
theorem generate_swapping :
    ∃ harvest harvest' after after',
      ((swapping.allowing true).generate [⟨33⟩, ⟨32⟩]).run .empty = some (harvest, after) ∧
      ((swapping.allowing false).generate [⟨33⟩, ⟨32⟩]).run .empty = some (harvest', after') ∧
      harvest.artifacts[0]? = harvest'.artifacts[0]? ∧
      harvest.wrappers.length = 2 ∧ harvest'.wrappers.length = 1 := by
  have hfinite : WellFounded swapping.types.IsBase := by
    have hless : ∀ entry ∈ swapping.types.entries, ∀ base ∈ entry.2.base,
        base.raw.toNat < entry.1.raw.toNat := by decide
    refine Subrelation.wf ?_ (measure fun key : TypeKey => key.raw.toNat).wf
    rintro base key ⟨type, htype, hbase⟩
    exact hless (key, type) (Reflection.mem_entries_of_get? htype) base hbase
  have hnoRef : swapping.types.TakesNoRef ⟨33⟩ := by
    intro type signature htype _ hinvoke param hparam
    cases htype
    cases hinvoke
    cases hparam
  obtain ⟨on, off, hon, hoff, hsame, -⟩ := generate_allowing swapping hfinite
  obtain ⟨after, hrun⟩ := hon [⟨33⟩, ⟨32⟩] .empty Catalogue.reached_empty
  obtain ⟨after', hrun'⟩ := hoff [⟨33⟩, ⟨32⟩] .empty Catalogue.reached_empty
  have hcount : (((swapping.allowing true).generate [⟨33⟩, ⟨32⟩]).run .empty).map
      (·.1.wrappers.length) = some 2 := by decide +kernel
  have hcount' : (((swapping.allowing false).generate [⟨33⟩, ⟨32⟩]).run .empty).map
      (·.1.wrappers.length) = some 1 := by decide +kernel
  rw [hrun] at hcount
  rw [hrun'] at hcount'
  refine ⟨_, _, after, after', hrun, hrun', ?_, Option.some.inj hcount, Option.some.inj hcount'⟩
  simp [Harvest.ofTrials, hsame ⟨33⟩ hnoRef]

end Batch

end Interop
