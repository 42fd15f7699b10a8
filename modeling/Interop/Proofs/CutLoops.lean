/-
Loops of bases that are cut.

Bases may lead back to where they came from, and nothing remembers which keys were
passed.  But a delegate is looked at before its base is resolved, and if it is refused
then, its base is not resolved at all.  So one such type on a loop of bases is enough to
end the chains that run into this loop, and where there is one on every loop, resolving
always comes to an end.  Where a loop has none, resolving goes round it for ever.

A chain that ends passes no key twice, so it needs no more links than there are keys on
the chain of bases.  With more links it comes to the same, on the catalogue as well.
-/
import Interop.Proofs.Describable
import Interop.Proofs.Links
import Interop.Proofs.Requirements
import Mathlib.Data.List.Dedup

namespace Interop

open Relation

/-! ### More links -/

namespace Resolving

variable {α β : Type}

/-- Where the one has a result, the other has the same. -/
def Below (work more : Resolving α) : Prop :=
  ∀ catalogue result, work.on catalogue = some result → more.on catalogue = some result

namespace Below

theorem refl (work : Resolving α) : Below work work := fun _ _ h => h

theorem noAnswer (more : Resolving α) : Below noAnswer more := by
  intro catalogue result hon
  rw [on_noAnswer] at hon
  cases hon

theorem bind {work more : Resolving α} {next following : α → Resolving β} (h : Below work more)
    (hnext : ∀ value, Below (next value) (following value)) :
    Below (work >>= next) (more >>= following) := by
  intro catalogue result hon
  rw [on_bind] at hon ⊢
  cases hwork : work.on catalogue with
  | none =>
      rw [hwork] at hon
      cases hon
  | some found =>
      rw [hwork] at hon
      rw [h catalogue found hwork]
      obtain ⟨refusal | value, after⟩ := found
      · exact hon
      · exact hnext value after result hon

theorem attempt {work more : Resolving α} (h : Below work more) :
    Below (attempt work) (attempt more) := by
  intro catalogue result hon
  rw [on_attempt] at hon ⊢
  obtain ⟨found, hwork, rfl⟩ := Option.map_eq_some_iff.mp hon
  rw [h catalogue found hwork]
  rfl

end Below

end Resolving

section

variable {types : Reflection} {settings : Settings} {key other base : TypeKey}

theorem below_resolvingBase {resolve resolve' : TypeKey → Resolving ResolvedDelegate}
    (h : ∀ key, (resolve key).Below (resolve' key)) (base : Option TypeKey) :
    (resolvingBase resolve base).Below (resolvingBase resolve' base) := by
  cases base with
  | none => exact .refl _
  | some base => exact (h base).attempt.bind fun _ => .refl _

variable (types settings) in
theorem below_resolveWithin_succ (links : Nat) :
    ∀ key, (resolveWithin types settings links key).Below
      (resolveWithin types settings (links + 1) key) := by
  induction links with
  | zero => exact fun key => .noAnswer _
  | succ links ih =>
      intro key
      rw [resolveWithin_succ, resolveWithin_succ types settings (links + 1)]
      exact (Resolving.Below.refl _).bind fun found =>
        (below_resolvingBase ih found.type.base).bind fun _ => .refl _

/-- **What there is to resolve along some links** is the same along more of them. -/
theorem on_resolveWithin_mono {catalogue : Catalogue} {links more : Nat}
    {result : Except Refusal ResolvedDelegate × Catalogue} (hmore : links ≤ more)
    (h : (resolveWithin types settings links key).on catalogue = some result) :
    (resolveWithin types settings more key).on catalogue = some result := by
  induction hmore with
  | refl => exact h
  | step _ ih => exact below_resolveWithin_succ types settings _ key catalogue result ih

/-! ### What is refused before its base is resolved -/

variable (types settings) in
/-- What is found out about a type before its base is resolved, and refuses it. -/
inductive StopsBeforeBase (key : TypeKey) : Prop
  | unknown (h : types.get? key = none)
  | nameless {type : ManagedType} (htype : types.get? key = some type) (h : type.fullName = none)
  | noDelegate {type : ManagedType} (htype : types.get? key = some type)
    (h : type.shape ≠ .delegate)
  | unsigned {type : ManagedType} (htype : types.get? key = some type) (h : type.invoke = none)
  | returning {type : ManagedType} {signature : Signature} (htype : types.get? key = some type)
    (hinvoke : type.invoke = some signature) (h : signature.returnsByRef = true)
  | passing {type : ManagedType} {signature : Signature} {param : Param}
    (htype : types.get? key = some type) (hinvoke : type.invoke = some signature)
    (hparam : param ∈ signature.params)
    (h : ¬(param.passing = .byValue ∨
      param.passing = .byRef ∧ settings.features.byRefParameters = true))
  /-- The type of the result, of a parameter or of the base. -/
  | undescribable {type : ManagedType} {signature : Signature} {part : TypeKey}
    (htype : types.get? key = some type) (hinvoke : type.invoke = some signature)
    (hpart : part ∈ mentioned type signature) (h : ¬types.Describable part)

theorem namedDelegateAt_of_named {type : ManagedType} {fullName : String}
    (htype : types.get? key = some type) (hname : type.fullName = some fullName)
    (hshape : type.shape = .delegate) : namedDelegateAt types key = .ok (type, fullName) := by
  simp [namedDelegateAt, htype, hname, hshape, Shape.isDelegate]

theorem checkPassing_eq_ok_iff {params : List Param} :
    checkPassing settings params = .ok () ↔ ∀ param ∈ params, param.passing = .byValue ∨
      param.passing = .byRef ∧ settings.features.byRefParameters = true := by
  have hnone : checkPassing settings params = .ok () ↔
      error? (checkPassing settings params) = none := by
    cases checkPassing settings params <;> simp
  rw [hnone, error?_checkPassing, Option.map_eq_none_iff, List.find?_eq_none]
  simp only [decide_eq_true_eq, not_not]

/-- Once its signature is supported, only the types that it mentions can stop a survey. -/
theorem error?_survey_of_supported {type : ManagedType} {fullName : String} {signature : Signature}
    (hnamed : namedDelegateAt types key = .ok (type, fullName))
    (hsigned : supportedSignature settings type = .ok signature) :
    error? (survey types settings key) =
      (firstError? ((mentioned type signature).map
        (describeAfresh types settings.unspecified))).map .ofDescription := by
  have htype := (namedDelegateAt_eq_ok hnamed).1
  have hrequired : [Requirement.signed, .returning, .passing, .describable] =
      [.signed, .returning, .passing] ++ [.describable] := rfl
  rw [error?_survey settings .empty hnamed, hrequired, List.findSome?_append,
    ← error?_supportedSignature settings .empty htype, hsigned, error?_ok, Option.none_or,
    List.findSome?_singleton,
    objection_describable settings .empty htype (invoke_of_supportedSignature hsigned)]

/-- What can be surveyed is a delegate with a supported signature of types that can be
described. -/
theorem exists_survey_iff :
    (∃ found, survey types settings key = .ok found) ↔
      ∃ type fullName signature, types.get? key = some type ∧ type.fullName = some fullName ∧
        type.shape = .delegate ∧ type.invoke = some signature ∧ signature.returnsByRef = false ∧
        (∀ param ∈ signature.params, param.passing = .byValue ∨
          param.passing = .byRef ∧ settings.features.byRefParameters = true) ∧
        ∀ part ∈ mentioned type signature, types.Describable part := by
  constructor
  · rintro ⟨found, hsurvey⟩
    obtain ⟨fullName, hnamed, hsigned, -⟩ := survey_eq_ok hsurvey
    obtain ⟨htype, hname, hshape⟩ := namedDelegateAt_eq_ok hnamed
    obtain ⟨hinvoke, hreturns, hpassing⟩ := supportedSignature_eq_ok hsigned
    have hnone := error?_survey_of_supported hnamed hsigned
    rw [hsurvey, error?_ok, eq_comm, Option.map_eq_none_iff, firstError?_map_eq_none_iff] at hnone
    exact ⟨_, fullName, _, htype, hname, hshape, hinvoke, hreturns,
      checkPassing_eq_ok_iff.mp hpassing,
      fun part hpart => exists_describeAfresh_iff.mp (hnone part hpart)⟩
  · rintro ⟨type, fullName, signature, htype, hname, hshape, hinvoke, hreturns, hpassing, hparts⟩
    have hnamed := namedDelegateAt_of_named htype hname hshape
    have hsigned : supportedSignature settings type = .ok signature := by
      rw [supportedSignature_of_invoke settings hinvoke, hreturns,
        checkPassing_eq_ok_iff.mpr hpassing]
      rfl
    rw [← error?_eq_none_iff, error?_survey_of_supported hnamed hsigned, Option.map_eq_none_iff,
      firstError?_map_eq_none_iff]
    exact fun part hpart => exists_describeAfresh_iff.mpr (hparts part hpart)

/-- **These are the reasons for which a survey fails.** -/
theorem stopsBeforeBase_iff :
    StopsBeforeBase types settings key ↔ ¬∃ found, survey types settings key = .ok found := by
  rw [exists_survey_iff]
  constructor
  · rintro hstops ⟨type, fullName, signature, htype, hname, hshape, hinvoke, hreturns, hpassing,
      hparts⟩
    cases hstops with
    | unknown h => cases htype.symm.trans h
    | nameless hfound h =>
        cases htype.symm.trans hfound
        cases hname.symm.trans h
    | noDelegate hfound h =>
        cases htype.symm.trans hfound
        exact h hshape
    | unsigned hfound h =>
        cases htype.symm.trans hfound
        cases hinvoke.symm.trans h
    | returning hfound hsigned h =>
        cases htype.symm.trans hfound
        cases hinvoke.symm.trans hsigned
        cases hreturns.symm.trans h
    | passing hfound hsigned hparam h =>
        cases htype.symm.trans hfound
        cases hinvoke.symm.trans hsigned
        exact h (hpassing _ hparam)
    | undescribable hfound hsigned hpart h =>
        cases htype.symm.trans hfound
        cases hinvoke.symm.trans hsigned
        exact h (hparts _ hpart)
  · intro hfails
    by_contra hgoes
    cases htype : types.get? key with
    | none => exact hgoes (.unknown htype)
    | some type =>
        cases hname : type.fullName with
        | none => exact hgoes (.nameless htype hname)
        | some fullName =>
            cases hinvoke : type.invoke with
            | none => exact hgoes (.unsigned htype hinvoke)
            | some signature =>
                refine hfails ⟨type, fullName, signature, htype, hname, ?_, hinvoke, ?_, ?_, ?_⟩
                · exact by_contra fun h => hgoes (.noDelegate htype h)
                · exact eq_false_of_ne_true fun h => hgoes (.returning htype hinvoke h)
                · exact fun param hparam =>
                    by_contra fun h => hgoes (.passing htype hinvoke hparam h)
                · exact fun part hpart =>
                    by_contra fun h => hgoes (.undescribable htype hinvoke hpart h)

/-! ### Bases -/

namespace Reflection

variable (types) in
/-- From base to base, one comes from a key to another one, and from there back. -/
def OnLoop (key other : TypeKey) : Prop :=
  TransGen types.IsBase other key ∧ TransGen types.IsBase key other

/-- A type has one base. -/
theorem IsBase.unique (h : types.IsBase base key) (h' : types.IsBase other key) :
    base = other := by
  obtain ⟨type, htype, hbase⟩ := h
  obtain ⟨type', htype', hbase'⟩ := h'
  cases htype.symm.trans htype'
  exact Option.some.inj (hbase.symm.trans hbase')

/-- All bases there are. -/
def bases (types : Reflection) : List TypeKey := types.entries.filterMap (·.2.base)

theorem IsBase.mem_bases (h : types.IsBase base key) : base ∈ types.bases := by
  obtain ⟨type, htype, hbase⟩ := h
  exact List.mem_filterMap.mpr ⟨_, mem_entries_of_get? htype, hbase⟩

variable (types key) in
/-- There are finitely many keys on a chain. -/
theorem exists_chain :
    ∃ chain : List TypeKey, chain.Nodup ∧ ∀ other, other ∈ chain ↔ types.OnChain key other := by
  classical
  refine ⟨(key :: types.bases).dedup.filter (types.OnChain key), (List.nodup_dedup _).filter _,
    fun other => ?_⟩
  rw [List.mem_filter, List.mem_dedup, decide_eq_true_eq, and_iff_right_iff_imp]
  intro hchain
  rcases ReflTransGen.cases_head hchain with rfl | ⟨derived, hbase, -⟩
  · exact List.mem_cons_self
  · exact List.mem_cons_of_mem _ hbase.mem_bases

end Reflection

open Reflection

/-- No base is resolved of what stops before. -/
theorem StopsBeforeBase.baseToResolve_eq_none (h : StopsBeforeBase types settings key) :
    baseToResolve types settings key = none := by
  unfold baseToResolve
  cases hsurvey : survey types settings key with
  | error refusal => rfl
  | ok found => exact absurd ⟨found, hsurvey⟩ (stopsBeforeBase_iff.mp h)

/-- The base of anything else is resolved. -/
theorem baseToResolve_eq_some (h : ¬StopsBeforeBase types settings key)
    (hbase : types.IsBase base key) : baseToResolve types settings key = some base := by
  rw [stopsBeforeBase_iff, not_not] at h
  obtain ⟨found, hsurvey⟩ := h
  obtain ⟨fullName, hnamed, -⟩ := survey_eq_ok hsurvey
  obtain ⟨type, htype, hown⟩ := hbase
  cases htype.symm.trans (namedDelegateAt_eq_ok hnamed).1
  rw [baseToResolve, hsurvey]
  exact hown

/-! ### Loops -/

variable (types settings) in
/-- Resolving the one key goes on to the other, its base. -/
def IsResolvedBase (base key : TypeKey) : Prop := baseToResolve types settings key = some base

variable (types settings) in
/-- On every loop of bases there is a type that stops before its base is resolved. -/
def LoopsCut : Prop :=
  ∀ key, types.OnLoop key key →
    ∃ other, types.OnLoop key other ∧ StopsBeforeBase types settings other

/-- Resolving that goes round goes on from every key of its chain. -/
theorem transGen_isResolvedBase (h : TransGen (IsResolvedBase types settings) key key)
    (hchain : types.OnChain key other) : TransGen (IsResolvedBase types settings) other other := by
  induction hchain using ReflTransGen.head_induction_on with
  | refl => exact h
  | @head next derived hbase _ ih =>
      obtain ⟨resolved, haround, hlast⟩ := TransGen.tail'_iff.mp ih
      obtain rfl : resolved = next := (isBase_of_baseToResolve hlast).unique hbase
      exact .head' hlast haround

/-- So no loop that is cut is gone round. -/
theorem LoopsCut.not_transGen (h : LoopsCut types settings) (key : TypeKey) :
    ¬TransGen (IsResolvedBase types settings) key key := by
  intro haround
  have hloop : TransGen types.IsBase key key :=
    TransGen.mono (fun _ _ => isBase_of_baseToResolve) key key haround
  obtain ⟨other, ⟨hchain, -⟩, hstops⟩ := h key ⟨hloop, hloop⟩
  obtain ⟨base, -, hlast⟩ :=
    TransGen.tail'_iff.mp (transGen_isResolvedBase haround hchain.to_reflTransGen)
  cases hstops.baseToResolve_eq_none.symm.trans hlast

/-- Resolving that does not end goes on to a base, and there it does not end either. -/
theorem exists_isResolvedBase (h : ¬ResolveEnds types settings key) :
    ∃ base, IsResolvedBase types settings base key ∧ ¬ResolveEnds types settings base := by
  rw [resolveEnds_iff_isSome] at h
  cases hbase : baseToResolve types settings key with
  | none => exact absurd ⟨1, isSome_resolveAfresh_succ_of_none 0 hbase⟩ h
  | some base =>
      refine ⟨base, hbase, fun hends => h ?_⟩
      obtain ⟨links, hlinks⟩ := resolveEnds_iff_isSome.mp hends
      exact ⟨links + 1, (isSome_resolveAfresh_succ_of_some links hbase).trans hlinks⟩

/-- It goes round, for there are only so many keys to go on to. -/
theorem exists_transGen_of_not_resolveEnds (path : List TypeKey) (key : TypeKey)
    (h : ¬ResolveEnds types settings key)
    (hpath : ∀ passed ∈ path, TransGen (IsResolvedBase types settings) key passed) :
    ∃ other, TransGen (IsResolvedBase types settings) other other := by
  by_cases hmet : key ∈ path
  · exact ⟨key, hpath key hmet⟩
  obtain ⟨base, hbase, hgoes⟩ := exists_isResolvedBase h
  have hknown : key ∈ types.keys := by
    obtain ⟨type, htype, -⟩ := isBase_of_baseToResolve hbase
    exact mem_keys_of_get? htype
  refine exists_transGen_of_not_resolveEnds (key :: path) base hgoes fun passed hpassed => ?_
  rcases List.mem_cons.mp hpassed with rfl | hearlier
  · exact .single hbase
  · exact .head hbase (hpath passed hearlier)
termination_by types.offPath path
decreasing_by exact offPath_cons_lt hknown hmet

theorem LoopsCut.resolveEnds (h : LoopsCut types settings) (key : TypeKey) :
    ResolveEnds types settings key := by
  by_contra hgoes
  obtain ⟨other, haround⟩ := exists_transGen_of_not_resolveEnds [] key hgoes nofun
  exact h.not_transGen other haround

/-- Round a loop that nothing cuts there is no answer along any number of links. -/
theorem resolveAfresh_eq_none_of_uncut
    (h : ∀ other, types.OnLoop key other → ¬StopsBeforeBase types settings other) (links : Nat) :
    ∀ other, types.OnLoop key other → resolveAfresh types settings links other = none := by
  induction links with
  | zero => exact fun other _ => rfl
  | succ links ih =>
      rintro other ⟨hback, hthere⟩
      obtain ⟨base, hchain, hbase⟩ := TransGen.tail'_iff.mp hthere
      have hloop : types.OnLoop key base :=
        ⟨.head hbase hback, (hthere.trans hback).trans_left hchain⟩
      have hresolved := baseToResolve_eq_some (h other ⟨hback, hthere⟩) hbase
      exact (resolveAfresh_succ_eq_none_iff hresolved).mpr (ih base hloop)

/-- **Resolving ends everywhere exactly if every loop is cut.** -/
theorem loopsCut_iff : LoopsCut types settings ↔ ∀ key, ResolveEnds types settings key := by
  refine ⟨LoopsCut.resolveEnds, fun hends key hloop => ?_⟩
  by_contra huncut
  have hnone := resolveAfresh_eq_none_of_uncut fun other hother hstops =>
    huncut ⟨other, hother, hstops⟩
  obtain ⟨links, hlinks⟩ := resolveEnds_iff_isSome.mp (hends key)
  rw [hnone links key hloop] at hlinks
  cases hlinks

/-! ### Enough links for a chain -/

/-- As many links as there are keys on the chain are enough. -/
theorem ResolveEnds.exists_resolveAfresh (h : ResolveEnds types settings key)
    {chain : List TypeKey} (hchain : ∀ other, types.OnChain key other → other ∈ chain) :
    ∃ outcome, resolveAfresh types settings chain.length key = some outcome := by
  obtain ⟨passed, outcome, hnodup, -, hpassed, houtcome⟩ := h.exists_passed
  have hsubset : passed ⊆ chain := fun other hother => hchain other (hpassed other hother)
  have hbound := (hnodup.subperm hsubset).length_le
  exact ⟨outcome, resolveAfresh_mono hbound houtcome⟩

variable (types settings) in
/--
**Resolving ends exactly if every loop of bases is cut.**  Whatever was requested before, if
on every loop of bases there is a type that is refused before its base is resolved, there is
an answer for every key.  It takes no more links than there are keys on its chain of bases,
and with any larger number of links it is the same, and so is the catalogue after it.  Where
some loop has no such type, this is not so.
-/
theorem loopsCut_iff_resolves {catalogue : Catalogue}
    (hreached : catalogue.Reached types settings.unspecified) :
    LoopsCut types settings ↔
      ∀ key, ∃ (chain : List TypeKey) (outcome : Except Refusal ResolvedDelegate)
        (after : Catalogue),
        chain.Nodup ∧ (∀ other, other ∈ chain ↔ types.OnChain key other) ∧
        after.Reached types settings.unspecified ∧
        (∀ links, chain.length ≤ links →
          (resolveWithin types settings links key).on catalogue = some (outcome, after)) ∧
        (resolve types settings key).on catalogue = some (outcome, after) := by
  constructor
  · intro hcut key
    have hends := hcut.resolveEnds key
    obtain ⟨chain, hnodup, hchain⟩ := types.exists_chain key
    obtain ⟨outcome, houtcome⟩ :=
      hends.exists_resolveAfresh fun other => (hchain other).mpr
    obtain ⟨after, hafter, hon⟩ :=
      houtcome ▸ comesTo_resolveWithin types settings chain.length key catalogue hreached
    refine ⟨chain, outcome, after, hnodup, hchain, hafter,
      fun links hlinks => on_resolveWithin_mono hlinks hon, ?_⟩
    obtain ⟨found, hfound⟩ := hends.exists_outcome
    obtain ⟨later, -, hresolve⟩ :=
      hfound ▸ comesTo_resolveWithin types settings (types.keys.length + 1) key catalogue hreached
    -- Both are what it comes to along the larger of the two numbers.
    have hmore := on_resolveWithin_mono (Nat.le_max_left chain.length (types.keys.length + 1)) hon
    have hmore' :=
      on_resolveWithin_mono (Nat.le_max_right chain.length (types.keys.length + 1)) hresolve
    rw [resolve, hresolve, ← hmore', hmore]
  · intro hresolves
    refine loopsCut_iff.mpr fun key => (resolveEnds_iff hreached).mpr ?_
    obtain ⟨chain, outcome, after, -, -, -, hlinks, -⟩ := hresolves key
    exact ⟨chain.length, by rw [hlinks _ Nat.le.refl]; rfl⟩

end

/-- A ring of two delegates and one that is derived from it.  One of the ring takes a parameter that
it only reads. -/
def cutRing : Reflection where
  entries :=
    let plain : Signature := { params := [], returnType := .void }
    let reading : Signature := {
      params := [{ name := "at", type := .int32, passing := .readOnly }]
      returnType := .void }
    [(.void, { name := "Void", fullName := some "System.Void", shape := .void }),
      (.int32, Primitive.int32.managedType),
      (⟨40⟩, { ManagedType.namedDelegate "App.Ring" plain with base := some ⟨41⟩ }),
      (⟨41⟩, { ManagedType.namedDelegate "App.Cut" reading with base := some ⟨40⟩ }),
      (⟨42⟩, { ManagedType.namedDelegate "App.Tail" plain with base := some ⟨40⟩ })]

/-- The ring is cut, and what is derived from it resolves and overrides. -/
theorem loopsCut_iff_resolves_cutRing :
    let catalogue := Catalogue.afterRequests cutRing .nonNull [⟨41⟩, ⟨99⟩]
    LoopsCut cutRing {} ∧ cutRing.OnLoop ⟨40⟩ ⟨40⟩ ∧
      ∃ (chain : List TypeKey) (outcome : Except Refusal ResolvedDelegate) (after : Catalogue),
        chain.Nodup ∧ ⟨40⟩ ∈ chain ∧ ⟨41⟩ ∈ chain ∧ ⟨42⟩ ∈ chain ∧
        (∀ links, chain.length ≤ links →
          (resolveWithin cutRing {} links ⟨42⟩).on catalogue = some (outcome, after)) ∧
        outcome.toOption.any ResolvedDelegate.isOverride = true := by
  intro catalogue
  have hring : cutRing.IsBase ⟨41⟩ ⟨40⟩ := ⟨_, rfl, rfl⟩
  have hring' : cutRing.IsBase ⟨40⟩ ⟨41⟩ := ⟨_, rfl, rfl⟩
  have hderived : cutRing.IsBase ⟨40⟩ ⟨42⟩ := ⟨_, rfl, rfl⟩
  have hstops : StopsBeforeBase cutRing {} ⟨41⟩ :=
    .passing rfl rfl List.mem_cons_self (by decide)
  have hcut : LoopsCut cutRing {} := by
    intro key hloop
    obtain ⟨derived, hbase, -⟩ := TransGen.head'_iff.mp hloop.1
    have hmem : key ∈ [⟨41⟩, ⟨40⟩, ⟨40⟩] := hbase.mem_bases
    simp only [List.mem_cons, List.not_mem_nil, or_false, or_self] at hmem
    rcases hmem with rfl | rfl
    · exact ⟨⟨41⟩, hloop, hstops⟩
    · exact ⟨⟨41⟩, ⟨.single hring, .single hring'⟩, hstops⟩
  have hreached : catalogue.Reached cutRing .nonNull := ⟨_, rfl⟩
  obtain ⟨chain, outcome, after, hnodup, hchain, -, hlinks, hresolve⟩ :=
    (loopsCut_iff_resolves cutRing {} hreached).mp hcut ⟨42⟩
  have hround : cutRing.OnLoop ⟨40⟩ ⟨40⟩ :=
    ⟨.head hring' (.single hring), .head hring' (.single hring)⟩
  refine ⟨hcut, hround, chain, outcome, after, hnodup, (hchain _).mpr (.single hderived),
    (hchain _).mpr (.head hring (.single hderived)), (hchain _).mpr .refl, hlinks, ?_⟩
  have hoverrides : ((resolve cutRing {} ⟨42⟩).on catalogue).any
      (·.1.toOption.any ResolvedDelegate.isOverride) = true := by
    decide +kernel
  rw [hresolve] at hoverrides
  exact hoverrides

end Interop
