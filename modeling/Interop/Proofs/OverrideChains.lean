/-
Chains of overrides.

Each `invoke` of a chain overrides the next one, and each of these links is decided by
looking at two signatures.  Nothing ever compares the first signature with the last.  It
need not, for agreeing is to return the same type and to take the same types in the same
ways, and so it passes from link to link.

It matters which links there are.  A base is overridden only if it resolves, and that is
decided by its own chain.  But a base that has bindings has resolved, so between types that
all have bindings nothing but the signatures decides, however long the chain goes on.
-/
import Interop.Proofs.OverriddenTypes
import Interop.Proofs.PlaceTypes
import Interop.Proofs.PositionalArguments
import Mathlib.Data.List.Chain

namespace Interop

/-! ### Agreeing -/

namespace Signature

/-- What a call takes: the type of each parameter, and how it is passed. -/
def taken (signature : Signature) : List (TypeKey × Passing) :=
  signature.params.map fun param => (param.type, param.passing)

theorem taken_eq_iff {first second : Signature} :
    first.taken = second.taken ↔
      List.Forall₂
        (fun param other => param.type = other.type ∧ param.passing = other.passing)
        first.params second.params := by
  unfold taken
  rw [← List.forall₂_eq_eq_eq, List.forall₂_map_left_iff, List.forall₂_map_right_iff]
  simp only [Prod.mk.injEq]

theorem agrees_iff_taken {first second : Signature} :
    first.agrees second = true ↔
      first.returnType = second.returnType ∧ first.returnsByRef = second.returnsByRef ∧
        first.taken = second.taken := by
  rw [agrees_iff, taken_eq_iff]
  constructor
  · rintro ⟨hreturn, hbyRef, hparams⟩
    exact ⟨hreturn, hbyRef, hparams⟩
  · rintro ⟨hreturn, hbyRef, hparams⟩
    exact ⟨hreturn, hbyRef, hparams⟩

theorem agrees_equivalence :
    Equivalence fun first second : Signature => first.agrees second = true where
  refl _ := agrees_iff_taken.mpr ⟨rfl, rfl, rfl⟩
  symm h := by
    obtain ⟨hreturn, hbyRef, htaken⟩ := agrees_iff_taken.mp h
    exact agrees_iff_taken.mpr ⟨hreturn.symm, hbyRef.symm, htaken.symm⟩
  trans h h' := by
    obtain ⟨hreturn, hbyRef, htaken⟩ := agrees_iff_taken.mp h
    obtain ⟨hreturn', hbyRef', htaken'⟩ := agrees_iff_taken.mp h'
    exact agrees_iff_taken.mpr
      ⟨hreturn.trans hreturn', hbyRef.trans hbyRef', htaken.trans htaken'⟩

end Signature

/-- The types at two keys have signatures, and these agree. -/
def Reflection.CalledAlike (types : Reflection) (key other : TypeKey) : Prop :=
  ∃ signature otherSignature,
    (types.get? key).bind (·.invoke) = some signature ∧
    (types.get? other).bind (·.invoke) = some otherSignature ∧
    signature.agrees otherSignature = true

namespace Reflection.CalledAlike

variable {types : Reflection} {key other third : TypeKey}

theorem symm (h : types.CalledAlike key other) : types.CalledAlike other key := by
  obtain ⟨signature, otherSignature, hinvoke, hother, hagrees⟩ := h
  exact ⟨otherSignature, signature, hother, hinvoke, Signature.agrees_equivalence.symm hagrees⟩

theorem trans (h : types.CalledAlike key other) (h' : types.CalledAlike other third) :
    types.CalledAlike key third := by
  obtain ⟨signature, otherSignature, hinvoke, hother, hagrees⟩ := h
  obtain ⟨_, thirdSignature, hother', hthird, hagrees'⟩ := h'
  -- A type has one signature, so both links meet in it.
  cases hother.symm.trans hother'
  exact ⟨signature, thirdSignature, hinvoke, hthird,
    Signature.agrees_equivalence.trans hagrees hagrees'⟩

end Reflection.CalledAlike

/-! ### Types with bindings -/

/-- The bindings are those that their key gets, over some native layer and after some requests. -/
def Wrapper.ComesFrom (wrapper : Wrapper) (types : Reflection) (settings : Settings) : Prop :=
  ∃ (native : NativeLayer) (catalogue after : Catalogue),
    catalogue.Reached types settings.unspecified ∧
    (wrap types settings native wrapper.key).on catalogue = some (.ok wrapper, after)

section

variable {types : Reflection} {settings : Settings} {native : NativeLayer} {key : TypeKey}

section

variable {wrapper : Wrapper} {type result : ManagedType} {signature : Signature}
  {symbols : NativeSymbols} {delegate : ResolvedDelegate}

theorem Wrapper.MadeFrom.invoke_eq
    (h : wrapper.MadeFrom types settings native key type signature result symbols delegate) :
    (types.get? key).bind (·.invoke) = some signature := by
  rw [h.type_eq, Option.bind_some, h.signature_eq]

/-- The native function is handed every parameter, the handle, and the exception's place. -/
theorem Wrapper.MadeFrom.length_nativeArguments
    (h : wrapper.MadeFrom types settings native key type signature result symbols delegate) :
    wrapper.invoke.nativeArguments.length = signature.params.length + 2 := by
  obtain ⟨arrivals, _, harrive, -, hinvoke⟩ := Invocation.ofDelegate_eq_ok h.written.invoke
  have harguments := Crossing.length_arguments (Crossing.arrives_of_arrive harrive)
  have hparams := (mapM_eq_ok_iff.mp h.params_eq).length_eq
  rw [hinvoke]
  simp [Invocation.argumentsFor, harguments, hparams]

end

namespace Wrapper.ComesFrom

variable {wrapper : Wrapper}

/-- What a run writes for a key comes from it. -/
theorem of_on {catalogue after : Catalogue}
    (hreached : catalogue.Reached types settings.unspecified)
    (hon : (wrap types settings native key).on catalogue = some (.ok wrapper, after)) :
    wrapper.key = key ∧ wrapper.ComesFrom types settings := by
  obtain ⟨_, _, _, _, -, -, -, -, hkey, -⟩ := wrapAfresh_eq_ok (wrapAfresh_of_on hreached hon)
  refine ⟨hkey, native, catalogue, after, hreached, ?_⟩
  rw [hkey]
  exact hon

theorem exists_madeFrom (h : wrapper.ComesFrom types settings) :
    ∃ native type signature result symbols delegate,
      wrapper.MadeFrom types settings native wrapper.key type signature result symbols
        delegate := by
  obtain ⟨native, catalogue, after, hreached, hon⟩ := h
  exact ⟨native, Interop.exists_madeFrom hreached hon⟩

theorem calledAlike_self (h : wrapper.ComesFrom types settings) :
    types.CalledAlike wrapper.key wrapper.key := by
  obtain ⟨_, _, signature, _, _, _, hmade⟩ := h.exists_madeFrom
  exact ⟨signature, signature, hmade.invoke_eq, hmade.invoke_eq,
    Signature.agrees_equivalence.refl signature⟩

theorem length_nativeArguments {signature : Signature} (h : wrapper.ComesFrom types settings)
    (hinvoke : (types.get? wrapper.key).bind (·.invoke) = some signature) :
    wrapper.invoke.nativeArguments.length = signature.params.length + 2 := by
  obtain ⟨_, _, _, _, _, _, hmade⟩ := h.exists_madeFrom
  cases hmade.invoke_eq.symm.trans hinvoke
  exact hmade.length_nativeArguments

end Wrapper.ComesFrom

/-! ### One link -/

/-- **Between types with bindings nothing but the signatures decides.** -/
theorem isOverride_iff_calledAlike {derived base : Wrapper}
    (hderived : derived.ComesFrom types settings) (hbase : base.ComesFrom types settings)
    (hlink : types.IsBase base.key derived.key) :
    derived.invoke.isOverride = true ↔ types.CalledAlike derived.key base.key := by
  obtain ⟨_, _, signature, _, _, delegate, hmade⟩ := hderived.exists_madeFrom
  obtain ⟨_, _, baseSignature, _, _, baseDelegate, hbaseMade⟩ := hbase.exists_madeFrom
  obtain ⟨type, htype, hown⟩ := hlink
  have hresolved := exists_on_empty_iff.mp hbaseMade.resolved
  rw [hmade.written.isOverride_eq,
    isOverride_iff_of_resolveAfresh (exists_on_empty_iff.mp hmade.resolved),
    hmade.delegate_signature]
  constructor
  · rintro ⟨_, _, resolved, htype', hown', hresolved', hform⟩
    cases htype.symm.trans htype'
    cases hown.symm.trans hown'
    cases hresolved.symm.trans hresolved'
    rw [hbaseMade.delegate_signature] at hform
    exact ⟨signature, baseSignature, hmade.invoke_eq, hbaseMade.invoke_eq,
      Signature.agrees_equivalence.symm (Signature.agrees_iff.mpr hform)⟩
  · rintro ⟨_, _, hinvoke, hbaseInvoke, hagrees⟩
    cases hmade.invoke_eq.symm.trans hinvoke
    cases hbaseMade.invoke_eq.symm.trans hbaseInvoke
    refine ⟨type, base.key, baseDelegate, htype, hown, hresolved, ?_⟩
    rw [hbaseMade.delegate_signature]
    exact Signature.agrees_iff.mp (Signature.agrees_equivalence.symm hagrees)

/-! ### Any number of links -/

variable {chain : List Wrapper}

/-- All but the last override exactly if each is called like the next one. -/
theorem forall_isOverride_iff_isChain
    (hwritten : ∀ wrapper ∈ chain, wrapper.ComesFrom types settings)
    (hbases : chain.IsChain fun derived base => types.IsBase base.key derived.key) :
    (∀ wrapper ∈ chain.dropLast, wrapper.invoke.isOverride = true) ↔
      chain.IsChain fun derived base => types.CalledAlike derived.key base.key := by
  -- Link by link: the last member may override or not, for the chain does not go on to its base.
  induction hbases with
  | nil => simp
  | singleton => simp
  | @cons_cons derived base rest hlink _ ih =>
      obtain ⟨hderived, hrest⟩ := List.forall_mem_cons.mp hwritten
      rw [List.dropLast_cons_cons, List.forall_mem_cons, List.isChain_cons_cons, ih hrest,
        isOverride_iff_calledAlike hderived (hrest base List.mem_cons_self) hlink]

/-- Whatever follows in the chain is called like its first member. -/
theorem calledAlike_of_mem {first : Wrapper}
    (h : (first :: chain).IsChain fun derived base => types.CalledAlike derived.key base.key) :
    ∀ wrapper ∈ chain, types.CalledAlike first.key wrapper.key := by
  induction chain generalizing first with
  | nil => nofun
  | cons base rest ih =>
      intro wrapper hwrapper
      obtain ⟨hlink, hrest⟩ := List.isChain_cons_cons.mp h
      rcases List.mem_cons.mp hwrapper with rfl | hmem
      · exact hlink
      · exact hlink.trans (ih hrest wrapper hmem)

/-- So any two of its members are called alike. -/
theorem isChain_calledAlike_iff (hwritten : ∀ wrapper ∈ chain, wrapper.ComesFrom types settings) :
    (chain.IsChain fun derived base => types.CalledAlike derived.key base.key) ↔
      ∀ first ∈ chain, ∀ second ∈ chain, types.CalledAlike first.key second.key := by
  constructor
  · intro h
    cases chain with
    | nil => nofun
    | cons head rest =>
        have hself := (hwritten head List.mem_cons_self).calledAlike_self
        have hall : ∀ wrapper ∈ head :: rest, types.CalledAlike head.key wrapper.key :=
          List.forall_mem_cons.mpr ⟨hself, calledAlike_of_mem h⟩
        exact fun first hfirst second hsecond =>
          (hall first hfirst).symm.trans (hall second hsecond)
  · intro h
    exact (List.pairwise_of_forall_mem_list h).isChain

/-- Types that are all called alike have one signature but for names and annotations. -/
theorem exists_form_of_calledAlike
    (hwritten : ∀ wrapper ∈ chain, wrapper.ComesFrom types settings)
    (halike : ∀ first ∈ chain, ∀ second ∈ chain, types.CalledAlike first.key second.key) :
    ∃ count taken returnType, ∀ wrapper ∈ chain, ∃ signature,
      (types.get? wrapper.key).bind (·.invoke) = some signature ∧
      signature.params.length = count ∧ signature.taken = taken ∧
      signature.returnType = returnType ∧
      wrapper.invoke.nativeArguments.length = count + 2 := by
  cases chain with
  | nil => exact ⟨0, [], .void, nofun⟩
  | cons first rest =>
      obtain ⟨signature, _, hinvoke, -⟩ := halike first List.mem_cons_self first List.mem_cons_self
      refine ⟨signature.params.length, signature.taken, signature.returnType,
        fun wrapper hwrapper => ?_⟩
      obtain ⟨_, other, hinvoke', hother, hagrees⟩ :=
        halike first List.mem_cons_self wrapper hwrapper
      cases hinvoke.symm.trans hinvoke'
      obtain ⟨hreturn, -, htaken⟩ := Signature.agrees_iff_taken.mp hagrees
      have hcount : other.params.length = signature.params.length :=
        (Signature.taken_eq_iff.mp htaken).length_eq.symm
      refine ⟨other, hother, hcount, htaken.symm, hreturn.symm, ?_⟩
      rw [(hwritten wrapper hwrapper).length_nativeArguments hother, hcount]

/--
**A chain of overrides has one signature.**  Agreeing is an equivalence of signatures, and two of
them agree exactly if they return the same type, both by reference or neither, and take the same
types in the same ways and order.  Let all types of a chain of bases have bindings, whatever was
requested before each and however long the chain is.  Every `invoke` but the last overrides that
of the base exactly if the signatures of any two types of the chain agree, so of the first and the
last as well.  The whole chain then has one number of parameters, one list of their types and
ways of passing, and one return type, and as many arguments are handed to each native function.
-/
theorem overrideChain_agrees :
    (Equivalence fun first second : Signature => first.agrees second = true) ∧
    (∀ first second : Signature, first.agrees second = true ↔
      first.returnType = second.returnType ∧ first.returnsByRef = second.returnsByRef ∧
        first.taken = second.taken) ∧
    ∀ (types : Reflection) (settings : Settings) (chain : List Wrapper),
      (∀ wrapper ∈ chain, wrapper.ComesFrom types settings) →
      (chain.IsChain fun derived base => types.IsBase base.key derived.key) →
      ((∀ wrapper ∈ chain.dropLast, wrapper.invoke.isOverride = true) ↔
        ∀ first ∈ chain, ∀ second ∈ chain, types.CalledAlike first.key second.key) ∧
      ((∀ wrapper ∈ chain.dropLast, wrapper.invoke.isOverride = true) →
        ∃ count taken returnType, ∀ wrapper ∈ chain, ∃ signature,
          (types.get? wrapper.key).bind (·.invoke) = some signature ∧
          signature.params.length = count ∧ signature.taken = taken ∧
          signature.returnType = returnType ∧
          wrapper.invoke.nativeArguments.length = count + 2) := by
  refine ⟨Signature.agrees_equivalence, fun _ _ => Signature.agrees_iff_taken, ?_⟩
  intro types settings chain hwritten hbases
  have halike := (forall_isOverride_iff_isChain hwritten hbases).trans
    (isChain_calledAlike_iff hwritten)
  exact ⟨halike, fun h => exists_form_of_calledAlike hwritten (halike.mp h)⟩

/-- A delegate that edits a text in its place and says how often it did. -/
def editing (name : String) (stated : Nullability) : Signature where
  params := [
    { name, type := .string, passing := .byRef, nullability := stated },
    { name := name ++ "Limit", type := .int32 }]
  returnType := .int32

/-- Three such delegates, each derived from the one before.  They name their parameters
differently, and differ in what they say about a text that is absent. -/
def editors : Reflection :=
  let (texts, store) :=
    TypeStore.empty.register (.namedDelegate "App.EditText" (editing "text" .notSpecified))
  let (lines, store) := store.register
    { ManagedType.namedDelegate "App.EditLine" (editing "line" .nullable) with base := some texts }
  (store.register
    { ManagedType.namedDelegate "App.EditWord" (editing "word" .nonNull) with
      base := some lines }).2.reflection

/-- All three get bindings, and all but the first override. -/
theorem exists_wrapper_of_editor {key : TypeKey} {overrides : Bool}
    (h : (key, overrides) ∈ [(⟨34⟩, true), (⟨33⟩, true), ((⟨32⟩ : TypeKey), false)]) :
    ∃ wrapper : Wrapper, wrapper.key = key ∧ wrapper.ComesFrom editors editingSettings ∧
      wrapper.invoke.isOverride = overrides := by
  have hruns : ∀ run ∈ [(⟨34⟩, true), (⟨33⟩, true), ((⟨32⟩ : TypeKey), false)],
      ((wrap editors editingSettings (.conventional editors [⟨32⟩, ⟨33⟩, ⟨34⟩]) run.1).on
        .empty).map (fun (outcome, _) => outcome.toOption.map (·.invoke.isOverride)) =
          some (some run.2) := by
    decide +kernel
  obtain ⟨⟨outcome, after⟩, hon, hsome⟩ := Option.map_eq_some_iff.mp (hruns _ h)
  cases outcome with
  | error refusal => cases hsome
  | ok wrapper =>
      obtain ⟨hkey, hfrom⟩ := Wrapper.ComesFrom.of_on Catalogue.reached_empty hon
      exact ⟨wrapper, hkey, hfrom, Option.some.inj hsome⟩

/-- The last of them is called like the first, which it is not compared with. -/
theorem overrideChain_agrees_editors :
    ∃ words lines texts : Wrapper,
      (words.key = ⟨34⟩ ∧ lines.key = ⟨33⟩ ∧ texts.key = ⟨32⟩) ∧
      (∀ wrapper ∈ [words, lines, texts], wrapper.ComesFrom editors editingSettings) ∧
      ([words, lines, texts].IsChain fun derived base => editors.IsBase base.key derived.key) ∧
      (∀ wrapper ∈ [words, lines], wrapper.invoke.isOverride = true) ∧
      texts.invoke.isOverride = false ∧
      editors.CalledAlike words.key texts.key ∧
      words.invoke.nativeArguments.length = texts.invoke.nativeArguments.length := by
  obtain ⟨words, hwords, hwordsFrom, hwordsOverride⟩ :=
    exists_wrapper_of_editor (show ((⟨34⟩ : TypeKey), true) ∈ _ by decide)
  obtain ⟨lines, hlines, hlinesFrom, hlinesOverride⟩ :=
    exists_wrapper_of_editor (show ((⟨33⟩ : TypeKey), true) ∈ _ by decide)
  obtain ⟨texts, htexts, htextsFrom, htextsOverride⟩ :=
    exists_wrapper_of_editor (show ((⟨32⟩ : TypeKey), false) ∈ _ by decide)
  have hfrom : ∀ wrapper ∈ [words, lines, texts], wrapper.ComesFrom editors editingSettings := by
    simp [hwordsFrom, hlinesFrom, htextsFrom]
  have hbases : [words, lines, texts].IsChain
      fun derived base => editors.IsBase base.key derived.key := by
    simp only [List.isChain_cons_cons, List.isChain_singleton, hwords, hlines, htexts, and_true]
    decide +kernel
  have hoverrides : ∀ wrapper ∈ [words, lines], wrapper.invoke.isOverride = true := by
    simp [hwordsOverride, hlinesOverride]
  obtain ⟨halike, hform⟩ := overrideChain_agrees.2.2 editors editingSettings _ hfrom hbases
  obtain ⟨count, _, _, hcounts⟩ := hform hoverrides
  obtain ⟨_, -, -, -, -, hwordsCount⟩ := hcounts words (by simp)
  obtain ⟨_, -, -, -, -, htextsCount⟩ := hcounts texts (by simp)
  exact ⟨words, lines, texts, ⟨hwords, hlines, htexts⟩, hfrom, hbases, hoverrides, htextsOverride,
    halike.mp hoverrides words (by simp) texts (by simp), hwordsCount.trans htextsCount.symm⟩

end

end Interop
