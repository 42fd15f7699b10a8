/-
Which parameters are shadowed where they are read.

Converted values get names that nothing else has.  Parameters that need no conversion get
none: they are read under their own names, in the same scope as the values that a body
names itself, and nothing keeps these names apart.  So a body that has named a value of its
own before it reads its parameters reads that value wherever a parameter has the name.

The names that a body gives before that are read off its lines.  They are two for the
native call, and three for the callback, the context included that native code hands over.
Names in backticks are none of them, so it is the managed name of a parameter that decides.
-/
import Interop.Proofs.ConvertedParameters
import Interop.Proofs.LocalNames
import Mathlib.Data.List.Perm.Basic

namespace Interop

open Listing

/-! ### Identifiers -/

namespace Identifier

/-- A word between backticks. -/
def quoted (word : String) : String := "\x60" ++ word ++ "\x60"

theorem escape_of_mem {language : Language} {name : String} (h : name ∈ keywords language) :
    escape language name = quoted name := if_pos h

theorem escape_of_not_mem {language : Language} {name : String} (h : name ∉ keywords language) :
    escape language name = name := if_neg h

theorem head?_quoted (word : String) : (quoted word).toList.head? = some '\x60' := by
  simp [quoted]

/-- A name that is no keyword and not quoted either. -/
def IsBare (language : Language) (name : String) : Prop :=
  name ∉ keywords language ∧ name.toList.head? ≠ some '\x60'

instance (language : Language) (name : String) : Decidable (IsBare language name) :=
  inferInstanceAs (Decidable (_ ∧ _))

/-- Only a name itself becomes a bare name. -/
theorem escape_eq_iff {language : Language} {name bare : String} (h : IsBare language bare) :
    escape language name = bare ↔ name = bare := by
  by_cases hkeyword : name ∈ keywords language
  · rw [escape_of_mem hkeyword]
    refine iff_of_false ?_ ?_
    · rintro rfl
      exact h.2 (head?_quoted name)
    · rintro rfl
      exact h.1 hkeyword
  · rw [escape_of_not_mem hkeyword]

theorem escape_mem_iff {language : Language} {names : List String}
    (h : ∀ bare ∈ names, IsBare language bare) (name : String) :
    escape language name ∈ names ↔ name ∈ names := by
  constructor
  · intro hmem
    rwa [(escape_eq_iff (h _ hmem)).mp rfl]
  · intro hmem
    rwa [(escape_eq_iff (h _ hmem)).mpr rfl]

/-- Names that are no quoted keywords are told apart by their identifiers. -/
theorem escape_inj {language : Language} {first second : String}
    (hfirst : ∀ keyword ∈ keywords language, first ≠ quoted keyword)
    (hsecond : ∀ keyword ∈ keywords language, second ≠ quoted keyword) :
    escape language first = escape language second ↔ first = second := by
  refine ⟨fun h => ?_, fun h => h ▸ rfl⟩
  by_cases hkeyword : first ∈ keywords language
  · by_cases hkeyword' : second ∈ keywords language
    · rw [escape_of_mem hkeyword, escape_of_mem hkeyword'] at h
      exact (String.append_right_inj _).mp ((String.append_left_inj _).mp h)
    · rw [escape_of_mem hkeyword, escape_of_not_mem hkeyword'] at h
      exact absurd h.symm (hsecond first hkeyword)
  · by_cases hkeyword' : second ∈ keywords language
    · rw [escape_of_not_mem hkeyword, escape_of_mem hkeyword'] at h
      exact absurd h (hfirst second hkeyword')
    · rwa [escape_of_not_mem hkeyword, escape_of_not_mem hkeyword'] at h

end Identifier

theorem Invocation.isBare_reservedNames (host : Host) :
    ∀ name ∈ reservedNames, Identifier.IsBare host.language name := by
  cases host <;> decide +kernel

theorem Callback.isBare_reservedNames (host : Host) :
    ∀ name ∈ reservedNames host, Identifier.IsBare host.language name := by
  cases host <;> decide +kernel

/-! ### Arguments -/

namespace Crossing

/-- The name of a parameter that arrives under it. -/
def Arrival.keptName? : Arrival → Option String
  | .unchanged name => some name
  | .converted _ _ => none

/-- The names that parameters keep, in order. -/
def keptNames (arrivals : List Arrival) : List String := arrivals.filterMap Arrival.keptName?

@[simp] theorem keptNames_unchanged (name : String) (rest : List Arrival) :
    keptNames (.unchanged name :: rest) = name :: keptNames rest := rfl

@[simp] theorem keptNames_converted (name expression : String) (rest : List Arrival) :
    keptNames (.converted name expression :: rest) = keptNames rest := rfl

/-- Every argument is a name that was kept or one that was given. -/
theorem arguments_perm (arrivals : List Arrival) :
    (arguments arrivals).Perm (givenNames arrivals ++ keptNames arrivals) := by
  induction arrivals with
  | nil => exact .nil
  | cons first rest ih =>
      cases first with
      | unchanged name => exact (ih.cons name).trans List.perm_middle.symm
      | converted name expression => exact ih.cons name

/-- Whether a parameter's value needs no conversion between two languages. -/
def passesAsIs (source target : Language) (param : Crossing) : Bool :=
  match param.conversion source target with
  | .ok none => true
  | .ok (some _) | .error _ => false

/-- A parameter keeps its name where its value needs no conversion. -/
theorem keptNames_eq {source target written : Language} {params : List Crossing}
    {arrivals : List Arrival} (h : List.Forall₂ (Arrives source target written) params arrivals) :
    keptNames arrivals =
      (params.filter (passesAsIs source target)).map (·.identifier written) := by
  induction h with
  | nil => rfl
  | cons hfirst _ ih =>
      cases hfirst with
      | unchanged hnone => simp [passesAsIs, hnone, ih]
      | converted n template hsome => simp [passesAsIs, hsome, ih]

variable {source target written : Language} {reserved : List String} {params : List Crossing}
  {arrivals : List Arrival}

theorem keptNames_subset (h : List.Forall₂ (Arrives source target written) params arrivals) :
    keptNames arrivals ⊆ params.map (·.identifier written) := by
  rw [keptNames_eq h]
  exact List.map_subset _ List.filter_sublist.subset

/-- Arguments are told apart where the names are that are kept. -/
theorem nodup_arguments_iff
    (h : arrive source target written reserved params = .ok arrivals) :
    (arguments arrivals).Nodup ↔ (keptNames arrivals).Nodup := by
  obtain ⟨hdistinct, hfresh⟩ := arrive_givenNames h
  have hkept := keptNames_subset (arrives_of_arrive h)
  rw [(arguments_perm arrivals).nodup_iff, List.nodup_append]
  constructor
  · exact fun hall => hall.2.1
  · intro hnodup
    refine ⟨hdistinct, hnodup, ?_⟩
    rintro name hgiven _ hname rfl
    exact (hfresh name hgiven).2 (hkept hname)

/-- A reserved name is an argument only where it is kept. -/
theorem mem_arguments_iff (h : arrive source target written reserved params = .ok arrivals)
    {name : String} (hname : name ∈ reserved) :
    name ∈ arguments arrivals ↔ name ∈ keptNames arrivals := by
  rw [(arguments_perm arrivals).mem_iff, List.mem_append, or_iff_right]
  exact fun hgiven => ((arrive_givenNames h).2 name hgiven).1 hname

/-- A parameter is read under a name that something else has exactly if its managed name is one of
the reserved names that are in use. -/
theorem identifier_mem_iff {language : Language} {own : List String}
    (h : arrive source target language reserved params = .ok arrivals) (hown : own ⊆ reserved)
    (hbare : ∀ name ∈ reserved, Identifier.IsBare language name) {param : Crossing}
    (hparam : param ∈ params) :
    param.identifier language ∈ own ++ givenNames arrivals ↔ param.name ∈ own := by
  rw [List.mem_append, or_iff_left]
  · exact Identifier.escape_mem_iff (fun name hname => hbare name (hown hname)) param.name
  · exact fun hgiven => ((arrive_givenNames h).2 _ hgiven).2 (List.mem_map_of_mem hparam)

end Crossing

/-! ### Bodies -/

/-- The names that steps give to values. -/
def Listing.namesGiven (steps : List Step) : List String := steps.flatMap Step.namesGiven

/-- A body that reads its parameters where these names stand for values of its own: it converts
some and goes on with a line.  `handed` are names that it finds given. -/
def ReadsAmong (host : Host) (own handed : List String) (arrivals : List Crossing.Arrival)
    (line : String) (body : List Step) : Prop :=
  ∃ before after, body = before ++ Crossing.conversionSteps host arrivals ++ .line line :: after ∧
    ∀ name, name ∈ handed ++ namesGiven before ↔ name ∈ own

/-- The names of values that the native call finds. -/
def Invocation.namesBefore : List String := [slotName, handleName]

/-- The names of values that the call of the closure finds. -/
def Callback.namesBefore (host : Host) : List String := [contextName, boxName host, closureName]

/-- The line that calls the closure. -/
def Callback.callLine (delegate : ResolvedDelegate) (call : String) : String :=
  if delegate.isReturning then delegate.host.bind (hostReturnName delegate.host) call else call

section

variable {delegate : ResolvedDelegate} {symbols : NativeSymbols} {arrivals : List Crossing.Arrival}

/-- The native call is made where the exception's place and the handle are named. -/
theorem Invocation.readsAmong (result : List Step) :
    ReadsAmong delegate.host namesBefore [] arrivals
      (callLine delegate (callText delegate.host symbols arrivals))
      (bodySteps delegate symbols arrivals result) := by
  refine ⟨[.line (delegate.host.exceptionSlot slotName),
    .line (delegate.host.bind handleName delegate.host.selfHandle), .blank],
    .blank :: .block (delegate.host.exceptionCheck slotName) :: result, ?_, ?_⟩
  · simp [bodySteps, callText]
  · have hgiven : namesGiven [.line (delegate.host.exceptionSlot slotName),
        .line (delegate.host.bind handleName delegate.host.selfHandle), .blank] = namesBefore := by
      cases delegate.host <;> decide +kernel
    simp [hgiven]

theorem Callback.exists_callSteps_eq {call : String} {calling : List Step}
    (h : callSteps delegate symbols call = .ok calling) :
    ∃ rest, calling = .line (callLine delegate call) :: rest := by
  unfold callSteps at h
  unfold callLine
  split at h
  · rename_i hreturning
    obtain ⟨conversion, -, h⟩ := bind_eq_ok h
    cases h
    exact ⟨_, by rw [if_pos hreturning]; rfl⟩
  · rename_i hvoid
    cases h
    exact ⟨[], by rw [if_neg hvoid]⟩

/-- The names that the callback gives before it calls the closure; a host whose guard opens the
context names that once more. -/
theorem Callback.namesGiven_opening (host : Host) (opening closureType : String) (name : String) :
    name ∈ contextName :: namesGiven
      [.line (Host.returnStatement opening), .indent, .line (host.contextGuard contextName), .blank,
        .line (host.bind (boxName host) (host.unboxContext contextName closureType)),
        .line (host.bind closureName (boxName host ++ ".value")), .blank] ↔
      name ∈ namesBefore host := by
  have hreturn : nameGivenBy? (Host.returnStatement opening) = none :=
    nameGivenBy?_eq_none (by decide : namesNothing "return " = true) opening
  have hbox : nameGivenBy? (host.bind (boxName host) (host.unboxContext contextName closureType)) =
      some (boxName host) := host.nameGivenBy?_bind (by cases host <;> decide) _
  have hclosure : nameGivenBy? (host.bind closureName (boxName host ++ ".value")) =
      some closureName := host.nameGivenBy?_bind (by decide) _
  have hguard : nameGivenBy? (host.contextGuard contextName) = none ∨
      nameGivenBy? (host.contextGuard contextName) = some contextName := by
    cases host <;> decide +kernel
  rcases hguard with hguard | hguard <;>
    simp [namesGiven, Step.namesGiven, hreturn, hbox, hclosure, hguard, namesBefore]

/-- The closure is called where the context, the box and the closure are named. -/
theorem Callback.readsAmong {calling : List Step}
    (h : callSteps delegate symbols (callText arrivals) = .ok calling) :
    ReadsAmong delegate.host (namesBefore delegate.host) [contextName] arrivals
      (callLine delegate (callText arrivals)) (bodySteps delegate symbols arrivals calling) := by
  obtain ⟨rest, rfl⟩ := exists_callSteps_eq h
  refine ⟨_, rest ++ [.dedent, .line "\x7d"], ?_, fun name => namesGiven_opening delegate.host
    (delegate.host.callbackOpening symbols.functionType (literalParams delegate))
    delegate.closureType name⟩
  simp [bodySteps]

end

/-! ### Bindings -/

/-- Kotlin passes the place of the exception under its name, as it passes the handle. -/
theorem Invocation.nodup_argumentsFor_kotlin (arrivals : List Crossing.Arrival) :
    (argumentsFor .kotlin arrivals).Nodup ↔ (Crossing.arguments arrivals).Nodup ∧
      ∀ name ∈ namesBefore, name ∉ Crossing.arguments arrivals := by
  have hperm : (argumentsFor .kotlin arrivals).Perm
      (namesBefore ++ Crossing.arguments arrivals) := List.perm_append_comm
  have hbefore : namesBefore.Nodup := by decide
  rw [hperm.nodup_iff, List.nodup_append, and_iff_right hbefore]
  refine and_congr_right fun _ => forall₂_congr fun name _ => ?_
  exact ⟨fun hapart hmem => hapart name hmem rfl, fun habsent _ hmem heq => habsent (heq ▸ hmem)⟩

section

variable {types : Reflection} {settings : Settings} {native : NativeLayer} {key : TypeKey}
  {wrapper : Wrapper} {type returned : ManagedType} {signature : Signature}
  {symbols : NativeSymbols} {delegate : ResolvedDelegate}

/-- Bindings have two bodies, and both are written from what is known of the delegate. -/
theorem Wrapper.WrittenFor.exists_bodies (h : wrapper.WrittenFor delegate symbols) :
    ∃ leaving entering calling called,
      wrapper.HasBodies delegate symbols leaving entering calling called ∧
      ReadsAmong delegate.host Invocation.namesBefore [] leaving
        (Invocation.callLine delegate (Invocation.callText delegate.host symbols leaving)) calling ∧
      ReadsAmong delegate.host (Callback.namesBefore delegate.host) [Callback.contextName] entering
        (Callback.callLine delegate (Callback.callText entering)) called := by
  obtain ⟨leaving, result, hleaving, -, hinvoke⟩ := Invocation.ofDelegate_eq_ok h.invoke
  obtain ⟨entering, calling, hentering, hcalling, hcallable⟩ :=
    Callback.creator_eq_ok h.createCallable
  exact ⟨leaving, entering, _, _,
    ⟨hleaving, hentering, congrArg Invocation.text hinvoke,
      congrArg Invocation.nativeArguments hinvoke, hcallable⟩,
    Invocation.readsAmong result, Callback.readsAmong hcalling⟩

/-- What the names of a parameter decide in the two bodies of a host. -/
structure Crossing.ShadowedByName (param : Crossing) (host : Host)
    (leaving entering : List Arrival) : Prop where
  /-- It is called like a value of the native call, or one that comes after it, -/
  reserved_calling : param.identifier host.language ∈ Invocation.reservedNames ↔
    param.name ∈ Invocation.reservedNames
  /-- or like a value of the callback. -/
  reserved_called : param.identifier host.language ∈ Callback.reservedNames host ↔
    param.name ∈ Callback.reservedNames host
  /-- Something else has its name where it is read for the native call, -/
  calling : param.identifier host.language ∈ Invocation.namesBefore ++ givenNames leaving ↔
    param.name ∈ Invocation.namesBefore
  /-- or for the closure. -/
  called : param.identifier host.language ∈ Callback.namesBefore host ++ givenNames entering ↔
    param.name ∈ Callback.namesBefore host

theorem Wrapper.HasBodies.shadowedByName {leaving entering : List Crossing.Arrival}
    {calling called : List Step}
    (h : wrapper.HasBodies delegate symbols leaving entering calling called) :
    ∀ param ∈ delegate.params, param.ShadowedByName delegate.host leaving entering := by
  intro param hparam
  have hcalling := Invocation.isBare_reservedNames delegate.host
  have hcalled := Callback.isBare_reservedNames delegate.host
  have hbefore : Invocation.namesBefore ⊆ Invocation.reservedNames := by decide
  have hbefore' : Callback.namesBefore delegate.host ⊆ Callback.reservedNames delegate.host := by
    cases delegate.host <;> decide
  exact
    { reserved_calling := Identifier.escape_mem_iff hcalling param.name
      reserved_called := Identifier.escape_mem_iff hcalled param.name
      calling := Crossing.identifier_mem_iff h.leaving_eq hbefore hcalling hparam
      called := Crossing.identifier_mem_iff h.entering_eq hbefore' hcalled hparam }

/-- The managed names of the parameters whose values Kotlin passes as they are. -/
def ResolvedDelegate.namesPassed (delegate : ResolvedDelegate) : List String :=
  (delegate.params.filter (Crossing.passesAsIs .kotlin .kotlinJna)).map (·.name)

/-- The arguments of the native call are told apart where the identifiers of the parameters are
that are passed as they are, and neither the handle nor the place of the exception has the name of
one. -/
theorem Wrapper.HasBodies.nodup_nativeArguments_iff {leaving entering : List Crossing.Arrival}
    {calling called : List Step}
    (h : wrapper.HasBodies delegate symbols leaving entering calling called)
    (hkotlin : delegate.host = .kotlin) :
    wrapper.invoke.nativeArguments.Nodup ↔
      (delegate.namesPassed.map (Identifier.escape .kotlin)).Nodup ∧
        ∀ name ∈ Invocation.namesBefore, name ∉ delegate.namesPassed := by
  have harrive := h.leaving_eq
  rw [hkotlin] at harrive
  have hkept : Crossing.keptNames leaving =
      delegate.namesPassed.map (Identifier.escape .kotlin) := by
    rw [Crossing.keptNames_eq (Crossing.arrives_of_arrive harrive), ResolvedDelegate.namesPassed,
      List.map_map]
    rfl
  have hbare := Invocation.isBare_reservedNames .kotlin
  have hbefore : ∀ name ∈ Invocation.namesBefore, name ∈ Invocation.reservedNames := by decide
  rw [h.arguments_eq, hkotlin, Invocation.nodup_argumentsFor_kotlin,
    Crossing.nodup_arguments_iff harrive, hkept]
  refine and_congr_right fun _ => forall₂_congr fun name hname => not_congr ?_
  rw [Crossing.mem_arguments_iff harrive (hbefore name hname), hkept, List.mem_map]
  constructor
  · rintro ⟨passed, hpassed, heq⟩
    rwa [← (Identifier.escape_eq_iff (hbare name (hbefore name hname))).mp heq]
  · intro hpassed
    exact ⟨name, hpassed, (Identifier.escape_eq_iff (hbare name (hbefore name hname))).mpr rfl⟩

/-- Parameters with names of their own have identifiers of their own, unless one has a quoted keyword
for a name. -/
theorem Wrapper.MadeFrom.nodup_identifiers
    (h : wrapper.MadeFrom types settings native key type signature returned symbols delegate)
    {language : Language} (hdistinct : (signature.params.map (·.name)).Nodup)
    (hquoted : ∀ param ∈ signature.params, ∀ keyword ∈ Identifier.keywords language,
      param.name ≠ Identifier.quoted keyword) :
    (delegate.namesPassed.map (Identifier.escape language)).Nodup := by
  rw [← h.paramNames] at hdistinct
  have hpassed : delegate.namesPassed.Sublist (delegate.params.map (·.name)) :=
    List.filter_sublist.map _
  have hfree : ∀ name ∈ delegate.namesPassed, ∀ keyword ∈ Identifier.keywords language,
      name ≠ Identifier.quoted keyword := by
    intro name hname
    have hdeclared := h.paramNames ▸ hpassed.subset hname
    obtain ⟨param, hparam, rfl⟩ := List.mem_map.mp hdeclared
    exact hquoted param hparam
  refine (hdistinct.sublist hpassed).map_on fun first hfirst second hsecond heq => ?_
  exact (Identifier.escape_inj (hfree first hfirst) (hfree second hsecond)).mp heq

/--
**Which parameters are shadowed.**  Whatever was requested before and whatever the parameters are
called, the bindings of a delegate read them in two bodies.  A parameter's identifier is one of the
names that a body uses exactly if its managed name is, and where the body reads its parameters
something else has the identifier exactly if the managed name is one that the body has given to a
value of its own by then.  The arguments of the native call differ from each other in Kotlin exactly
if the identifiers of the parameters do that need no conversion, and none of these is called like
the handle or the place of the exception.  If all parameters have names of their own and none is a
quoted keyword, only the latter matters.
-/
theorem wrap_shadowed_iff_named {catalogue after : Catalogue}
    (hreached : catalogue.Reached types settings.unspecified)
    (h : (wrap types settings native key).on catalogue = some (.ok wrapper, after)) :
    ∃ (type : ManagedType) (signature : Signature) (returned : ManagedType)
      (symbols : NativeSymbols) (delegate : ResolvedDelegate)
      (leaving entering : List Crossing.Arrival) (calling called : List Step),
      wrapper.MadeFrom types settings native key type signature returned symbols delegate ∧
      wrapper.HasBodies delegate symbols leaving entering calling called ∧
      ReadsAmong settings.host Invocation.namesBefore [] leaving
        (Invocation.callLine delegate (Invocation.callText settings.host symbols leaving)) calling ∧
      ReadsAmong settings.host (Callback.namesBefore settings.host) [Callback.contextName] entering
        (Callback.callLine delegate (Callback.callText entering)) called ∧
      (∀ param ∈ delegate.params, param.ShadowedByName settings.host leaving entering) ∧
      (settings.host = .kotlin →
        (wrapper.invoke.nativeArguments.Nodup ↔
          (delegate.namesPassed.map (Identifier.escape .kotlin)).Nodup ∧
            ∀ name ∈ Invocation.namesBefore, name ∉ delegate.namesPassed) ∧
        ((signature.params.map (·.name)).Nodup →
          (∀ param ∈ signature.params, ∀ keyword ∈ Identifier.keywords .kotlin,
            param.name ≠ Identifier.quoted keyword) →
          (wrapper.invoke.nativeArguments.Nodup ↔
            ∀ name ∈ Invocation.namesBefore, name ∉ delegate.namesPassed))) := by
  obtain ⟨type, signature, returned, symbols, delegate, hmade⟩ := exists_madeFrom hreached h
  obtain ⟨leaving, entering, calling, called, hbodies, hcalling, hcalled⟩ :=
    hmade.written.exists_bodies
  have hshadowed := hbodies.shadowedByName
  have hnodup := fun hkotlin => hbodies.nodup_nativeArguments_iff hkotlin
  rw [hmade.host_eq] at hcalling hcalled hshadowed hnodup
  refine ⟨type, signature, returned, symbols, delegate, leaving, entering, calling, called, hmade,
    hbodies, hcalling, hcalled, hshadowed, fun hkotlin => ⟨hnodup hkotlin, ?_⟩⟩
  intro hdistinct hquoted
  rw [hnodup hkotlin, and_iff_right (hmade.nodup_identifiers hdistinct hquoted)]

/-- A delegate with a parameter that is called like the handle of the native call, and one that is
called like the place of the exception but has to be converted. -/
def selfNamedTypes : Reflection :=
  let params : List Param :=
    [{ name := "__selfC", type := .int32 }, { name := "__exceptionC", type := .string }]
  (TypeStore.empty.register
    (.namedDelegate "App.Run" { params, returnType := .void })).2.reflection

/-- The handle is passed in the parameter's place. -/
theorem wrap_selfNamed :
    ∃ (wrapper : Wrapper) (after : Catalogue),
      (wrap selfNamedTypes {} (.conventional selfNamedTypes selfNamedTypes.keys) ⟨32⟩).on .empty =
        some (.ok wrapper, after) ∧
      wrapper.invoke.nativeArguments =
        ["__selfC", "__selfC", "____exceptionCC", "__exceptionC"] ∧
      ∃ (delegate : ResolvedDelegate) (symbols : NativeSymbols)
        (leaving entering : List Crossing.Arrival) (calling called : List Step) (param : Crossing),
        wrapper.HasBodies delegate symbols leaving entering calling called ∧
        param ∈ delegate.params ∧ param.name = "__selfC" ∧
        param.identifier .kotlin ∈ Invocation.namesBefore ++ Crossing.givenNames leaving := by
  have harguments : ((wrap selfNamedTypes {}
      (.conventional selfNamedTypes selfNamedTypes.keys) ⟨32⟩).on .empty).map
        (fun (outcome, _) => outcome.toOption.map (·.invoke.nativeArguments)) =
      some (some ["__selfC", "__selfC", "____exceptionCC", "__exceptionC"]) := by
    decide +kernel
  have hsigned : ((selfNamedTypes.get? ⟨32⟩).bind (·.invoke)).map (·.params.map (·.name)) =
      some ["__selfC", "__exceptionC"] := by
    decide +kernel
  obtain ⟨⟨outcome, after⟩, hrun, houtcome⟩ := Option.map_eq_some_iff.mp harguments
  cases outcome with
  | error refusal => cases houtcome
  | ok wrapper =>
      obtain ⟨type, signature, _, symbols, delegate, leaving, entering, calling, called, hmade,
        hbodies, -, -, hshadowed, -⟩ := wrap_shadowed_iff_named Catalogue.reached_empty hrun
      rw [hmade.type_eq, Option.bind_some, hmade.signature_eq, Option.map_some,
        ← hmade.paramNames] at hsigned
      obtain ⟨param, _, hparams, hname, -⟩ := List.map_eq_cons_iff.mp (Option.some.inj hsigned)
      have hparam : param ∈ delegate.params := hparams ▸ List.mem_cons_self
      have hown : param.name ∈ Invocation.namesBefore := by
        rw [hname]
        decide
      exact ⟨wrapper, after, hrun, Option.some.inj houtcome, delegate, symbols, leaving, entering,
        calling, called, param, hbodies, hparam, hname, (hshadowed param hparam).calling.mpr hown⟩

end

end Interop
