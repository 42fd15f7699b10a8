/-
The names that the bodies of bindings give to values.

Both bodies of a delegate's bindings give names to values of their own: the handle,
the place of an exception, the box, what was returned.  They also give names to
parameters that they convert, and parameters may be called anything.  A converted
value that took one of the other names would capture it, and another value would be
handed over the boundary without anyone noticing.

The names that are kept free for this are listed by hand.  So the names that a body
gives are read off its lines here, the lines of the host's exception check included,
and compared with a list that is written out once more for each host.  What is given
to converted values is fresh with respect to that list and to the parameters.
-/
import Interop.Proofs.FreshNames
import Interop.Proofs.Lines
import Interop.Proofs.Written

namespace Interop

/-! ### Reading names off lines -/

namespace Listing

/-- What a line that gives a name to a value starts with, in either host. -/
def namingWords : List String := ["val ", "var ", "let ", "if let ", "guard let "]

/-- The name that the characters of a line give to a value, if they give any. -/
def nameAmong? (line : List Char) : Option String :=
  let text := line.dropWhile (· == ' ')
  (namingWords.findSome? fun word => word.toList.isPrefixOf? text).map fun rest =>
    String.ofList (rest.takeWhile fun c => c != ' ' && c != ':')

/-- The name that a line gives to a value, if it gives any. -/
def nameGivenBy? (line : String) : Option String := nameAmong? line.toList

/-- The names that a step gives to values. -/
def Step.namesGiven : Step → List String
  | .indent | .dedent | .blank => []
  | .line text => (nameGivenBy? text).toList
  | .block text => (Lines.ofText text).filterMap nameGivenBy?
  | .blocks texts => (blockLines texts).filterMap nameGivenBy?

/-- The names that a finished listing gives are those of its lines. -/
theorem Step.namesGiven_listingText (steps : List Step) :
    (Step.block (listingText steps)).namesGiven =
      (Lines.ofPieces (Lines.pieces (Lines.dropTrailingBreaks
        ((run {} steps).lines.flatMap fun line => line.toList ++ ['\n'])))).filterMap
          nameAmong? := by
  simp only [namesGiven, Lines.ofText, listingText, text, String.toList_ofList,
    List.filterMap_map]
  refine List.filterMap_congr fun line _ => ?_
  simp [nameGivenBy?]

/-- All names that a step gives to values are among those of a list. -/
def Step.NamesAmong (bound : List String) (step : Step) : Prop :=
  ∀ name ∈ step.namesGiven, name ∈ bound

instance (bound : List String) (step : Step) : Decidable (step.NamesAmong bound) :=
  inferInstanceAs (Decidable (∀ name ∈ step.namesGiven, name ∈ bound))

/-- A text that no line that gives a name starts with. -/
def namesNothing (opening : String) : Bool :=
  opening.toList.head?.any (· != ' ') &&
    namingWords.all fun word => (word.toList.zip opening.toList).any fun (a, b) => a != b

/-- A line with such an opening gives no name, whatever follows. -/
theorem nameGivenBy?_eq_none {opening : String} (h : namesNothing opening = true)
    (rest : String) : nameGivenBy? (opening ++ rest) = none := by
  obtain ⟨hhead, hwords⟩ := Bool.and_eq_true_iff.mp h
  unfold nameGivenBy? nameAmong?
  dsimp only
  rw [String.toList_append, Lines.dropWhile_append_of_head? _ hhead, Option.map_eq_none_iff,
    List.findSome?_eq_none_iff]
  intro word hword
  have hother := Lines.not_isPrefix_of_any_ne rest.toList (List.all_eq_true.mp hwords word hword)
  rw [← Option.isNone_iff_eq_none, ← Option.not_isSome, List.isSome_isPrefixOf?_eq_isPrefixOf,
    Bool.not_eq_true', ← Bool.not_eq_true, List.isPrefixOf_iff_prefix]
  exact hother

@[simp] theorem Step.namesAmong_indent (bound : List String) : Step.indent.NamesAmong bound := by
  simp [NamesAmong, namesGiven]

@[simp] theorem Step.namesAmong_dedent (bound : List String) : Step.dedent.NamesAmong bound := by
  simp [NamesAmong, namesGiven]

@[simp] theorem Step.namesAmong_blank (bound : List String) : Step.blank.NamesAmong bound := by
  simp [NamesAmong, namesGiven]

/-- A line that gives one name gives no other. -/
theorem Step.namesAmong_line {bound : List String} {text name : String}
    (h : nameGivenBy? text = some name) (hbound : name ∈ bound) :
    (Step.line text).NamesAmong bound := by
  intro given hgiven
  rw [namesGiven, h, Option.mem_toList, Option.some_inj] at hgiven
  rwa [← hgiven]

theorem Step.namesAmong_of_opening {opening : String} (h : namesNothing opening = true)
    (bound : List String) (rest : String) : (Step.line (opening ++ rest)).NamesAmong bound := by
  intro given hgiven
  rw [namesGiven, nameGivenBy?_eq_none h] at hgiven
  cases hgiven

end Listing

open Listing

/-- A return gives no name. -/
theorem Listing.Step.namesAmong_return (bound : List String) (expression : String) :
    (Step.line (Host.returnStatement expression)).NamesAmong bound :=
  have hreturn : namesNothing "return " = true := by decide
  namesAmong_of_opening hreturn bound expression

/-- A name without a blank is read back off the statement that gives it. -/
theorem Host.nameGivenBy?_bind (host : Host) {name : String}
    (h : name.toList.all (fun c => c != ' ' && c != ':') = true) (value : String) :
    nameGivenBy? (host.bind name value) = some name := by
  let rest := name.toList ++ (" = ".toList ++ value.toList)
  have hname : rest.takeWhile (fun c => c != ' ' && c != ':') = name.toList := by
    rw [List.takeWhile_append_of_pos (by simpa using h)]
    simp
  have htext : ∀ word : String, (LocalDeclaration.textAfter word (.fixed name value)).toList =
      word.toList ++ ' ' :: rest := by
    intro word
    simp [LocalDeclaration.textAfter, LocalDeclaration.fixed, rest]
  have hread : nameGivenBy? (host.bind name value) =
      some (String.ofList (rest.takeWhile fun c => c != ' ' && c != ':')) := by
    unfold nameGivenBy? nameAmong?
    cases host with
    | kotlin => rw [show (Host.kotlin.bind name value).toList = _ from htext "val"]; rfl
    | swift => rw [show (Host.swift.bind name value).toList = _ from htext "let"]; rfl
  rw [hread, hname, String.ofList_toList]

/-- The statement that gives a name gives no other. -/
theorem Host.namesAmong_bind (host : Host) {bound : List String} {name : String}
    (hword : name.toList.all (fun c => c != ' ' && c != ':') = true) (hbound : name ∈ bound)
    (value : String) : (Step.line (host.bind name value)).NamesAmong bound :=
  Step.namesAmong_line (host.nameGivenBy?_bind hword value) hbound

/-! ### Bodies -/

/-- The names that the member that calls a delegate gives to values of its own. -/
def Invocation.boundNames : Host → List String
  | .kotlin =>
    ["__exceptionC", "__selfC", "__returnValueC", "__returnValue", "__exceptionCValue"]
  | .swift =>
    ["__exceptionC", "__selfC", "__returnValueC", "__returnValue", "__exception", "__error"]

/-- The names that a callback gives to values of its own. -/
def Callback.boundNames : Host → List String
  | .kotlin =>
    ["__innerContext", "__innerKotlinContext", "__innerClosure", "__returnValueKotlin",
      "__returnValue"]
  | .swift =>
    ["__innerContext", "__innerSwiftContext", "__innerClosure", "__returnValueSwift",
      "__returnValue"]

theorem Invocation.boundNames_subset (host : Host) : boundNames host ⊆ reservedNames := by
  cases host <;> decide

theorem Callback.boundNames_subset (host : Host) : boundNames host ⊆ reservedNames host := by
  cases host <;> decide

/-- A body that converts parameters and captures no name.  `foreign` are steps that hold nothing
but text from elsewhere. -/
structure CaptureFree (host : Host) (identifiers bound : List String) (foreign : List Step)
    (arrivals : List Crossing.Arrival) (body : List Step) : Prop where
  /-- No two converted values share a name. -/
  distinct : (Crossing.givenNames arrivals).Nodup
  /-- None is called like a parameter. -/
  not_identifier : ∀ name ∈ Crossing.givenNames arrivals, name ∉ identifiers
  /-- None is called like another value of the body. -/
  not_bound : ∀ name ∈ Crossing.givenNames arrivals, name ∉ bound
  /-- No other value of the body is left out of account. -/
  complete : ∃ before after, body = before ++ Crossing.conversionSteps host arrivals ++ after ∧
    ∀ step ∈ before ++ after, step ∈ foreign ∨ step.NamesAmong bound

/-- Names that are fresh with respect to all that a body binds capture none of it. -/
theorem CaptureFree.of_arrive {host : Host} {source target : Language} {params : List Crossing}
    {reserved bound : List String} {foreign before after : List Step}
    {arrivals : List Crossing.Arrival}
    (harrive : Crossing.arrive source target host.language reserved params = .ok arrivals)
    (hbound : bound ⊆ reserved)
    (hothers : ∀ step ∈ before ++ after, step ∈ foreign ∨ step.NamesAmong bound) :
    CaptureFree host (params.map (·.identifier host.language)) bound foreign arrivals
      (before ++ Crossing.conversionSteps host arrivals ++ after) := by
  obtain ⟨hdistinct, hfresh⟩ := Crossing.arrive_givenNames harrive
  refine ⟨hdistinct, ?_, ?_, before, after, rfl, hothers⟩
  · intro name hname
    exact (hfresh name hname).2
  · intro name hname hmem
    exact (hfresh name hname).1 (hbound hmem)

section

variable {delegate : ResolvedDelegate} {symbols : NativeSymbols} {arrivals : List Crossing.Arrival}

/-- The native call, as it is written where nothing is returned. -/
def Invocation.callText (host : Host) (symbols : NativeSymbols)
    (arrivals : List Crossing.Arrival) : String :=
  symbols.invokeFunction ++ "(" ++ ", ".intercalate (argumentsFor host arrivals) ++ ")"

theorem Invocation.namesAmong_callLine (delegate : ResolvedDelegate) (call : String) :
    Step.line (callLine delegate call) ∈ [Step.line call] ∨
      (Step.line (callLine delegate call)).NamesAmong (boundNames delegate.host) := by
  unfold callLine
  split
  · refine .inr (Host.namesAmong_bind _ (by decide) ?_ call)
    cases delegate.host <;> decide
  · exact .inl (List.mem_singleton.mpr rfl)

theorem Invocation.namesAmong_result {result : List Step} (h : resultSteps delegate = .ok result) :
    ∀ step ∈ result, step.NamesAmong (boundNames delegate.host) := by
  unfold resultSteps at h
  split at h
  · obtain ⟨conversion, -, h⟩ := bind_eq_ok h
    cases h
    have hreturn := Step.namesAmong_return (boundNames delegate.host)
    cases conversion with
    | none => simp [returningSteps, hreturn]
    | some template =>
        have hbind : (Step.line (delegate.host.bind returnName
            (template.apply nativeReturnName))).NamesAmong (boundNames delegate.host) := by
          refine Host.namesAmong_bind _ (by decide) ?_ _
          cases delegate.host <;> decide
        simp [returningSteps, hreturn, hbind]
  · cases h
    simp

theorem Invocation.namesAmong_own (host : Host) :
    (Step.line (host.exceptionSlot slotName)).NamesAmong (boundNames host) ∧
      (Step.line (host.bind handleName host.selfHandle)).NamesAmong (boundNames host) := by
  cases host <;> decide +kernel

theorem Invocation.namesAmong_exceptionCheck (host : Host) :
    (Step.block (host.exceptionCheck slotName)).NamesAmong (boundNames host) := by
  -- The check is a finished text by then, so its lines are read and not its steps.
  unfold Step.NamesAmong Host.exceptionCheck
  rw [Step.namesGiven_listingText]
  cases host <;> decide +kernel

/-- Calling a delegate captures no name. -/
theorem Invocation.captureFree {result : List Step}
    (harrive : Crossing.arrive delegate.host.language delegate.host.nativeLanguage
      delegate.host.language reservedNames delegate.params = .ok arrivals)
    (hresult : resultSteps delegate = .ok result) :
    CaptureFree delegate.host (delegate.params.map (·.identifier delegate.host.language))
      (boundNames delegate.host) [.line (callText delegate.host symbols arrivals)] arrivals
      (bodySteps delegate symbols arrivals result) := by
  unfold bodySteps
  rw [List.append_assoc]
  refine .of_arrive harrive (boundNames_subset _) ?_
  obtain ⟨hslot, hhandle⟩ := namesAmong_own delegate.host
  have hcheck := namesAmong_exceptionCheck delegate.host
  -- First what stands before the conversions, then the call with the check, and then the result.
  simp only [List.forall_mem_append, List.forall_mem_cons]
  exact ⟨⟨.inr hslot, .inr hhandle, .inr (Step.namesAmong_blank _), by simp⟩,
    ⟨namesAmong_callLine delegate _, .inr (Step.namesAmong_blank _), .inr hcheck, by simp⟩,
    fun step hstep => .inr (namesAmong_result hresult step hstep)⟩

theorem Callback.namesAmong_handOver (delegate : ResolvedDelegate) (bound : List String) :
    ∀ step ∈ handOverSteps delegate, step.NamesAmong bound := by
  have hvalue : ∀ host : Host, namesNothing (hostReturnName host) = true := by
    intro host
    cases host <;> decide
  have hstatement : (Step.line (delegate.host.suppressDestroy (hostReturnName delegate.host)
      delegate.returnNullness.isNullable)).NamesAmong bound := by
    cases delegate.host with
    | kotlin =>
        show (Step.line (hostReturnName .kotlin ++ _ ++ _)).NamesAmong bound
        rw [String.append_assoc]
        exact Step.namesAmong_of_opening (hvalue .kotlin) _ _
    | swift =>
        show (Step.line (hostReturnName .swift ++ _ ++ _)).NamesAmong bound
        rw [String.append_assoc]
        exact Step.namesAmong_of_opening (hvalue .swift) _ _
  unfold handOverSteps
  split
  · simpa using hstatement
  · simp

theorem Callback.namesAmong_calling {calling : List Step}
    (h : callSteps delegate symbols (callText arrivals) = .ok calling) :
    ∀ step ∈ calling, step.NamesAmong (boundNames delegate.host) := by
  unfold callSteps at h
  split at h
  · obtain ⟨conversion, -, h⟩ := bind_eq_ok h
    cases h
    have hvalue : ∀ call, (Step.line (delegate.host.bind (hostReturnName delegate.host)
        call)).NamesAmong (boundNames delegate.host) := by
      cases delegate.host <;>
        exact Host.namesAmong_bind _ (by decide) (by decide)
    have hconverted : ∀ value, (Step.line (delegate.host.bind returnName value)).NamesAmong
        (boundNames delegate.host) := by
      refine Host.namesAmong_bind _ (by decide) ?_
      cases delegate.host <;> decide
    have hreturn : ∀ returned, (Step.line (delegate.host.callbackReturn symbols.functionType
        returned)).NamesAmong (boundNames delegate.host) := by
      intro returned
      cases delegate.host with
      | kotlin =>
          show (Step.line ("return@" ++ symbols.functionType ++ " " ++ returned)).NamesAmong _
          rw [String.append_assoc, String.append_assoc]
          exact Step.namesAmong_of_opening (by decide) _ _
      | swift => exact Step.namesAmong_return _ _
    have hhandOver := namesAmong_handOver delegate (boundNames delegate.host)
    cases conversion with
    | none =>
        simp only [returningSteps, List.forall_mem_append, List.forall_mem_cons]
        exact ⟨⟨⟨⟨hvalue _, by simp⟩, by simp⟩, hhandOver⟩, by simp, hreturn _, by simp⟩
    | some template =>
        simp only [returningSteps, List.forall_mem_append, List.forall_mem_cons]
        exact ⟨⟨⟨⟨hvalue _, by simp⟩, hconverted _, by simp⟩, hhandOver⟩, by simp, hreturn _,
          by simp⟩
  · cases h
    have hcall : (Step.line (callText arrivals)).NamesAmong (boundNames delegate.host) := by
      unfold callText
      rw [String.append_assoc, String.append_assoc]
      exact Step.namesAmong_of_opening (by decide) _ _
    simpa using hcall

theorem Callback.namesAmong_own (host : Host) :
    (Step.line (host.contextGuard contextName)).NamesAmong (boundNames host) ∧
      (Step.line "\x7d").NamesAmong (boundNames host) := by
  cases host <;> decide +kernel

theorem Callback.namesAmong_boxes (host : Host) (value : String) :
    (Step.line (host.bind (boxName host) value)).NamesAmong (boundNames host) ∧
      (Step.line (host.bind closureName value)).NamesAmong (boundNames host) := by
  cases host <;>
    exact ⟨Host.namesAmong_bind _ (by decide) (by decide) _,
      Host.namesAmong_bind _ (by decide) (by decide) _⟩

/-- Being called by native code captures no name. -/
theorem Callback.captureFree {calling : List Step}
    (harrive : Crossing.arrive delegate.host.nativeLanguage delegate.host.language
      delegate.host.language (reservedNames delegate.host) delegate.params = .ok arrivals)
    (hcalling : callSteps delegate symbols (callText arrivals) = .ok calling) :
    CaptureFree delegate.host (delegate.params.map (·.identifier delegate.host.language))
      (boundNames delegate.host) [] arrivals (bodySteps delegate symbols arrivals calling) := by
  unfold bodySteps
  rw [List.append_assoc]
  refine .of_arrive harrive (boundNames_subset _) ?_
  intro step hstep
  refine .inr ?_
  revert step
  have hopening := Step.namesAmong_return (boundNames delegate.host)
  obtain ⟨hguard, hclosing⟩ := namesAmong_own delegate.host
  have hboxes := namesAmong_boxes delegate.host
  -- First what stands before the conversions, then the call of the closure, and then the end.
  simp only [List.forall_mem_append, List.forall_mem_cons]
  exact ⟨⟨hopening _, by simp, hguard, by simp, (hboxes _).1, (hboxes _).2, by simp, by simp⟩,
    namesAmong_calling hcalling, by simp, hclosing, by simp⟩

end

/-! ### Bindings -/

section

variable {types : Reflection} {settings : Settings} {native : NativeLayer} {key : TypeKey}

/-- The two bodies of the bindings of a delegate, and how the parameters arrive in each. -/
structure Wrapper.HasBodies (wrapper : Wrapper) (delegate : ResolvedDelegate)
    (symbols : NativeSymbols) (leaving entering : List Crossing.Arrival)
    (calling called : List Step) : Prop where
  /-- How the parameters arrive in native code. -/
  leaving_eq : Crossing.arrive delegate.host.language delegate.host.nativeLanguage
    delegate.host.language Invocation.reservedNames delegate.params = .ok leaving
  /-- How they arrive in the host. -/
  entering_eq : Crossing.arrive delegate.host.nativeLanguage delegate.host.language
    delegate.host.language (Callback.reservedNames delegate.host) delegate.params = .ok entering
  /-- The body around the native call. -/
  calling_eq : wrapper.invoke.text =
    delegate.host.functionText (Invocation.declaration delegate calling)
  /-- What native code is given. -/
  arguments_eq : wrapper.invoke.nativeArguments = Invocation.argumentsFor delegate.host leaving
  /-- The body around the call of the closure. -/
  called_eq : wrapper.createCallable =
    Callback.factory delegate.host Callback.creatorName symbols.functionType called

/--
**Converting parameters captures no name.**  Bindings of a delegate are written
around two bodies, that of the member that calls it and that of its callback.  In
both, and whatever the parameters are called, converted values get names that differ
from each other, from all parameters and from all other names that the body gives.
-/
theorem wrap_captures_no_name {catalogue after : Catalogue} {wrapper : Wrapper}
    (hreached : catalogue.Reached types settings.unspecified)
    (h : (wrap types settings native key).on catalogue = some (.ok wrapper, after)) :
    ∃ (type : ManagedType) (signature : Signature) (symbols : NativeSymbols)
      (delegate : ResolvedDelegate) (leaving entering : List Crossing.Arrival)
      (calling called : List Step),
      let host := settings.host
      let identifiers := signature.params.map fun param =>
        Identifier.escape host.language param.name
      types.get? key = some type ∧
      type.invoke = some signature ∧
      native.get? key = some symbols ∧
      (∃ left, (resolve types settings key).on .empty = some (.ok delegate, left)) ∧
      delegate.host = host ∧
      wrapper.HasBodies delegate symbols leaving entering calling called ∧
      CaptureFree host identifiers (Invocation.boundNames host)
        [.line (Invocation.callText host symbols leaving)] leaving calling ∧
      CaptureFree host identifiers (Callback.boundNames host) [] entering called := by
  obtain ⟨type, fullName, symbols, delegate, hnamed, hsymbols, hresolved, -, -, -, hwritten⟩ :=
    wrapAfresh_eq_ok (wrapAfresh_of_on hreached h)
  obtain ⟨found, baseSignature, hsurvey, rfl, -⟩ := resolveAfresh_succ_eq_ok hresolved
  obtain ⟨hfound, -⟩ := survey_names hsurvey hnamed
  obtain ⟨-, -, hsigned, -⟩ := survey_eq_ok hsurvey
  have hidentifiers : found.params.map (·.identifier settings.host.language) =
      found.signature.params.map fun param =>
        Identifier.escape settings.host.language param.name := by
    have hnames := congrArg (List.map (Identifier.escape settings.host.language))
      (survey_paramNames hsurvey)
    rw [List.map_map, List.map_map] at hnames
    exact hnames.symm
  obtain ⟨leaving, result, hleaving, hresult, hinvoke⟩ :=
    Invocation.ofDelegate_eq_ok hwritten.invoke
  obtain ⟨entering, calling, hentering, hcalling, hcallable⟩ :=
    Callback.creator_eq_ok hwritten.createCallable
  let delegate := found.delegate settings key baseSignature
  have hleave : CaptureFree settings.host (found.params.map (·.identifier settings.host.language))
      (Invocation.boundNames settings.host)
      [.line (Invocation.callText settings.host symbols leaving)] leaving
      (Invocation.bodySteps delegate symbols leaving result) :=
    Invocation.captureFree hleaving hresult
  have henter : CaptureFree settings.host (found.params.map (·.identifier settings.host.language))
      (Callback.boundNames settings.host) [] entering
      (Callback.bodySteps delegate symbols entering calling) :=
    Callback.captureFree hentering hcalling
  rw [hidentifiers] at hleave henter
  exact ⟨type, found.signature, symbols, delegate, leaving, entering, _, _,
    (namedDelegateAt_eq_ok hnamed).1, hfound ▸ invoke_of_supportedSignature hsigned, hsymbols,
    exists_on_empty_iff.mpr hresolved, rfl,
    ⟨hleaving, hentering, congrArg Invocation.text hinvoke,
      congrArg Invocation.nativeArguments hinvoke, hcallable⟩,
    hleave, henter⟩

/-- A delegate whose parameters are called after the names that its bindings use. -/
def imitatingTypes : Reflection :=
  let params : List Param :=
    [{ name := "exception", type := .string }, { name := "__p_exceptionC", type := .int32 },
      { name := "exception", type := .string }]
  (TypeStore.empty.register
    (.namedDelegate "App.Run" { params, returnType := .void })).2.reflection

/-- Names that are taken are passed over, also where a parameter took one. -/
theorem wrap_imitating :
    ∃ (wrapper : Wrapper) (after : Catalogue) (leaving : List Crossing.Arrival)
      (foreign calling : List Step),
      (wrap imitatingTypes {} (.conventional imitatingTypes imitatingTypes.keys) ⟨32⟩).on .empty =
        some (.ok wrapper, after) ∧
      wrapper.invoke.nativeArguments = Invocation.argumentsFor .kotlin leaving ∧
      wrapper.invoke.nativeArguments =
        ["__selfC", "__p1_exceptionC", "__p_exceptionC", "__p2_exceptionC", "__exceptionC"] ∧
      CaptureFree .kotlin ["exception", "__p_exceptionC", "exception"]
        (Invocation.boundNames .kotlin) foreign leaving calling := by
  have harguments : ((wrap imitatingTypes {}
      (.conventional imitatingTypes imitatingTypes.keys) ⟨32⟩).on .empty).map
        (fun (outcome, _) => outcome.toOption.map (·.invoke.nativeArguments)) =
      some (some ["__selfC", "__p1_exceptionC", "__p_exceptionC", "__p2_exceptionC",
        "__exceptionC"]) := by
    decide +kernel
  have hidentifiers : ((imitatingTypes.get? ⟨32⟩).bind (·.invoke)).map
      (·.params.map fun param => Identifier.escape .kotlin param.name) =
      some ["exception", "__p_exceptionC", "exception"] := by
    decide +kernel
  obtain ⟨⟨outcome, after⟩, hrun, houtcome⟩ := Option.map_eq_some_iff.mp harguments
  cases outcome with
  | error refusal => cases houtcome
  | ok wrapper =>
      obtain ⟨type, signature, symbols, delegate, leaving, entering, calling, called, htype,
        hinvoke, -, -, hhost, hbodies, hfree, -⟩ :=
        wrap_captures_no_name Catalogue.reached_empty hrun
      rw [htype, Option.bind_some, hinvoke] at hidentifiers
      have hspelled : (signature.params.map fun param =>
          Identifier.escape (Settings.host {}).language param.name) = _ :=
        Option.some.inj hidentifiers
      have hleaving := hbodies.arguments_eq
      rw [hhost] at hleaving
      rw [hspelled] at hfree
      exact ⟨wrapper, after, leaving, _, calling, hrun, hleaving, Option.some.inj houtcome, hfree⟩

end

end Interop
