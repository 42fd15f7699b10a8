/-
A delegate's result is touched only after the exception was looked at.

The body of `invoke` is put together from steps, and finished texts are spliced into
it: the statements that convert parameters, and the host's exception check.  Here the
body is written out once more, line by line and for each host, and the text is cut
into lines and compared with it.  So what stands before the check, what belongs to it
and what follows it can be read off.

Parameters may be called anything, also after the words the body itself uses.  They
get no further than the arguments of the native call and the middle of statements, so
no line starts with one of them.
-/
import Interop.Proofs.ConvertedParameters

namespace Interop

open Listing

namespace Invocation

/-! ### The lines of the body -/

/-- The place where native code leaves an exception. -/
def slotLine : Host → String
  | .kotlin => "val __exceptionC = PointerByReference()"
  | .swift => "var __exceptionC: System_Exception_t?"

/-- The handle of the wrapper itself. -/
def handleLine : Host → String
  | .kotlin => "val __selfC = this.__handle"
  | .swift => "let __selfC = self.__handle"

/-- How native code is told the place for an exception. -/
def slotArgument : Host → String
  | .kotlin => "__exceptionC"
  | .swift => "&__exceptionC"

/-- The lines that look at that place and raise what they find. -/
def checkLines : Host → List String
  | .kotlin =>
    ["val __exceptionCValue = __exceptionC.value",
      "if (__exceptionCValue != null) \x7b",
      "    throw System_Exception(__exceptionCValue).toKotlinException()",
      "\x7d"]
  | .swift =>
    ["if let __exceptionC \x7b",
      "    let __exception = System_Exception(handle: __exceptionC)",
      "    let __error = __exception.swiftError",
      "",
      "    throw __error",
      "\x7d"]

/-- The call, which gives its result a name if there is one. -/
def nativeCallLine (host : Host) (call : String) : Option (Option Template) → String
  | none => call
  | some _ => host.bind "__returnValueC" call

/-- The return of the result, which has another name if it was converted. -/
def returnLine : Option Template → String
  | none => "return __returnValueC"
  | some _ => "return __returnValue"

/-- The lines behind the check, given the conversion of the result if there is a result. -/
def resultLines (host : Host) : Option (Option Template) → List String
  | none => []
  | some none => ["", returnLine none]
  | some (some template) =>
    ["", host.bind "__returnValue" (template.apply "__returnValueC"), returnLine (some template)]

/-- All lines of the body. -/
def bodyLines (host : Host) (arrivals : List Crossing.Arrival) (call : String)
    (result : Option (Option Template)) : List String :=
  [slotLine host, handleLine host, ""]
    ++ Crossing.conversionLines host arrivals
    ++ [nativeCallLine host call result, ""]
    ++ checkLines host
    ++ resultLines host result

/-- A call of a delegate that looks at the exception before it touches the result.  `result` is the
conversion of the result, if there is a result. -/
structure ChecksFirst (invocation : Invocation) (delegate : ResolvedDelegate)
    (arrivals : List Crossing.Arrival) (result : Option (Option Template)) : Prop where
  /-- Every parameter arrives in native code, in order. -/
  arrives : List.Forall₂ (Crossing.Arrives delegate.host.language delegate.host.nativeLanguage
    delegate.host.language) delegate.params arrivals
  /-- Native code is given the handle, one argument for each parameter, and the place for an
  exception. -/
  arguments_eq : invocation.nativeArguments =
    "__selfC" :: arrivals.map (·.argument) ++ [slotArgument delegate.host]
  /-- There is a result if one is reported, -/
  isSome_eq : result.isSome = invocation.isReturning
  /-- and it is converted from native code to the host. -/
  conversion : ∀ conversion ∈ result, delegate.returnDescription.convert
    delegate.host.nativeLanguage delegate.host.language delegate.returnNullness = .ok conversion
  /-- These are all the lines there are, and the native call is the one that is reported. -/
  lines_eq : Lines.ofText invocation.text =
    delegate.host.functionOpening (declaration delegate []) ++
      (bodyLines delegate.host arrivals
        (invocation.nativeFunction ++ "(" ++ ", ".intercalate invocation.nativeArguments ++ ")")
        result).map (indented 1) ++
      ["\x7d"]
  /-- The only line that returns is the last one of a body with a result. -/
  returns_eq : (Lines.ofText invocation.text).filter (Lines.OpensWith "return " ·) =
    (result.map fun conversion => indented 1 (returnLine conversion)).toList
  /-- No converted parameter is called like the result. -/
  names_ne : ∀ name ∈ Crossing.givenNames arrivals, name ≠ "__returnValueC" ∧
    name ≠ "__returnValue"
  /-- Nothing between the call and the end of the check mentions the result. -/
  check_apart : ∀ line ∈ "" :: checkLines delegate.host,
    ¬"__returnValue".toList <:+: line.toList

/-! ### Steps and lines -/

theorem slotLine_eq (host : Host) : host.exceptionSlot slotName = slotLine host := by
  cases host <;> decide

theorem handleLine_eq (host : Host) : host.bind handleName host.selfHandle = handleLine host := by
  cases host <;> decide

theorem slotArgument_eq (host : Host) : host.exceptionArgument slotName = slotArgument host := by
  cases host <;> decide

theorem whole_firstLines (host : Host) :
    ∀ line ∈ [slotLine host, handleLine host, ""], Lines.Whole line := by
  simp only [List.forall_mem_cons]
  cases host with
  | kotlin => exact ⟨.ofList (by decide), .ofList (by decide), Lines.whole_empty, nofun⟩
  | swift => exact ⟨.ofList (by decide), .ofList (by decide), Lines.whole_empty, nofun⟩

theorem whole_checkLines (host : Host) : ∀ line ∈ checkLines host, Lines.Whole line := by
  cases host with
  | kotlin =>
      simp only [checkLines, List.forall_mem_cons]
      exact ⟨.ofList (by decide), .ofList (by decide), .ofList (by decide), .ofList (by decide),
        nofun⟩
  | swift =>
      simp only [checkLines, List.forall_mem_cons]
      exact ⟨.ofList (by decide), .ofList (by decide), .ofList (by decide), Lines.whole_empty,
        .ofList (by decide), .ofList (by decide), nofun⟩

theorem getLast?_checkLines (host : Host) : (checkLines host).getLast? = some "\x7d" := by
  cases host <;> rfl

/-- The check is a finished text, and these are its lines. -/
theorem checkLines_eq (host : Host) :
    Lines.ofText (host.exceptionCheck slotName) = checkLines host := by
  have hwritten : (run {} (host.exceptionCheckSteps slotName)).lines = checkLines host := by
    cases host <;> decide
  rw [Host.exceptionCheck, listingText, ofText_text, hwritten]
  · rw [hwritten]
    exact whole_checkLines host
  · rw [hwritten, getLast?_checkLines]
    decide

theorem check_apart (host : Host) : ∀ line ∈ "" :: checkLines host,
    ¬"__returnValue".toList <:+: line.toList := by
  cases host <;> decide +kernel

/-- The steps behind the check. -/
def stepsOfResult (host : Host) : Option (Option Template) → List Step
  | none => []
  | some conversion => .blank :: returningSteps host conversion

theorem flatMap_lines_stepsOfResult (host : Host) (result : Option (Option Template)) :
    (stepsOfResult host result).flatMap Step.lines = resultLines host result := by
  match result with
  | none | some none | some (some template) => rfl

variable {delegate : ResolvedDelegate} {symbols : NativeSymbols}
  {arrivals : List Crossing.Arrival} {result : Option (Option Template)}

/-- What follows the check depends on whether there is a result, and on its conversion. -/
theorem resultSteps_eq_ok {steps : List Step} (h : resultSteps delegate = .ok steps) :
    ∃ result : Option (Option Template), result.isSome = delegate.isReturning ∧
      (∀ conversion ∈ result, delegate.returnDescription.convert delegate.host.nativeLanguage
        delegate.host.language delegate.returnNullness = .ok conversion) ∧
      steps = stepsOfResult delegate.host result := by
  unfold resultSteps at h
  split at h
  · rename_i hreturning
    obtain ⟨conversion, hconversion, h⟩ := bind_eq_ok h
    cases h
    refine ⟨some conversion, hreturning.symm, ?_, rfl⟩
    rintro _ ⟨⟩
    exact hconversion
  · rename_i hreturning
    cases h
    exact ⟨none, (Bool.eq_false_iff.mpr hreturning).symm, nofun, rfl⟩

theorem callLine_eq (hresult : result.isSome = delegate.isReturning) (call : String) :
    callLine delegate call = nativeCallLine delegate.host call result := by
  rw [callLine, ← hresult]
  cases result <;> rfl

theorem level_bodySteps : ∀ step ∈ bodySteps delegate symbols arrivals
    (stepsOfResult delegate.host result), step.Level := by
  have hresult : ∀ step ∈ stepsOfResult delegate.host result, step.Level := by
    match result with
    | none | some none | some (some template) =>
        simp [stepsOfResult, returningSteps, Step.Level]
  have hconversions := Crossing.level_conversionSteps delegate.host arrivals
  simp only [bodySteps, List.forall_mem_append]
  exact ⟨⟨⟨by simp [Step.Level], hconversions⟩, by simp [Step.Level]⟩, hresult⟩

/-- The steps write the lines of the body. -/
theorem flatMap_lines_bodySteps (hresult : result.isSome = delegate.isReturning)
    (hstatements : ∀ statement ∈ Crossing.statements delegate.host arrivals,
      Lines.Full statement) :
    (bodySteps delegate symbols arrivals (stepsOfResult delegate.host result)).flatMap Step.lines =
      bodyLines delegate.host arrivals (symbols.invokeFunction ++ "(" ++
        ", ".intercalate (argumentsFor delegate.host arrivals) ++ ")") result := by
  simp only [bodySteps, bodyLines, List.flatMap_append,
    Crossing.flatMap_lines_conversionSteps hstatements, flatMap_lines_stepsOfResult]
  simp [Step.lines, slotLine_eq, handleLine_eq, checkLines_eq, callLine_eq hresult]

/-! ### Lines that are given back -/

/-- Every line of the body is whole, and the last one is not empty. -/
theorem whole_bodyLines {host : Host} {call : String}
    (hstatements : ∀ statement ∈ Crossing.statements host arrivals, Lines.Full statement)
    (hcall : Lines.Full call)
    (hclosed : ∀ template, result = some (some template) → template.Closed) :
    ∀ line ∈ bodyLines host arrivals call result, Lines.Whole line := by
  have hnative : Lines.Whole (nativeCallLine host call result) := by
    cases result with
    | none => exact hcall.toWhole
    | some conversion => exact (host.full_bind (.ofList (by decide)) hcall).toWhole
  have hresult : ∀ line ∈ resultLines host result, Lines.Whole line := by
    match result, hclosed with
    | none, _ => nofun
    | some none, _ =>
        simp only [resultLines, List.forall_mem_cons]
        exact ⟨Lines.whole_empty, .ofList (by decide), nofun⟩
    | some (some template), hclosed =>
        have happlied := (hclosed template rfl).full_apply
          (show OneLine "__returnValueC" from .ofList (by decide))
        simp only [resultLines, List.forall_mem_cons]
        exact ⟨Lines.whole_empty, (host.full_bind (.ofList (by decide)) happlied).toWhole,
          .ofList (by decide), nofun⟩
  simp only [bodyLines, List.forall_mem_append]
  exact ⟨⟨⟨⟨whole_firstLines host, Crossing.whole_conversionLines hstatements⟩, by
    simpa [Lines.whole_empty] using hnative⟩, whole_checkLines host⟩, hresult⟩

theorem getLast?_bodyLines (host : Host) (call : String) :
    (bodyLines host arrivals call result).getLast? ≠ some "" := by
  rw [bodyLines, List.getLast?_append]
  match result with
  | none =>
      rw [resultLines, List.getLast?_nil, Option.none_or, List.getLast?_append, getLast?_checkLines]
      simp
  | some none | some (some template) => simp [resultLines, returnLine]

/-! ### Lines that return -/

/-- The native function that goes with a managed name has no blank in its name. -/
theorem blank_not_mem_invokeFunction (fullName : String) :
    ' ' ∉ (Identifier.ofFullName fullName ++ "_Invoke").toList := by
  rw [String.toList_append, List.mem_append, not_or]
  refine ⟨fun h => ?_, by decide⟩
  exact absurd (Identifier.isPlain_of_mem_ofFullName h) (by decide)

/-- So a call of it is no return, whatever it is given. -/
theorem not_opensWith_call (fullName : String) (arguments : List String) :
    ¬Lines.OpensWith "return " (Identifier.ofFullName fullName ++ "_Invoke" ++ "(" ++
      ", ".intercalate arguments ++ ")") := by
  let function := Identifier.ofFullName fullName ++ "_Invoke"
  have hblank : ' ' ∉ function.toList := blank_not_mem_invokeFunction fullName
  have hlong : "return ".toList.length ≤ function.toList.length := by
    have hmark : "return ".toList.length = "_Invoke".toList.length := by simp
    rw [String.toList_append, List.length_append, hmark]
    exact Nat.le_add_left _ _
  have hhead : function.toList.head?.any (· != ' ') = true := by
    cases hlist : function.toList with
    | nil =>
        rw [hlist] at hlong
        cases hlong
    | cons first others =>
        have hfirst : first ≠ ' ' := by
          rintro rfl
          exact hblank (hlist ▸ List.mem_cons_self)
        simpa using hfirst
  rw [String.append_assoc, String.append_assoc, Lines.OpensWith, String.toList_append,
    Lines.dropWhile_append_of_head? _ hhead]
  intro hprefix
  have hinside : "return ".toList <+: function.toList :=
    List.prefix_of_prefix_length_le hprefix (List.prefix_append _ _) hlong
  exact hblank (hinside.subset (by decide))

theorem not_opensWith_firstLines (host : Host) :
    ∀ line ∈ [slotLine host, handleLine host, ""], ¬Lines.OpensWith "return " line := by
  simp only [List.forall_mem_cons, slotLine, handleLine]
  cases host <;>
    exact ⟨Lines.opensWith_ofList.not.mpr (by decide), Lines.opensWith_ofList.not.mpr (by decide),
      by decide, nofun⟩

theorem not_opensWith_checkLines (host : Host) :
    ∀ line ∈ checkLines host, ¬Lines.OpensWith "return " line := by
  cases host with
  | kotlin =>
      simp only [checkLines, List.forall_mem_cons]
      refine ⟨?_, ?_, ?_, ?_, nofun⟩ <;> exact Lines.opensWith_ofList.not.mpr (by decide)
  | swift =>
      simp only [checkLines, List.forall_mem_cons]
      refine ⟨?_, ?_, ?_, by decide, ?_, ?_, nofun⟩ <;>
        exact Lines.opensWith_ofList.not.mpr (by decide)

theorem opensWith_returnLine (conversion : Option Template) :
    Lines.OpensWith "return " (returnLine conversion) := by
  cases conversion with
  | none => exact Lines.opensWith_ofList.mpr (by decide)
  | some template => exact Lines.opensWith_ofList.mpr (by decide)

/-- The only line of the body that returns is its last one. -/
theorem filter_bodyLines {host : Host} {call : String}
    (hcall : ¬Lines.OpensWith "return " call) :
    (bodyLines host arrivals call result).filter (Lines.OpensWith "return " ·) =
      (result.map returnLine).toList := by
  have hword : Lines.Apart "return " host.bindingWord := by cases host <;> decide
  have hbind := host.not_opensWith_bind hword
  have hempty : ¬Lines.OpensWith "return " "" := by decide
  have hnative : ¬Lines.OpensWith "return " (nativeCallLine host call result) := by
    cases result with
    | none => exact hcall
    | some conversion => exact hbind _ _
  have hbefore : ([slotLine host, handleLine host, ""] ++ Crossing.conversionLines host arrivals ++
      [nativeCallLine host call result, ""] ++ checkLines host).filter
        (Lines.OpensWith "return " ·) = [] := by
    simp only [List.filter_eq_nil_iff, decide_eq_true_eq, List.forall_mem_append]
    exact ⟨⟨⟨not_opensWith_firstLines host,
      Crossing.not_opensWith_conversionLines hword (by decide) arrivals⟩,
      by simpa [hempty] using hnative⟩, not_opensWith_checkLines host⟩
  rw [bodyLines, List.filter_append, hbefore, List.nil_append]
  match result with
  | none => rfl
  | some none => simp [resultLines, hempty, opensWith_returnLine]
  | some (some template) => simp [resultLines, hempty, hbind, opensWith_returnLine]

/-! ### The member -/

theorem functionOpening_declaration (host : Host) (delegate : ResolvedDelegate)
    (body : List Step) :
    host.functionOpening (declaration delegate body) =
      host.functionOpening (declaration delegate []) :=
  host.functionOpening_withBody (declaration delegate []) (listingText body)

theorem whole_functionOpening (htidy : delegate.Tidy) (body : List Step) :
    ∀ line ∈ delegate.host.functionOpening (declaration delegate body), Lines.Whole line := by
  have hname : OneLine "invoke" := by decide
  refine delegate.host.whole_functionOpening hname ?_ ?_
  · intro text htext
    obtain ⟨param, hparam, rfl⟩ := List.mem_map.mp htext
    exact (htidy.params param hparam).declaration delegate.host delegate.host.language
  · intro name hname
    simp only [declaration] at hname
    split at hname
    · cases hname
      exact htidy.returnTypeName _
    · cases hname

theorem oneLine_argumentsFor (htidy : delegate.Tidy)
    (harrives : List.Forall₂ (Crossing.Arrives delegate.host.language delegate.host.nativeLanguage
      delegate.host.language) delegate.params arrivals) :
    ∀ argument ∈ argumentsFor delegate.host arrivals, OneLine argument := by
  have hown : OneLine handleName := by decide
  have hslot : OneLine (delegate.host.exceptionArgument slotName) := by
    cases delegate.host <;> decide
  simp only [argumentsFor, List.cons_append, List.forall_mem_cons, List.forall_mem_append]
  exact ⟨hown, Crossing.oneLine_arguments harrives htidy.params, hslot, nofun⟩

/-- The only line of the member that returns is the last one of its body. -/
theorem filter_lines {call : String} (hcall : ¬Lines.OpensWith "return " call) :
    (delegate.host.functionOpening (declaration delegate []) ++
        (bodyLines delegate.host arrivals call result).map (indented 1) ++ ["\x7d"]).filter
          (Lines.OpensWith "return " ·) =
      (result.map fun conversion => indented 1 (returnLine conversion)).toList := by
  have hopening : (delegate.host.functionOpening (declaration delegate [])).filter
      (Lines.OpensWith "return " ·) = [] := by
    have hwords : ∀ word ∈ Host.functionWords, Lines.Apart "return " word := by decide
    simpa using delegate.host.not_opensWith_functionOpening hwords (declaration delegate [])
  have hclosing : ["\x7d"].filter (Lines.OpensWith "return " ·) = [] := by decide
  rw [List.filter_append, List.filter_append, hopening, hclosing,
    Lines.filter_opensWith_indented, filter_bodyLines hcall, List.append_nil, List.nil_append]
  cases result <;> rfl

/-- Converted parameters are called like nothing that the body keeps for itself. -/
theorem names_ne_of_arrive {source target written : Language} {params : List Crossing}
    (h : Crossing.arrive source target written reservedNames params = .ok arrivals) :
    ∀ name ∈ Crossing.givenNames arrivals, name ≠ "__returnValueC" ∧ name ≠ "__returnValue" := by
  obtain ⟨-, hnew⟩ := Crossing.arrive_givenNames h
  intro name hname
  obtain ⟨hreserved, -⟩ := hnew name hname
  constructor
  · rintro rfl
    exact hreserved (by decide)
  · rintro rfl
    exact hreserved (by decide)

/-- The member that calls a tidy delegate looks at the exception first. -/
theorem checksFirst_of_ofDelegate {invocation : Invocation} {fullName : String}
    (htidy : delegate.Tidy)
    (hfunction : symbols.invokeFunction = Identifier.ofFullName fullName ++ "_Invoke")
    (h : ofDelegate delegate symbols = .ok invocation) :
    ∃ arrivals result, invocation.ChecksFirst delegate arrivals result := by
  obtain ⟨arrivals, steps, harrive, hsteps, rfl⟩ := ofDelegate_eq_ok h
  obtain ⟨result, hresult, hconversion, rfl⟩ := resultSteps_eq_ok hsteps
  let call := symbols.invokeFunction ++ "(" ++
    ", ".intercalate (argumentsFor delegate.host arrivals) ++ ")"
  have harrives := Crossing.arrives_of_arrive harrive
  have hstatements := Crossing.full_statements harrives htidy.params delegate.host
  have hcall : Lines.Full call := by
    refine Lines.full_call ?_ (oneLine_argumentsFor htidy harrives)
    rw [hfunction]
    exact (Identifier.oneLine_ofFullName fullName).append (by decide)
  have hnoReturn : ¬Lines.OpensWith "return " call := by
    simp only [call, hfunction]
    exact not_opensWith_call fullName _
  have hclosed : ∀ template, result = some (some template) → template.Closed := by
    rintro template rfl
    exact htidy.result.convert (hconversion _ rfl)
  have hwhole := whole_bodyLines hstatements hcall hclosed
  have hlines : (bodySteps delegate symbols arrivals (stepsOfResult delegate.host result)).flatMap
      Step.lines = bodyLines delegate.host arrivals call result :=
    flatMap_lines_bodySteps hresult hstatements
  have hbody : Lines.ofText (listingText (bodySteps delegate symbols arrivals
      (stepsOfResult delegate.host result))) = bodyLines delegate.host arrivals call result := by
    rw [ofText_listingText level_bodySteps (hlines ▸ hwhole) (hlines ▸ getLast?_bodyLines _ _)]
    exact hlines
  have htext : Lines.ofText (delegate.host.functionText (declaration delegate
      (bodySteps delegate symbols arrivals (stepsOfResult delegate.host result)))) =
      delegate.host.functionOpening (declaration delegate []) ++
        (bodyLines delegate.host arrivals call result).map (indented 1) ++ ["\x7d"] := by
    rw [Host.ofText_functionText (whole_functionOpening htidy _) hbody hwhole,
      functionOpening_declaration]
  have harguments : argumentsFor delegate.host arrivals =
      "__selfC" :: arrivals.map (·.argument) ++ [slotArgument delegate.host] := by
    rw [argumentsFor, slotArgument_eq]
    rfl
  refine ⟨arrivals, result, ⟨harrives, harguments, hresult, hconversion, ?_, ?_,
    names_ne_of_arrive harrive, check_apart _⟩⟩
  · exact htext
  · rw [htext]
    exact filter_lines hnoReturn

end Invocation

/-! ### Bindings -/

section

variable {types : Reflection} {settings : Settings} {native : NativeLayer} {key : TypeKey}

/--
**The exception is looked at before the result is touched.**  Whatever was requested
before, and whatever the parameters are called as long as no name breaks a line, the
member that calls a delegate is written from exactly these lines: the place for an
exception, the handle, the conversions, the one native call, the host's whole check,
and then, if the delegate returns something, the result and its return.
-/
theorem wrap_checks_first {catalogue after : Catalogue} {wrapper : Wrapper}
    (hreached : catalogue.Reached types settings.unspecified)
    (hconventional : ∀ symbols ∈ native.get? key, symbols = .conventional symbols.cTypeName)
    (hnames : ∀ signature ∈ (types.get? key).bind (·.invoke), ∀ param ∈ signature.params,
      OneLine param.name)
    (h : (wrap types settings native key).on catalogue = some (.ok wrapper, after)) :
    ∃ (type : ManagedType) (signature : Signature) (returned : ManagedType)
      (symbols : NativeSymbols) (delegate : ResolvedDelegate) (arrivals : List Crossing.Arrival)
      (result : Option (Option Template)),
      wrapper.MadeFrom types settings native key type signature returned symbols delegate ∧
      delegate.host = settings.host ∧
      delegate.params.map (·.name) = signature.params.map (·.name) ∧
      wrapper.invoke.nativeFunction = symbols.invokeFunction ∧
      (wrapper.invoke.isReturning = true ↔ returned.shape ≠ .void) ∧
      wrapper.invoke.ChecksFirst delegate arrivals result := by
  obtain ⟨type, signature, returned, symbols, delegate, hmade⟩ := exists_madeFrom hreached h
  obtain ⟨fullName, -, hname⟩ := hmade.name_eq
  have hfunction : symbols.invokeFunction = Identifier.ofFullName fullName ++ "_Invoke" := by
    rw [hconventional symbols hmade.symbols_eq, hname]
    rfl
  have hlines : ∀ param ∈ signature.params, OneLine param.name := by
    refine hnames signature ?_
    rw [hmade.type_eq]
    exact hmade.signature_eq
  have hwritten := hmade.written.invoke
  obtain ⟨arrivals, result, hchecks⟩ :=
    Invocation.checksFirst_of_ofDelegate (hmade.tidy hlines) hfunction hwritten
  obtain ⟨-, -, hcalled⟩ := hmade.written.symbols_eq
  exact ⟨type, signature, returned, symbols, delegate, arrivals, result, hmade, hmade.host_eq,
    hmade.paramNames, hcalled, hmade.written.isReturning_eq ▸ hmade.isReturning_iff, hchecks⟩

/-- A delegate whose parameter is called like the word for returning, and whose result is
converted. -/
def returningTypes : Reflection :=
  let params : List Param :=
    [{ name := "return", type := .string }, { name := "count", type := .int32 }]
  (TypeStore.empty.register (.namedDelegate "App.Ask" { params, returnType := .string })).2.reflection

/-- The name is kept apart from the word: one line returns, and that is the last one. -/
theorem wrap_returning :
    ∃ (wrapper : Wrapper) (after : Catalogue) (conversion : Option Template),
      (wrap returningTypes {} (.conventional returningTypes returningTypes.keys) ⟨32⟩).on .empty =
        some (.ok wrapper, after) ∧
      wrapper.invoke.nativeArguments = ["__selfC", "__returnC", "count", "__exceptionC"] ∧
      (Lines.ofText wrapper.invoke.text).filter (Lines.OpensWith "return " ·) =
        [indented 1 (Invocation.returnLine conversion)] := by
  have hrun : ((wrap returningTypes {} (.conventional returningTypes returningTypes.keys) ⟨32⟩).on
      .empty).map (fun (outcome, _) => outcome.toOption.map fun wrapper =>
        (wrapper.invoke.isReturning, wrapper.invoke.nativeArguments)) =
      some (some (true, ["__selfC", "__returnC", "count", "__exceptionC"])) := by
    decide +kernel
  obtain ⟨⟨outcome, after⟩, hon, houtcome⟩ := Option.map_eq_some_iff.mp hrun
  cases outcome with
  | error refusal => cases houtcome
  | ok wrapper =>
      obtain ⟨hreturning, harguments⟩ := Prod.mk.inj (Option.some.inj houtcome)
      obtain ⟨_, _, _, _, _, _, result, -, -, -, -, -, hchecks⟩ :=
        wrap_checks_first Catalogue.reached_empty (by decide +kernel) (by decide +kernel) hon
      obtain ⟨conversion, rfl⟩ := Option.isSome_iff_exists.mp (hchecks.isSome_eq.trans hreturning)
      exact ⟨wrapper, after, conversion, hon, harguments, hchecks.returns_eq⟩

end

end Interop
