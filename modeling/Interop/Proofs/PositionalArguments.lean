/-
Which argument and which statement belong to a parameter.

Parameters are gone through once, and two lists are filled on the way: one with an
argument for each of them, and one with a statement for those that are converted.  So
the lists have different lengths, and the statement of a parameter stands where so
many others are converted before it.

What ties it to the argument is the name that the converted value was given.  No other
argument is called like it, neither another converted value nor a parameter that keeps
its name, so nothing that is written later refers to it by mistake.

Nothing is filled in if one of the parameters cannot be converted.  Then the first
such parameter decides what the error is.
-/
import Interop.Proofs.Checked
import Interop.Proofs.ShadowedParameters

namespace Interop

namespace Crossing

section

variable {source target written : Language} {reserved : List String} {params : List Crossing}
  {arrivals : List Arrival} {param : Crossing} {position : Nat}

/-! ### Failing -/

/-- The first parameter that cannot be converted decides the error. -/
theorem arrive_eq_error_iff {error : ConversionError} :
    arrive source target written reserved params = .error error ↔
      ∃ param before after, params = before ++ param :: after ∧
        param.conversion source target = .error error ∧
        ∀ earlier ∈ before, ∃ conversion, earlier.conversion source target = .ok conversion := by
  rw [← error?_eq_some_iff, arrive, error?_arriveAmong, firstError?_map_eq_some_iff]

theorem exists_arrive_eq_ok_iff :
    (∃ arrivals, arrive source target written reserved params = .ok arrivals) ↔
      ∀ param ∈ params, ∃ conversion, param.conversion source target = .ok conversion := by
  rw [← error?_eq_none_iff, arrive, error?_arriveAmong, firstError?_map_eq_none_iff]

/-! ### Arguments -/

theorem length_arguments (h : List.Forall₂ (Arrives source target written) params arrivals) :
    (arguments arrivals).length = params.length := by
  rw [arguments, List.length_map, h.length_eq]

/-- A parameter arrives at its own position. -/
theorem exists_arrives_of_getElem?
    (h : List.Forall₂ (Arrives source target written) params arrivals)
    (hparam : params[position]? = some param) :
    ∃ arrival, arrivals[position]? = some arrival ∧
      Arrives source target written param arrival := by
  induction h generalizing position with
  | nil => cases hparam
  | cons hfirst _ ih =>
      cases position with
      | zero =>
          cases hparam
          exact ⟨_, rfl, hfirst⟩
      | succ position => exact ih hparam

/-- The argument at a position is that of what arrives there. -/
theorem getElem?_arguments (arrivals : List Arrival) (position : Nat) :
    (arguments arrivals)[position]? = arrivals[position]?.map Arrival.argument :=
  List.getElem?_map ..

/-- No two converted values are given one name. -/
theorem eq_of_givenName? (hnodup : (givenNames arrivals).Nodup) {other : Nat}
    {first second : Arrival} {name : String} (hfirst : arrivals[position]? = some first)
    (hsecond : arrivals[other]? = some second) (hgiven : first.givenName? = some name)
    (hgiven' : second.givenName? = some name) : other = position := by
  have happart := List.pairwise_iff_getElem.mp (List.pairwise_filterMap.mp hnodup)
  obtain ⟨hposition, rfl⟩ := List.getElem?_eq_some_iff.mp hfirst
  obtain ⟨hother, rfl⟩ := List.getElem?_eq_some_iff.mp hsecond
  rcases Nat.lt_trichotomy other position with hlt | heq | hlt
  · exact absurd rfl (happart other position hother hposition hlt name hgiven' name hgiven)
  · exact heq
  · exact absurd rfl (happart position other hposition hother hlt name hgiven name hgiven')

/-- **The name of a converted value is no other argument.** -/
theorem eq_of_argument_eq (h : arrive source target written reserved params = .ok arrivals)
    {name expression : String} (harrival : arrivals[position]? = some (.converted name expression))
    {other : Nat} (hother : (arguments arrivals)[other]? = some name) : other = position := by
  obtain ⟨hnodup, hnew⟩ := arrive_givenNames h
  have hgiven : name ∈ givenNames arrivals :=
    List.mem_filterMap.mpr ⟨_, List.mem_of_getElem? harrival, rfl⟩
  rw [getElem?_arguments] at hother
  obtain ⟨second, hsecond, hname⟩ := Option.map_eq_some_iff.mp hother
  cases second with
  | unchanged kept =>
      obtain rfl : kept = name := hname
      have hkept : kept ∈ keptNames arrivals :=
        List.mem_filterMap.mpr ⟨_, List.mem_of_getElem? hsecond, rfl⟩
      exact absurd (keptNames_subset (arrives_of_arrive h) hkept) (hnew kept hgiven).2
  | converted given text =>
      obtain rfl : given = name := hname
      exact eq_of_givenName? hnodup harrival hsecond rfl rfl

/-! ### Statements -/

theorem statements_append (host : Host) (before after : List Arrival) :
    statements host (before ++ after) = statements host before ++ statements host after :=
  List.filterMap_append

theorem statements_unchanged (host : Host) (name : String) (rest : List Arrival) :
    statements host (.unchanged name :: rest) = statements host rest := rfl

theorem statements_converted (host : Host) (name expression : String) (rest : List Arrival) :
    statements host (.converted name expression :: rest) =
      host.bind name expression :: statements host rest := rfl

/-- How many of the parameters are converted. -/
def convertedCount (source target : Language) (params : List Crossing) : Nat :=
  params.countP fun param => !passesAsIs source target param

/-- There are as many statements as parameters that are converted. -/
theorem length_statements (h : List.Forall₂ (Arrives source target written) params arrivals)
    (host : Host) : (statements host arrivals).length = convertedCount source target params := by
  induction h with
  | nil => rfl
  | cons hfirst _ ih =>
      cases hfirst with
      | unchanged hnone =>
          rw [statements_unchanged, ih, convertedCount, convertedCount, List.countP_cons_of_neg]
          simp [passesAsIs, hnone]
      | converted n template hsome =>
          rw [statements_converted, List.length_cons, ih, convertedCount, convertedCount,
            List.countP_cons_of_pos]
          simp [passesAsIs, hsome]

/-- **The statement of a converted value** comes after those of the parameters before. -/
theorem getElem?_statements (h : List.Forall₂ (Arrives source target written) params arrivals)
    (host : Host) {name expression : String}
    (harrival : arrivals[position]? = some (.converted name expression)) :
    (statements host arrivals)[convertedCount source target (params.take position)]? =
      some (host.bind name expression) := by
  have hsplit : arrivals =
      arrivals.take position ++ .converted name expression :: arrivals.drop (position + 1) := by
    obtain ⟨hposition, hget⟩ := List.getElem?_eq_some_iff.mp harrival
    rw [← hget, List.getElem_cons_drop, List.take_append_drop]
  have hbefore := length_statements (List.forall₂_take position h) host
  rw [hsplit, statements_append, statements_converted, ← hbefore,
    List.getElem?_append_right Nat.le.refl, Nat.sub_self]
  rfl

end

/--
**Each parameter has its own argument, and its own statement if it needs one.**  Parameters
arrive unless one of them cannot be converted, and the first such decides the error.  Then
there is one argument for each, at its position, and one statement for each that is
converted, in the same order.  A parameter that is not converted is its own argument.  The
argument of any other is a name that its statement gives to its template, applied to its
own identifier, and that is neither taken nor the argument of any other parameter.
-/
theorem arguments_positional (host : Host) (source target written : Language)
    (reserved : List String) (params : List Crossing) :
    (∀ error, arrive source target written reserved params = .error error ↔
      ∃ param before after, params = before ++ param :: after ∧
        param.conversion source target = .error error ∧
        ∀ earlier ∈ before, ∃ conversion, earlier.conversion source target = .ok conversion) ∧
    ((∃ arrivals, arrive source target written reserved params = .ok arrivals) ↔
      ∀ param ∈ params, ∃ conversion, param.conversion source target = .ok conversion) ∧
    ∀ arrivals, arrive source target written reserved params = .ok arrivals →
      (arguments arrivals).length = params.length ∧
      (statements host arrivals).length = convertedCount source target params ∧
      ∀ position param, params[position]? = some param →
        ∃ argument, (arguments arrivals)[position]? = some argument ∧
          (param.conversion source target = .ok none → argument = param.identifier written) ∧
          ∀ template, param.conversion source target = .ok (some template) →
            (statements host arrivals)[convertedCount source target (params.take position)]? =
              some (host.bind argument (template.apply (param.identifier written))) ∧
            argument ∉ reserved ∧ argument ∉ params.map (·.identifier written) ∧
            ∀ other, (arguments arrivals)[other]? = some argument → other = position := by
  refine ⟨fun _ => arrive_eq_error_iff, exists_arrive_eq_ok_iff, fun arrivals h => ?_⟩
  have harrives := arrives_of_arrive h
  refine ⟨length_arguments harrives, length_statements harrives host, ?_⟩
  intro position param hparam
  obtain ⟨arrival, harrival, hown⟩ := exists_arrives_of_getElem? harrives hparam
  have hargument : (arguments arrivals)[position]? = some arrival.argument := by
    rw [getElem?_arguments, harrival, Option.map_some]
  refine ⟨arrival.argument, hargument, ?_⟩
  cases hown with
  | unchanged hnone =>
      refine ⟨fun _ => rfl, fun template hsome => ?_⟩
      cases hnone.symm.trans hsome
  | converted n found hfound =>
      refine ⟨fun hnone => ?_, fun template hsome => ?_⟩
      · cases hnone.symm.trans hfound
      cases hfound.symm.trans hsome
      have hgiven : candidate param.name (valueMark target) n ∈ givenNames arrivals :=
        List.mem_filterMap.mpr ⟨_, List.mem_of_getElem? harrival, rfl⟩
      obtain ⟨hreserved, hidentifiers⟩ := (arrive_givenNames h).2 _ hgiven
      exact ⟨getElem?_statements harrives host harrival, hreserved, hidentifiers,
        fun other hother => eq_of_argument_eq h harrival hother⟩

/-- Two parameters of one name are converted, between two that are not, and the first names that
they might get are taken. -/
theorem arguments_positional_of_namesakes :
    let number : Description := .build .nonNull .int32 Primitive.int32.managedType "System.Int32" []
    let text : Description := .build .nonNull .string
      { name := "String", fullName := some "System.String", shape := .string } "System.String" []
    let params : List Crossing :=
      [⟨"in", number, .byValue, .nonNull⟩, ⟨"text", text, .byValue, .nonNull⟩,
        ⟨"__textC", number, .byValue, .nonNull⟩, ⟨"text", text, .byValue, .nullable⟩]
    let arrivals : List Arrival :=
      [.unchanged "\x60in\x60", .converted "__p_textC" "text.toDotNETString()",
        .unchanged "__textC", .converted "__p2_textC" "text?.toDotNETString()"]
    arrive .kotlin .kotlinJna .kotlin ["__p1_textC"] params = .ok arrivals ∧
      (arguments arrivals).length = 4 ∧ (statements .kotlin arrivals).length = 2 ∧
      (arguments arrivals)[3]? = some "__p2_textC" ∧
      (statements .kotlin arrivals)[1]? = some "val __p2_textC = text?.toDotNETString()" ∧
      ∀ other, (arguments arrivals)[other]? = some "__p2_textC" → other = 3 := by
  intro number text params arrivals
  have harrive : arrive .kotlin .kotlinJna .kotlin ["__p1_textC"] params = .ok arrivals := by
    decide +kernel
  obtain ⟨-, -, hall⟩ :=
    arguments_positional .kotlin .kotlin .kotlinJna .kotlin ["__p1_textC"] params
  obtain ⟨hlength, hstatements, hpositions⟩ := hall arrivals harrive
  obtain ⟨argument, hargument, -, hconverted⟩ := hpositions 3 _ rfl
  obtain rfl : argument = "__p2_textC" := (Option.some.inj hargument).symm
  obtain ⟨hstatement, -, -, halone⟩ :=
    hconverted ⟨"", "?.toDotNETString()"⟩ (by decide +kernel)
  refine ⟨harrive, hlength, hstatements.trans (by decide +kernel), hargument, ?_, halone⟩
  rw [show convertedCount .kotlin .kotlinJna (params.take 3) = 1 by decide +kernel] at hstatement
  exact hstatement

end Crossing

end Interop
