/-
Where the run's own choice about null shows.

The choice is asked for in two places only: for a parameter or a result that says
nothing itself and whose type says nothing either, and for a part whose name is
written inside that of the whole.  In a program where a type speaks for itself
wherever one of these asks for it, the choice shows nowhere.

The names of parts are frozen into descriptions, at any depth, so the first place
that has to be looked at is the walk that makes these.  Then every step from a
survey to a batch comes to the same under either choice.
-/
import Interop.Proofs.TwoRuns

namespace Interop

/-! ### Types that speak for themselves -/

/-- What a member of the type holds that says nothing itself. -/
def ManagedType.defaultNullability (type : ManagedType) : Nullability :=
  Description.buildDefault (.ofShape type.shape) type.nullability

namespace Reflection

variable (types : Reflection)

/-- The type at a key, if there is one, does not leave it open whether its values may be absent. -/
def Speaks (key : TypeKey) : Prop :=
  ∀ type, types.get? key = some type → type.defaultNullability ≠ .notSpecified

/-- A type speaks for itself wherever it is a part of another one, or that of a parameter or a
result that says nothing. -/
structure Outspoken : Prop where
  part {key part : TypeKey} {type : ManagedType} (htype : types.get? key = some type)
    (hpart : part ∈ type.shape.parts) : types.Speaks part
  result {key : TypeKey} {type : ManagedType} {signature : Signature}
    (htype : types.get? key = some type) (hinvoke : type.invoke = some signature)
    (hsilent : signature.returnNullability = .notSpecified) : types.Speaks signature.returnType
  param {key : TypeKey} {type : ManagedType} {signature : Signature} {param : Param}
    (htype : types.get? key = some type) (hinvoke : type.invoke = some signature)
    (hparam : param ∈ signature.params) (hsilent : param.nullability = .notSpecified) :
    types.Speaks param.type

variable {types}

instance (key : TypeKey) : Decidable (types.Speaks key) :=
  inferInstanceAs (Decidable (∀ type ∈ types.get? key, type.defaultNullability ≠ .notSpecified))

/-- It is enough to look at the entries one by one. -/
theorem Outspoken.of_entries
    (h : ∀ entry ∈ types.entries,
      (∀ part ∈ entry.2.shape.parts, types.Speaks part) ∧
      ∀ signature ∈ entry.2.invoke,
        (signature.returnNullability = .notSpecified → types.Speaks signature.returnType) ∧
        ∀ param ∈ signature.params, param.nullability = .notSpecified →
          types.Speaks param.type) : types.Outspoken where
  part htype := (h _ (mem_entries_of_get? htype)).1 _
  result htype hinvoke := ((h _ (mem_entries_of_get? htype)).2 _ hinvoke).1
  param htype hinvoke := ((h _ (mem_entries_of_get? htype)).2 _ hinvoke).2 _

end Reflection

namespace Nullability

/-- Where one of the two speaks, nothing is left to choose. -/
theorem settleMember_eq {member typeDefault : Nullability}
    (h : member = .notSpecified → typeDefault ≠ .notSpecified) (first second : Nullness) :
    member.settleMember first typeDefault = member.settleMember second typeDefault := by
  unfold settleMember
  refine settle_of_isSpecified ?_ first second
  cases member with
  | nonNull => rfl
  | nullable => rfl
  | notSpecified =>
      cases typeDefault with
      | nonNull => rfl
      | nullable => rfl
      | notSpecified => exact absurd rfl (h rfl)

end Nullability

/-! ### Describing -/

namespace Description

theorem nestedName_eq {part : Description} (h : part.defaultNullability ≠ .notSpecified)
    (first second : Nullness) (language : Language) :
    nestedName first language part = nestedName second language part := by
  have hsettled : part.defaultNullability.settle first = part.defaultNullability.settle second := by
    cases hdefault : part.defaultNullability with
    | nonNull => rfl
    | nullable => rfl
    | notSpecified => exact absurd hdefault h
  unfold nestedName
  rw [hsettled]

/-- Only the names of parts depend on the choice, and only in the names of wrapper classes. -/
theorem wrapperName_eq {parts : List Description}
    (h : ∀ part ∈ parts, part.defaultNullability ≠ .notSpecified) (first second : Nullness)
    (shape : Shape) (declaredName cTypeName : String) (language : Language) :
    wrapperName ⟨first, shape, declaredName, cTypeName, parts⟩ language =
      wrapperName ⟨second, shape, declaredName, cTypeName, parts⟩ language := by
  have hnested : parts.map (nestedName first language) = parts.map (nestedName second language) :=
    List.map_congr_left fun part hpart => nestedName_eq (h part hpart) first second language
  unfold wrapperName
  dsimp only
  rw [hnested]

theorem buildBaseName_eq {parts : List Description}
    (h : ∀ part ∈ parts, part.defaultNullability ≠ .notSpecified) (first second : Nullness)
    (shape : Shape) (declaredName cTypeName : String) (language : Language) :
    buildBaseName ⟨first, shape, declaredName, cTypeName, parts⟩ language =
      buildBaseName ⟨second, shape, declaredName, cTypeName, parts⟩ language := by
  have hwrapper := wrapperName_eq h first second shape declaredName cTypeName
  unfold buildBaseName
  dsimp only
  cases Category.ofShape shape with
  | void | unrecognized => rfl
  | value kind =>
      cases kind with
      | referenceObject | byRef => cases language <;> first | rfl | exact hwrapper _
      | primitive | enumeration | string | optionalWrapper | byteSpan => cases language <;> rfl

theorem build_eq {parts : List Description}
    (h : ∀ part ∈ parts, part.defaultNullability ≠ .notSpecified) (first second : Nullness)
    (key : TypeKey) (type : ManagedType) (declaredName : String) :
    build first key type declaredName parts = build second key type declaredName parts := by
  unfold build
  have hnames := funext (buildBaseName_eq h first second type.shape declaredName
    (buildCTypeName declaredName type.shape parts))
  dsimp only
  rw [hnames]

end Description

section

variable {types : Reflection} {settings : Settings}

/-- A description holds what its type says. -/
theorem exists_defaultNullability_of_describeAlong {unspecified : Nullness} {path : List TypeKey}
    {key : TypeKey} {description : Description}
    (h : describeAlong types unspecified path key = .ok description) :
    ∃ type, types.get? key = some type ∧
      description.defaultNullability = type.defaultNullability := by
  obtain ⟨type, declaredName, parts, htype, -, -, -, rfl⟩ := describeAlong_eq_ok h
  exact ⟨type, htype, rfl⟩

theorem Reflection.Speaks.description {unspecified : Nullness} {path : List TypeKey}
    {key : TypeKey} {description : Description} (h : types.Speaks key)
    (hdescribed : describeAlong types unspecified path key = .ok description) :
    description.defaultNullability ≠ .notSpecified := by
  obtain ⟨type, htype, hdefault⟩ := exists_defaultNullability_of_describeAlong hdescribed
  rw [hdefault]
  exact h type htype

/-- **Descriptions do not depend on the choice,** however deep parts are nested. -/
theorem describeAlong_eq_of_outspoken (h : types.Outspoken) (first second : Nullness)
    (path : List TypeKey) (key : TypeKey) :
    describeAlong types first path key = describeAlong types second path key := by
  cases htype : types.get? key with
  | none => rw [describeAlong_of_unknown htype, describeAlong_of_unknown htype]
  | some type =>
      by_cases hmet : key ∈ path
      · rw [describeAlong_of_met htype hmet, describeAlong_of_met htype hmet]
      · cases hname : type.fullName with
        | none =>
            rw [describeAlong_of_nameless htype hmet hname,
              describeAlong_of_nameless htype hmet hname]
        | some declaredName =>
            have hleft := Reflection.offPath_cons_lt (Reflection.mem_keys_of_get? htype) hmet
            have hparts : describeAlong types first (key :: path) =
                describeAlong types second (key :: path) :=
              funext fun part => describeAlong_eq_of_outspoken h first second (key :: path) part
            rw [describeAlong_of_named htype hmet hname, describeAlong_of_named htype hmet hname,
              hparts]
            cases hmade : type.shape.parts.mapM (describeAlong types second (key :: path)) with
            | error error => rfl
            | ok parts =>
                have hspoken : ∀ made ∈ parts, made.defaultNullability ≠ .notSpecified := by
                  intro made hmem
                  obtain ⟨part, hpart, hdescribed⟩ :=
                    exists_of_forall₂ (mapM_eq_ok_iff.mp hmade).flip hmem
                  exact (h.part htype hpart).description hdescribed
                dsimp only
                rw [Description.build_eq hspoken first second]
termination_by types.offPath path

theorem describeAfresh_eq_of_outspoken (h : types.Outspoken) (first second : Nullness) :
    describeAfresh types first = describeAfresh types second :=
  funext fun key => describeAlong_eq_of_outspoken h first second [] key

/-! ### Resolving -/

variable (settings) in
theorem crossingAfresh_eq_of_outspoken (h : types.Outspoken) (other : Nullness) {key : TypeKey}
    {type : ManagedType} {signature : Signature} {param : Param}
    (htype : types.get? key = some type) (hinvoke : type.invoke = some signature)
    (hparam : param ∈ signature.params) :
    crossingAfresh types { settings with unspecified := other } param =
      crossingAfresh types settings param := by
  unfold crossingAfresh
  rw [describeAfresh_eq_of_outspoken h other settings.unspecified]
  cases hdescribed : describeAfresh types settings.unspecified param.type with
  | error error => rfl
  | ok description =>
      have hsettled := Nullability.settleMember_eq
        (fun hsilent => (h.param htype hinvoke hparam hsilent).description hdescribed)
        other settings.unspecified
      simp only [Except.map, crossingWith, hsettled]

variable (settings) in
theorem survey_eq_of_outspoken (h : types.Outspoken) (other : Nullness) (key : TypeKey) :
    survey types { settings with unspecified := other } key = survey types settings key := by
  have hdescribe := describeAfresh_eq_of_outspoken h other settings.unspecified
  refine survey_congr rfl (fun _ _ _ => rfl) (congrFun hdescribe key) ?_ ?_ ?_
  · intro type signature _ _
    exact congrFun hdescribe signature.returnType
  · intro type signature htype hinvoke param hparam
    exact crossingAfresh_eq_of_outspoken settings h other htype hinvoke hparam
  · intro type _
    unfold describeBase
    rw [hdescribe]

/-- What is written about a result is settled by the survey. -/
theorem conclude_eq_of_outspoken (h : types.Outspoken) (other : Nullness) {key : TypeKey}
    {found : Survey} (hsurvey : survey types settings key = .ok found)
    (baseSignature : Option Signature) :
    found.conclude { settings with unspecified := other } key baseSignature =
      found.conclude settings key baseSignature := by
  obtain ⟨_, hnamed, hsigned, -, hresult, -⟩ := survey_eq_ok hsurvey
  have htype := (namedDelegateAt_eq_ok hnamed).1
  have hinvoke := invoke_of_supportedSignature hsigned
  have hsettled := Nullability.settleMember_eq
    (fun hsilent => (h.result htype hinvoke hsilent).description hresult)
    other settings.unspecified
  have hdelegate : found.delegate { settings with unspecified := other } key baseSignature =
      found.delegate settings key baseSignature := by
    unfold Survey.delegate
    rw [hsettled]
  unfold Survey.conclude
  rw [hdelegate]

variable (settings) in
theorem resolveAfresh_eq_of_outspoken (h : types.Outspoken) (other : Nullness) (links : Nat)
    (key : TypeKey) :
    resolveAfresh types { settings with unspecified := other } links key =
      resolveAfresh types settings links key :=
  resolveAfresh_congr (fun _ => True)
    (fun key _ => survey_eq_of_outspoken settings h other key)
    (fun _ _ baseSignature hsurvey => conclude_eq_of_outspoken h other hsurvey baseSignature)
    (fun _ _ _ _ _ _ => trivial) links key trivial

variable (settings) in
theorem wrapAfresh_eq_of_outspoken (h : types.Outspoken) (other : Nullness)
    (native : NativeLayer) (key : TypeKey) :
    wrapAfresh types { settings with unspecified := other } native key =
      wrapAfresh types settings native key :=
  wrapAfresh_congr rfl rfl (resolveAfresh_eq_of_outspoken settings h other _ key)

end

/-! ### Batches -/

namespace Batch

/-- The batch with another choice about null. -/
def choosing (batch : Batch) (unspecified : Nullness) : Batch :=
  { batch with settings := { batch.settings with unspecified } }

theorem trialAfresh_eq_of_outspoken (batch : Batch) (h : batch.types.Outspoken)
    (first second : Nullness) :
    (batch.choosing first).trialAfresh = (batch.choosing second).trialAfresh :=
  funext fun key => congrArg (Option.map _)
    (wrapAfresh_eq_of_outspoken (batch.choosing second).settings h first batch.native key)

/--
**Where types speak for themselves, the run's own choice about null shows nowhere.**
Whatever was requested before in either run, the same keys lead to the same artifacts
and the same manifest under either choice, or have no answer under either.
-/
theorem generate_eq_of_outspoken (batch : Batch) (h : batch.types.Outspoken)
    (first second : Nullness) (keys : List TypeKey) {catalogue catalogue' : Catalogue}
    (hreached : catalogue.Reached batch.types first)
    (hreached' : catalogue'.Reached batch.types second) :
    (((batch.choosing first).generate keys).run catalogue).map Prod.fst =
      (((batch.choosing second).generate keys).run catalogue').map Prod.fst := by
  have hfirst := ((batch.choosing first).answers_generate keys).fst_run hreached
  have hsecond := ((batch.choosing second).answers_generate keys).fst_run hreached'
  rw [hfirst, hsecond, trialAfresh_eq_of_outspoken batch h first second]

/-- A delegate that takes an array of boxes and a number and returns a text.  The boxes are always
there, and of the array and the text the delegate itself says whether they are. -/
def sorting : Batch where
  types :=
    let sort : Signature := {
      params := [
        { name := "boxes", type := ⟨33⟩, nullability := .nullable },
        { name := "count", type := .int32 }]
      returnType := .string
      returnNullability := .nonNull }
    { entries := [
        (.int32, Primitive.int32.managedType),
        (.string, { name := "String", fullName := some "System.String", shape := .string }),
        (⟨32⟩, { ManagedType.namedClass "App.Box" with nullability := .nonNull }),
        (⟨33⟩, { name := "Box[]", fullName := some "App.Box[]", shape := .array ⟨32⟩ }),
        (⟨34⟩, { ManagedType.namedDelegate "App.Sort" sort with base := none })] }
  native := ⟨[(⟨34⟩, .conventional "App_Sort")]⟩

/-- It gets the same bindings under either choice, also where one run has described the array
before. -/
theorem generate_sorting :
    ∃ harvest after after',
      ((sorting.choosing .nonNull).generate [⟨34⟩, ⟨99⟩]).run .empty = some (harvest, after) ∧
      ((sorting.choosing .nullable).generate [⟨34⟩, ⟨99⟩]).run
        (.afterRequests sorting.types .nullable [⟨33⟩]) = some (harvest, after') ∧
      harvest.wrappers.length = 1 := by
  have houtspoken : sorting.types.Outspoken := .of_entries (by decide +kernel)
  have hsame := generate_eq_of_outspoken sorting houtspoken .nonNull .nullable [⟨34⟩, ⟨99⟩]
    Catalogue.reached_empty ⟨[⟨33⟩], rfl⟩
  have hone : (((sorting.choosing .nonNull).generate [⟨34⟩, ⟨99⟩]).run .empty).map
      (·.1.wrappers.length) = some 1 := by decide +kernel
  obtain ⟨⟨harvest, after⟩, hrun, hlength⟩ := Option.map_eq_some_iff.mp hone
  rw [hrun] at hsame
  obtain ⟨⟨_, after'⟩, hrun', rfl⟩ := Option.map_eq_some_iff.mp hsame.symm
  exact ⟨_, after, after', hrun, hrun', hlength⟩

end Batch

end Interop
