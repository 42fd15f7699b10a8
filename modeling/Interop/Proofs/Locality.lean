/-
What the bindings of a type depend on.

The bindings of a type are written from the types it mentions: its parts, the types
of its signature, its base, and whatever these mention in turn.  Two programs that
have the same types there are the same as far as this one type is concerned.  They
may have any other types, in any order, and they may be declared differently in the
native layer wherever it is not the type itself.

Every function that looks at reflection is taken through once.  Describing follows
the walk along a path, and resolving follows the links of a chain of bases; both may
have another number of keys to count with in the other program, so it is the answer
along any number of links that is compared, and then the numbers.
-/
import Interop.Proofs.TwoRuns
import Mathlib.Logic.Relation

namespace Interop

open Relation

namespace Reflection

/-- The type at a key mentions the type at another one. -/
inductive Mentions (types : Reflection) (key : TypeKey) : TypeKey → Prop
  | part {type : ManagedType} {part : TypeKey} (htype : types.get? key = some type)
      (hpart : part ∈ type.shape.parts) : Mentions types key part
  | result {type : ManagedType} {signature : Signature} (htype : types.get? key = some type)
      (hinvoke : type.invoke = some signature) : Mentions types key signature.returnType
  | param {type : ManagedType} {signature : Signature} {param : Param}
      (htype : types.get? key = some type) (hinvoke : type.invoke = some signature)
      (hparam : param ∈ signature.params) : Mentions types key param.type
  | base {type : ManagedType} {base : TypeKey} (htype : types.get? key = some type)
      (hbase : type.base = some base) : Mentions types key base

/-- Other types are the same at a key and at all that is mentioned from there on: the same type, or
none in either. -/
def AgreesFrom (types others : Reflection) (key : TypeKey) : Prop :=
  ∀ other, ReflTransGen types.Mentions key other → others.get? other = types.get? other

variable {types others : Reflection} {key : TypeKey}

theorem AgreesFrom.get? (h : types.AgreesFrom others key) :
    others.get? key = types.get? key :=
  h key .refl

theorem AgreesFrom.mentioned {other : TypeKey} (h : types.AgreesFrom others key)
    (hmentions : types.Mentions key other) : types.AgreesFrom others other :=
  fun _ hrest => h _ (hrest.head hmentions)

/-- It is enough to compare a list of keys that mention only each other. -/
theorem AgreesFrom.of_closed (keys : List TypeKey) (hkey : key ∈ keys)
    (hclosed : ∀ known ∈ keys, ∀ other, types.Mentions known other → other ∈ keys)
    (hsame : ∀ known ∈ keys, others.get? known = types.get? known) :
    types.AgreesFrom others key := by
  intro other hreach
  refine hsame other ?_
  induction hreach with
  | refl => exact hkey
  | tail _ hmentions ih => exact hclosed _ ih _ hmentions

end Reflection

open Reflection

/-! ### Describing -/

section

variable {types others : Reflection} {settings : Settings} {key : TypeKey}

theorem describeAlong_of_agreesFrom {unspecified : Nullness} {path : List TypeKey}
    {key : TypeKey} (h : types.AgreesFrom others key) :
    describeAlong others unspecified path key = describeAlong types unspecified path key := by
  cases htype : types.get? key with
  | none =>
      rw [describeAlong_of_unknown htype, describeAlong_of_unknown (h.get?.trans htype)]
  | some type =>
      have htype' := h.get?.trans htype
      by_cases hmet : key ∈ path
      · rw [describeAlong_of_met htype hmet, describeAlong_of_met htype' hmet]
      · cases hname : type.fullName with
        | none =>
            rw [describeAlong_of_nameless htype hmet hname,
              describeAlong_of_nameless htype' hmet hname]
        | some fullName =>
            have hleft := Reflection.offPath_cons_lt (Reflection.mem_keys_of_get? htype) hmet
            have hparts : type.shape.parts.mapM (describeAlong others unspecified (key :: path)) =
                type.shape.parts.mapM (describeAlong types unspecified (key :: path)) :=
              mapM_congr_of_mem fun part hpart =>
                describeAlong_of_agreesFrom (h.mentioned (.part htype hpart))
            rw [describeAlong_of_named htype hmet hname, describeAlong_of_named htype' hmet hname,
              hparts]
termination_by types.offPath path

theorem describeAfresh_of_agreesFrom {unspecified : Nullness}
    (h : types.AgreesFrom others key) :
    describeAfresh others unspecified key = describeAfresh types unspecified key :=
  describeAlong_of_agreesFrom h

/-! ### Resolving -/

theorem namedDelegateAt_of_agreesFrom (h : types.AgreesFrom others key) :
    namedDelegateAt others key = namedDelegateAt types key := by
  unfold namedDelegateAt
  rw [h.get?]

variable (settings) in
/-- A survey looks at the type, at the types of its signature, and at its base. -/
theorem survey_of_agreesFrom (h : types.AgreesFrom others key) :
    survey others settings key = survey types settings key := by
  refine survey_congr (namedDelegateAt_of_agreesFrom h) (fun _ _ _ => rfl)
    (describeAfresh_of_agreesFrom h) ?_ ?_ ?_
  · intro type signature htype hinvoke
    exact describeAfresh_of_agreesFrom (h.mentioned (.result htype hinvoke))
  · intro type signature htype hinvoke param hparam
    unfold crossingAfresh
    rw [describeAfresh_of_agreesFrom (h.mentioned (.param htype hinvoke hparam))]
  · intro type htype
    cases hlink : type.base with
    | none => rfl
    | some base =>
        unfold describeBase
        dsimp only
        rw [describeAfresh_of_agreesFrom (h.mentioned (.base htype hlink))]

/-- Along any number of links the chain of bases is the same. -/
theorem resolveAfresh_of_agreesFrom (links : Nat) {key : TypeKey}
    (h : types.AgreesFrom others key) :
    resolveAfresh others settings links key = resolveAfresh types settings links key := by
  refine resolveAfresh_congr (types.AgreesFrom others)
    (fun _ => survey_of_agreesFrom settings) (fun _ _ _ _ => rfl) ?_ links key h
  intro key found base hkey hsurvey hlink
  obtain ⟨_, hnamed, -⟩ := survey_eq_ok hsurvey
  exact hkey.mentioned (.base (namedDelegateAt_eq_ok hnamed).1 hlink)

/-- Resolving comes to an end in both programs or in neither. -/
theorem ResolveEnds.of_agreesFrom (hends : ResolveEnds types settings key)
    (h : types.AgreesFrom others key) : ResolveEnds others settings key := by
  obtain ⟨links, hlinks⟩ := resolveEnds_iff_isSome.mp hends
  rw [← resolveAfresh_of_agreesFrom links h] at hlinks
  exact resolveEnds_iff_isSome.mpr ⟨links, hlinks⟩

/-- The number of keys to count with does not show in an answer. -/
theorem ResolveEnds.resolveAfresh_eq (hends : ResolveEnds types settings key)
    (h : types.AgreesFrom others key) :
    resolveAfresh others settings (others.keys.length + 1) key =
      resolveAfresh types settings (types.keys.length + 1) key := by
  obtain ⟨outcome, houtcome⟩ := hends.exists_outcome
  obtain ⟨outcome', houtcome'⟩ := (hends.of_agreesFrom h).exists_outcome
  have hsame := houtcome'
  rw [resolveAfresh_of_agreesFrom _ h] at hsame
  rw [houtcome, houtcome']
  rcases Nat.le_total (types.keys.length + 1) (others.keys.length + 1) with hle | hle
  · exact hsame.symm.trans (resolveAfresh_mono hle houtcome)
  · exact (resolveAfresh_mono hle hsame).symm.trans houtcome

/-! ### Bindings -/

theorem ResolveEnds.wrapAfresh_eq {native natives : NativeLayer}
    (hends : ResolveEnds types settings key) (h : types.AgreesFrom others key)
    (hnative : natives.get? key = native.get? key) :
    wrapAfresh others settings natives key = wrapAfresh types settings native key :=
  wrapAfresh_congr (namedDelegateAt_of_agreesFrom h) hnative (hends.resolveAfresh_eq h)

end

namespace Batch

theorem trialAfresh_of_agreesFrom {batch other : Batch} {key : TypeKey}
    (htypes : batch.types.AgreesFrom other.types key) (hsettings : other.settings = batch.settings)
    (hnative : other.native.get? key = batch.native.get? key)
    (hends : ResolveEnds batch.types batch.settings key) :
    other.trialAfresh key = batch.trialAfresh key := by
  unfold trialAfresh Reflection.nameOf
  rw [hsettings, hends.wrapAfresh_eq htypes hnative, htypes.get?]

/--
**Bindings depend on the types that are mentioned, and on nothing else.**  Two batches
have the same settings, the same types at a key and at all that is mentioned from
there on, and the same declarations for the key alone.  If resolving the key comes to
an end, then both leave the same artifact and the same entry in the manifest for it,
each after any requests of its own.
-/
theorem generate_eq_of_agreesFrom (batch other : Batch) (key : TypeKey)
    (htypes : batch.types.AgreesFrom other.types key) (hsettings : other.settings = batch.settings)
    (hnative : other.native.get? key = batch.native.get? key)
    (hends : ResolveEnds batch.types batch.settings key) :
    ∃ (artifact : Artifact) (manifest : Manifest),
      (∀ requests, ∃ after, (batch.generate [key]).run
        (.afterRequests batch.types batch.settings.unspecified requests) =
          some (⟨[artifact], manifest⟩, after)) ∧
      ∀ requests, ∃ after, (other.generate [key]).run
        (.afterRequests other.types other.settings.unspecified requests) =
          some (⟨[artifact], manifest⟩, after) := by
  obtain ⟨outcome, houtcome⟩ := hends.exists_wrapAfresh batch.native
  let trial : Trial := ⟨key, batch.types.nameOf key, outcome⟩
  have htrial : batch.trialAfresh key = some trial := by
    rw [trialAfresh, houtcome]
    rfl
  have hsame := (trialAfresh_of_agreesFrom htypes hsettings hnative hends).trans htrial
  have hleft : ∀ left : Batch, left.trialAfresh key = some trial → ∀ requests, ∃ after,
      (left.generate [key]).run
        (.afterRequests left.types left.settings.unspecified requests) =
          some (⟨[trial.artifact], (Harvest.ofTrials [trial]).manifest⟩, after) := by
    intro left hleft requests
    have hanswers := left.answers_generate [key] _ ⟨requests, rfl⟩
    simp only [List.mapM_cons, hleft] at hanswers
    obtain ⟨after, -, hrun⟩ := hanswers
    exact ⟨after, hrun⟩
  exact ⟨trial.artifact, _, hleft batch htrial, hleft other hsame⟩

/-- A delegate and its base, which refuses its parameter. -/
def derivedPair : Reflection :=
  let seen : Signature := {
    params := [{ name := "at", type := .int32, passing := .readOnly }]
    returnType := .void }
  let moved : Signature := { params := [{ name := "at", type := .int32 }], returnType := .void }
  { entries := [
      (⟨0⟩, { name := "Void", fullName := some "System.Void", shape := .void }),
      (⟨7⟩, Primitive.int32.managedType),
      (⟨32⟩, { ManagedType.namedDelegate "App.Seen" seen with base := none }),
      (⟨33⟩, { ManagedType.namedDelegate "App.Moved" moved with base := some ⟨32⟩ })] }

/-- The same two among others, in another order, and without declarations for the base. -/
theorem generate_derivedPair :
    let batch : Batch := {
      types := derivedPair
      native := .conventional derivedPair derivedPair.keys }
    let other : Batch := {
      types := ⟨(⟨40⟩, .namedClass "App.Board") :: derivedPair.entries.reverse⟩
      native := ⟨[(⟨33⟩, .conventional "App_Moved"), (⟨40⟩, .conventional "App_Board")]⟩ }
    ∃ (artifact : Artifact) (manifest : Manifest),
      (∀ requests, ∃ after, (batch.generate [⟨33⟩]).run
        (.afterRequests batch.types .nonNull requests) = some (⟨[artifact], manifest⟩, after)) ∧
      ∀ requests, ∃ after, (other.generate [⟨33⟩]).run
        (.afterRequests other.types .nonNull requests) =
          some (⟨[artifact], manifest⟩, after) := by
  intro batch other
  have hends : ResolveEnds batch.types batch.settings ⟨33⟩ := ⟨3, by decide +kernel⟩
  have htypes : batch.types.AgreesFrom other.types ⟨33⟩ := by
    refine .of_closed [⟨33⟩, ⟨32⟩, ⟨7⟩, ⟨0⟩] (by decide) ?_ (by decide +kernel)
    intro known hknown mentioned hmentions
    simp only [List.mem_cons, List.not_mem_nil, or_false] at hknown
    rcases hknown with rfl | rfl | rfl | rfl
    all_goals
      cases hmentions with
      | part htype hpart => cases htype; cases hpart
      | result htype hinvoke => cases htype; cases hinvoke <;> decide
      | param htype hinvoke hparam =>
          cases htype
          cases hinvoke <;> (obtain rfl := List.mem_singleton.mp hparam; decide)
      | base htype hbase => cases htype; cases hbase <;> decide
  exact generate_eq_of_agreesFrom batch other ⟨33⟩ htypes rfl (by decide +kernel) hends

end Batch

end Interop
