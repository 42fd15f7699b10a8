/-
What it takes for the native layer to let a type down.

A refusal is fatal only for two reasons: the native layer has nothing for the type, or
what it has is for another type.  Both come after it is known that the type is there
and has a full name.  The conventional layer has declarations for exactly the types
of a list that have one, spelled after it, and a delegate is described under the very
same spelling.  So over this layer nothing is ever fatal for a type of the list.

Whatever is recorded later takes the place of these declarations.  What was recorded
last for a type decides, and what was recorded for other types does not matter.
-/
import Interop.Proofs.NativeNames

namespace Interop

/-! ### Recording -/

namespace NativeLayer

/-- The layer after some more declarations were recorded, in order. -/
def recordAll (layer : NativeLayer) (records : List (TypeKey × NativeSymbols)) : NativeLayer :=
  records.foldl (fun layer entry => layer.record entry.1 entry.2) layer

/-- What was recorded last for a type. -/
def lastRecord? (records : List (TypeKey × NativeSymbols)) (key : TypeKey) :
    Option NativeSymbols :=
  records.reverse.lookup key

theorem get?_recordAll (layer : NativeLayer) (records : List (TypeKey × NativeSymbols))
    (key : TypeKey) :
    (layer.recordAll records).get? key = (lastRecord? records key).or (layer.get? key) := by
  induction records generalizing layer with
  | nil => rfl
  | cons entry rest ih =>
      obtain ⟨recorded, symbols⟩ := entry
      refine (ih (layer.record recorded symbols)).trans ?_
      rw [lastRecord?, lastRecord?, List.reverse_cons, List.lookup_append, Option.or_assoc,
        get?_record]
      by_cases hsame : key = recorded
      · simp [hsame]
      · have hbeq : (key == recorded) = false := by simpa using hsame
        simp [hsame, hbeq, List.lookup_cons]

/-- What was recorded last for a type bears another name than the type's own. -/
def Misrecorded (types : Reflection) (records : List (TypeKey × NativeSymbols)) (key : TypeKey) :
    Prop :=
  ∃ type fullName symbols, types.get? key = some type ∧ type.fullName = some fullName ∧
    lastRecord? records key = some symbols ∧
    symbols.cTypeName ≠ Identifier.ofFullName fullName

end NativeLayer

/-! ### Fatal refusals -/

section

variable {types : Reflection} {settings : Settings} {native : NativeLayer} {key : TypeKey}

/-- Only objections to declarations are fatal. -/
theorem eq_of_fatal_objection {requirement : Requirement} {refusal : Refusal}
    (h : requirement.objection types settings native key = some refusal)
    (hfatal : refusal.isFatal = true) : requirement = .declared ∨ requirement = .matching := by
  cases requirement with
  | declared => exact .inl rfl
  | matching => exact .inr rfl
  | describable =>
      obtain ⟨_, -, h⟩ := Option.bind_eq_some_iff.mp h
      obtain ⟨_, -, h⟩ := Option.bind_eq_some_iff.mp h
      obtain ⟨error, -, h⟩ := Option.bind_eq_some_iff.mp h
      cases h
      cases error <;> cases hfatal
  | known | named | delegate | signed | returning | passing | convertible =>
      cases refusal with
      | missingNativeLayer | nativeLayerMismatch =>
          simp [Requirement.objection, Option.bind_eq_some_iff] at h
      | _ => cases hfatal

/-- They are made to a type with a full name, for which the layer has nothing of that name. -/
theorem exists_name_of_fatal_objection {requirement : Requirement} {refusal : Refusal}
    (h : requirement.objection types settings native key = some refusal)
    (hfatal : refusal.isFatal = true) :
    ∃ type fullName, types.get? key = some type ∧ type.fullName = some fullName ∧
      ∀ symbols, native.get? key = some symbols →
        symbols.cTypeName ≠ Identifier.ofFullName fullName := by
  rcases eq_of_fatal_objection h hfatal with rfl | rfl
  · obtain ⟨type, htype, h⟩ := Option.bind_eq_some_iff.mp h
    obtain ⟨fullName, hname, h⟩ := Option.bind_eq_some_iff.mp h
    refine ⟨type, fullName, htype, hname, fun symbols hsymbols => ?_⟩
    rw [hsymbols] at h
    cases h
  · obtain ⟨type, htype, h⟩ := Option.bind_eq_some_iff.mp h
    obtain ⟨fullName, hname, h⟩ := Option.bind_eq_some_iff.mp h
    obtain ⟨found, hfound, h⟩ := Option.bind_eq_some_iff.mp h
    refine ⟨type, fullName, htype, hname, fun symbols hsymbols hspelled => ?_⟩
    obtain rfl := Option.some.inj (hfound.symm.trans hsymbols)
    rw [if_pos hspelled] at h
    cases h

variable {keys : List TypeKey} {records : List (TypeKey × NativeSymbols)}

/-- **What is fatal over a conventional layer was recorded wrongly later.** -/
theorem misrecorded_of_fatal {refusal : Refusal} (hkey : key ∈ keys)
    (h : wrapAfresh types settings ((NativeLayer.conventional types keys).recordAll records) key =
      some (.error refusal))
    (hfatal : refusal.isFatal = true) : NativeLayer.Misrecorded types records key := by
  have hfirst := error?_wrapAfresh _ h
  obtain ⟨requirement, -, hobjection⟩ := List.exists_of_findSome?_eq_some hfirst.symm
  obtain ⟨type, fullName, htype, hname, hsymbols⟩ :=
    exists_name_of_fatal_objection hobjection hfatal
  have hconventional : NativeLayer.conventionalSymbols? types key =
      some (.conventional (Identifier.ofFullName fullName)) := by
    rw [NativeLayer.conventionalSymbols?, htype, Option.bind_some, hname]
    rfl
  rw [NativeLayer.get?_recordAll, NativeLayer.get?_conventional, if_pos hkey, hconventional]
    at hsymbols
  cases hlast : NativeLayer.lastRecord? records key with
  | none =>
      rw [hlast] at hsymbols
      exact absurd rfl (hsymbols _ rfl)
  | some symbols =>
      rw [hlast] at hsymbols
      exact ⟨type, fullName, symbols, htype, hname, hlast, hsymbols symbols rfl⟩

end

/-! ### Batches -/

/-- What was aborted was refused for a fatal reason. -/
theorem Trial.exists_fatal_of_aborted {trial : Trial} (h : trial.artifact.product = .aborted) :
    ∃ refusal, trial.outcome = .error refusal ∧ refusal.isFatal = true := by
  cases hout : trial.outcome with
  | ok wrapper => simp [artifact, hout] at h
  | error refusal =>
      refine ⟨refusal, rfl, ?_⟩
      cases hfatal : refusal.isFatal with
      | true => rfl
      | false => simp [artifact, hout, hfatal] at h

/-- A refusal that is not fatal is a skip, and has the code of one. -/
theorem Refusal.skipped_of_not_fatal {refusal : Refusal} (h : ¬refusal.isFatal = true) :
    refusal.severity = .skipped ∧ refusal.code ≠ .e8001 ∧ refusal.code ≠ .e8002 := by
  cases refusal with
  | missingNativeLayer | nativeLayerMismatch => exact absurd rfl h
  | _ => exact ⟨rfl, nofun, nofun⟩

namespace Batch

section

variable {types : Reflection} {settings : Settings} {keys requested : List TypeKey}
  {catalogue : Catalogue}

/-- There is an answer, and what is fatal in it was recorded wrongly later. -/
theorem exists_generate_recordAll (hrequested : requested ⊆ keys)
    (hends : ∀ key ∈ requested, ResolveEnds types settings key)
    (hreached : catalogue.Reached types settings.unspecified)
    (records : List (TypeKey × NativeSymbols)) :
    ∃ trials after,
      (generate ⟨types, settings, (NativeLayer.conventional types keys).recordAll records⟩
        requested).run catalogue = some (Harvest.ofTrials trials, after) ∧
      trials.map (·.key) = requested ∧
      ∀ trial ∈ trials, ∀ refusal, trial.outcome = .error refusal → refusal.isFatal = true →
        NativeLayer.Misrecorded types records trial.key := by
  let batch : Batch := ⟨types, settings, (NativeLayer.conventional types keys).recordAll records⟩
  have houtcomes : ∀ key ∈ requested, ∃ outcome,
      wrapAfresh types settings batch.native key = some outcome :=
    fun key hkey => (hends key hkey).exists_wrapAfresh batch.native
  obtain ⟨_, after, hrun, -⟩ := @exists_generate batch requested catalogue hreached houtcomes
  obtain ⟨trials, htrials, hkeys, houtcomes⟩ := generate_eq_some hreached hrun
  refine ⟨trials, after, htrials ▸ hrun, hkeys, fun trial htrial refusal hout hfatal => ?_⟩
  have hafresh := houtcomes trial htrial
  rw [hout] at hafresh
  exact misrecorded_of_fatal (hrequested (hkeys ▸ List.mem_map_of_mem htrial)) hafresh hfatal

/--
**The conventional layer never lets a type down.**  After any requests, a batch of types
whose resolving comes to an end has an answer.  Over the conventional layer of a list
that holds these types, all its refusals are skips, and none of its types is aborted.
And if any declarations are recorded after that, a type is aborted only if the last ones
that were recorded for this very type are not named after it.
-/
theorem generate_conventional (hrequested : requested ⊆ keys)
    (hends : ∀ key ∈ requested, ResolveEnds types settings key)
    (hreached : catalogue.Reached types settings.unspecified) :
    (∃ harvest after,
      (generate ⟨types, settings, .conventional types keys⟩ requested).run catalogue =
        some (harvest, after) ∧
      (∀ entry ∈ harvest.manifest.entries,
        entry.severity = .skipped ∧ entry.code ≠ .e8001 ∧ entry.code ≠ .e8002) ∧
      ∀ artifact ∈ harvest.artifacts, artifact.product ≠ .aborted) ∧
    ∀ records, ∃ harvest after,
      (generate ⟨types, settings, (NativeLayer.conventional types keys).recordAll records⟩
        requested).run catalogue = some (harvest, after) ∧
      harvest.Accounts requested ∧
      ∀ artifact ∈ harvest.artifacts, artifact.product = .aborted →
        NativeLayer.Misrecorded types records artifact.key := by
  constructor
  · obtain ⟨trials, after, hrun, -, hfatal⟩ :=
      exists_generate_recordAll hrequested hends hreached []
    have hskipped : ∀ trial ∈ trials, ∀ refusal, trial.outcome = .error refusal →
        ¬refusal.isFatal = true := by
      intro trial htrial refusal hout hsevere
      obtain ⟨_, _, _, -, -, hnone, -⟩ := hfatal trial htrial refusal hout hsevere
      cases hnone
    refine ⟨.ofTrials trials, after, hrun, ?_, ?_⟩
    · intro entry hentry
      obtain ⟨trial, htrial, hentry⟩ := List.mem_filterMap.mp hentry
      cases hout : trial.outcome with
      | ok wrapper => rw [Trial.entry?, hout] at hentry; cases hentry
      | error refusal =>
          rw [Trial.entry?, hout] at hentry
          cases hentry
          exact Refusal.skipped_of_not_fatal (hskipped trial htrial refusal hout)
    · intro artifact hartifact haborted
      obtain ⟨trial, htrial, rfl⟩ := List.mem_map.mp hartifact
      obtain ⟨refusal, hout, hsevere⟩ := Trial.exists_fatal_of_aborted haborted
      exact hskipped trial htrial refusal hout hsevere
  · intro records
    obtain ⟨trials, after, hrun, -, hfatal⟩ :=
      exists_generate_recordAll hrequested hends hreached records
    refine ⟨.ofTrials trials, after, hrun, accounts_of_generate hrun, ?_⟩
    intro artifact hartifact haborted
    obtain ⟨trial, htrial, rfl⟩ := List.mem_map.mp hartifact
    obtain ⟨refusal, hout, hsevere⟩ := Trial.exists_fatal_of_aborted haborted
    exact hfatal trial htrial refusal hout hsevere

end

/-- Two delegates, a class, and a type without a full name. -/
def rerecordedTypes : Reflection :=
  let done : Signature := { params := [], returnType := .void }
  (TypeStore.empty.afterCalls
    [.declare (.namedDelegate "App.Done" done), .declare (.namedDelegate "App.Lost" done),
      .declare (.namedClass "App.Box"),
      .declare { name := "T", fullName := none, shape := .delegate }]).reflection

/-- Neither an unknown type nor one without a name is let down.  If wrong declarations are recorded
for two delegates and then the right ones for one of them, the other is aborted. -/
theorem generate_rerecorded :
    let keys : List TypeKey := [⟨32⟩, ⟨33⟩, ⟨34⟩, ⟨35⟩, ⟨99⟩]
    let wrong := NativeSymbols.conventional "App_Other"
    let records := [(⟨32⟩, wrong), (⟨33⟩, wrong), (⟨32⟩, .conventional "App_Done")]
    let rerecorded := (NativeLayer.conventional rerecordedTypes keys).recordAll records
    (∃ harvest after,
      (generate ⟨rerecordedTypes, {}, .conventional rerecordedTypes keys⟩ keys).run .empty =
        some (harvest, after) ∧
      ∀ artifact ∈ harvest.artifacts, artifact.product ≠ .aborted) ∧
    ∃ harvest after,
      (generate ⟨rerecordedTypes, {}, rerecorded⟩ keys).run .empty = some (harvest, after) ∧
      harvest.manifest.entries.map (fun entry => (entry.typeName, entry.severity)) =
        [("App.Lost", .fatal), ("App.Box", .skipped), ("T", .skipped), ("#99", .skipped)] ∧
      ∀ artifact ∈ harvest.artifacts, artifact.product = .aborted →
        NativeLayer.Misrecorded rerecordedTypes records artifact.key := by
  intro keys wrong records rerecorded
  have hlinks : ∀ key ∈ keys,
      ((resolveWithin rerecordedTypes {} 2 key).on .empty).isSome = true := by decide +kernel
  obtain ⟨⟨harvest, after, hrun, -, hnone⟩, hrecorded⟩ :=
    generate_conventional (List.Subset.refl keys) (fun key hkey => ⟨2, hlinks key hkey⟩)
      Catalogue.reached_empty
  refine ⟨⟨harvest, after, hrun, hnone⟩, ?_⟩
  have hentries : ((generate ⟨rerecordedTypes, {}, rerecorded⟩ keys).run .empty).map
      (·.1.manifest.entries.map fun entry => (entry.typeName, entry.severity)) =
      some [("App.Lost", .fatal), ("App.Box", .skipped), ("T", .skipped), ("#99", .skipped)] := by
    decide +kernel
  obtain ⟨harvest, after, hrun, -, haborted⟩ := hrecorded records
  rw [show (generate ⟨rerecordedTypes, {}, rerecorded⟩ keys).run .empty = some (harvest, after)
    from hrun] at hentries
  exact ⟨harvest, after, hrun, Option.some.inj hentries, haborted⟩

end Batch

end Interop
