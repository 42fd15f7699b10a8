/-
Nothing that is asked for disappears, and nothing is reported twice.

A batch fills two lists as it goes: what was written for each type, and the manifest
of the types without bindings.  Every step adds to the first one, and only a refusal
adds to the second.  What is kept from step to step is that the entries of the
manifest say, one by one and in order, what the artifacts without bindings show.  The
counts at the top of a report follow from this.

A batch may also have no answer at all.  That is so exactly if there is a type among
those it was asked for which the native layer has declarations for and whose chain of
bases is never resolved to its end.

Over a store the types are its delegates, each once and in the order of their keys,
so nothing is reported for not being a delegate.
-/
import Interop.Proofs.CutLoops
import Interop.Proofs.StoreKeys

namespace Interop

/-! ### What an entry says of an artifact -/

/-- An entry of the manifest says what became of a type. -/
structure ManifestEntry.TellsOf (entry : ManifestEntry) (artifact : Artifact) : Prop where
  typeName : entry.typeName = artifact.typeName
  /-- What is fatal was aborted, and nothing else. -/
  fatal_iff : entry.severity = .fatal ↔ artifact.product = .aborted
  /-- What was aborted left no text. -/
  silent : artifact.product = .aborted → artifact.text? = none
  /-- What is skipped left a comment, and nothing else did. -/
  skipped_iff : entry.severity = .skipped ↔ ∃ comment, artifact.product = .skipped comment
  /-- The comment gives the name and the reason of the entry. -/
  comment_eq : ∀ comment, artifact.product = .skipped comment →
    comment = "// Type \"" ++ entry.typeName ++ "\" was skipped. Reason: " ++ entry.reason

/-- The entry of a refusal says what is left otherwise of a type that is refused. -/
theorem ManifestEntry.tellsOf_ofRefusal (key : TypeKey) (typeName : String) (refusal : Refusal) :
    (ManifestEntry.ofRefusal typeName refusal).TellsOf
      { key, typeName, product := .ofRefusal typeName refusal } := by
  have hseverity : (ManifestEntry.ofRefusal typeName refusal).severity = refusal.severity := rfl
  cases hsevere : refusal.severity with
  | fatal =>
      rw [Product.ofRefusal, if_pos (by rw [Refusal.isFatal, hsevere]; rfl)]
      refine ⟨rfl, ?_, fun _ => rfl, ?_, fun _ hskipped => ?_⟩
      · simp [hseverity, hsevere]
      · simp [hseverity, hsevere]
      · cases hskipped
  | skipped =>
      rw [Product.ofRefusal, if_neg (by rw [Refusal.isFatal, hsevere]; decide)]
      refine ⟨rfl, ?_, fun haborted => ?_, ?_, fun _ hskipped => ?_⟩
      · simp [hseverity, hsevere]
      · cases haborted
      · simp [hseverity, hsevere]
      · cases hskipped
        rfl

/-! ### What a harvest accounts for -/

/-- A harvest accounts for each of the types at some keys. -/
structure Harvest.Accounts (harvest : Harvest) (keys : List TypeKey) : Prop where
  /-- There is one artifact for each key, in order. -/
  keys_eq : harvest.artifacts.map (·.key) = keys
  /-- There is one entry for each artifact without bindings, in order. -/
  entries : List.Forall₂ ManifestEntry.TellsOf harvest.manifest.entries
    (harvest.artifacts.filter (·.wrapper?.isNone))
  /-- Every type has bindings, or was skipped, or was aborted. -/
  counts : harvest.wrappers.length + harvest.manifest.skipped.length +
    harvest.manifest.fatal.length = keys.length
  /-- A report starts with how many types have no bindings, and of which kind they are. -/
  report_eq : harvest.manifest.report =
    toString (harvest.manifest.skipped.length + harvest.manifest.fatal.length) ++
      " type(s) without bindings (" ++ toString harvest.manifest.skipped.length ++ " skipped, " ++
      toString harvest.manifest.fatal.length ++ " fatal)" ++
      String.join (harvest.manifest.entries.map fun entry => "\n" ++ entry.text)

namespace Manifest

/-- Every entry is counted once. -/
theorem length_skipped_add_fatal (manifest : Manifest) :
    manifest.skipped.length + manifest.fatal.length = manifest.size := by
  have hother : (fun entry : ManifestEntry => entry.severity == .fatal) = fun entry =>
      !(entry.severity == .skipped) := by
    funext entry
    cases entry.severity <;> rfl
  rw [skipped, fatal, size, hother]
  exact (List.length_eq_length_filter_add _).symm

/-- The counts of a report are those of its entries. -/
theorem report_eq (manifest : Manifest) :
    manifest.report =
      toString (manifest.skipped.length + manifest.fatal.length) ++
        " type(s) without bindings (" ++ toString manifest.skipped.length ++ " skipped, " ++
        toString manifest.fatal.length ++ " fatal)" ++
        String.join (manifest.entries.map fun entry => "\n" ++ entry.text) := by
  have hsum := manifest.length_skipped_add_fatal
  have hskipped : manifest.size - manifest.fatal.length = manifest.skipped.length := by omega
  rw [report, header, hskipped, hsum]

end Manifest

namespace Harvest

/-- The counts follow from the two lists. -/
theorem Accounts.of_entries {harvest : Harvest} {keys : List TypeKey}
    (hkeys : harvest.artifacts.map (·.key) = keys)
    (hentries : List.Forall₂ ManifestEntry.TellsOf harvest.manifest.entries
      (harvest.artifacts.filter (·.wrapper?.isNone))) : harvest.Accounts keys := by
  refine ⟨hkeys, hentries, ?_, Manifest.report_eq _⟩
  -- An artifact has bindings or an entry.
  have hwritten : harvest.wrappers.length =
      (harvest.artifacts.filter (·.wrapper?.isSome)).length := by
    rw [wrappers, List.length_filterMap_eq_countP, List.countP_eq_length_filter]
  have hsize : harvest.manifest.size = _ := hentries.length_eq
  have hsum := harvest.manifest.length_skipped_add_fatal
  have hall : harvest.artifacts.length = _ :=
    List.length_eq_length_filter_add (·.wrapper?.isSome)
  simp only [Option.not_isSome] at hall
  rw [← hkeys, List.length_map]
  omega

/-- At the start there is nothing to account for. -/
theorem accounts_empty : Accounts {} [] := .of_entries rfl .nil

/-- **What becomes of one more key is accounted for.** -/
theorem Accounts.add {harvest : Harvest} {keys : List TypeKey} (h : harvest.Accounts keys)
    (key : TypeKey) (typeName : String) (outcome : Except Refusal Wrapper) :
    (harvest.add key typeName outcome).Accounts (keys ++ [key]) := by
  cases outcome with
  | ok wrapper =>
      refine .of_entries ?_ ?_
      · simp [Harvest.add, push, h.keys_eq]
      · -- Bindings add nothing to the manifest, nor to the artifacts without bindings.
        simpa [Harvest.add, push, List.filter_append, Artifact.wrapper?] using h.entries
  | error refusal =>
      have htells := ManifestEntry.tellsOf_ofRefusal key typeName refusal
      have hnone : Artifact.wrapper? { key, typeName, product := .ofRefusal typeName refusal } =
          none := by
        unfold Product.ofRefusal Artifact.wrapper?
        cases refusal.isFatal <;> rfl
      refine .of_entries ?_ ?_
      · simp [Harvest.add, push, h.keys_eq]
      · have hone := List.Forall₂.cons htells .nil
        simpa [Harvest.add, push, Manifest.record, List.filter_append, hnone] using
          List.rel_append h.entries hone

end Harvest

/-! ### Batches -/

section

open Requirement

variable {types : Reflection} {settings : Settings} {native : NativeLayer} {key : TypeKey}
  {type : ManagedType}

/-- Nothing objects that a delegate is none. -/
theorem objection_ne_notADelegate (htype : types.get? key = some type)
    (hshape : type.shape = .delegate) (requirement : Requirement) :
    objection types settings native key requirement ≠ some .notADelegate := by
  cases requirement with
  | describable =>
      -- What cannot be described may lack a name, but it is never found to be no delegate.
      simp only [objection, htype, Option.bind_eq_bind, Option.bind_some]
      intro h
      obtain ⟨signature, -, h⟩ := Option.bind_eq_some_iff.mp h
      obtain ⟨error, -, h⟩ := Option.bind_eq_some_iff.mp h
      cases error <;> cases h
  | _ => simp [objection, htype, hshape, Option.bind_eq_some_iff]

end

namespace Batch

variable {batch : Batch}

/-- Trials from nothing are those of their keys, one by one. -/
theorem trials_of_mapM {keys : List TypeKey} {trials : List Trial}
    (h : keys.mapM batch.trialAfresh = some trials) :
    trials.map (·.key) = keys ∧ ∀ trial ∈ trials,
      wrapAfresh batch.types batch.settings batch.native trial.key = some trial.outcome := by
  have hafresh := mapM_eq_some_iff.mp h
  clear h
  induction hafresh with
  | nil => exact ⟨rfl, by simp⟩
  | cons htrial _ ih =>
      obtain ⟨outcome, houtcome, rfl⟩ := Option.map_eq_some_iff.mp htrial
      exact ⟨by rw [List.map_cons, ih.1], List.forall_mem_cons.mpr ⟨houtcome, ih.2⟩⟩

/-- What comes of a batch is made of what becomes of its types from nothing. -/
theorem generate_eq_some {keys : List TypeKey} {harvest : Harvest} {catalogue after : Catalogue}
    (hreached : catalogue.Reached batch.types batch.settings.unspecified)
    (h : (batch.generate keys).run catalogue = some (harvest, after)) :
    ∃ trials, harvest = .ofTrials trials ∧ trials.map (·.key) = keys ∧
      ∀ trial ∈ trials,
        wrapAfresh batch.types batch.settings batch.native trial.key = some trial.outcome := by
  obtain ⟨trials, htrials, hharvest⟩ :=
    Option.map_eq_some_iff.mp ((batch.answers_generate keys).of_run hreached h).1
  exact ⟨trials, hharvest.symm, trials_of_mapM htrials⟩

/-- A step adds what becomes of its key. -/
theorem step_eq_some {harvest next : Harvest} {key : TypeKey} {catalogue after : Catalogue}
    (h : (batch.step harvest key).run catalogue = some (next, after)) :
    ∃ outcome, next = harvest.add key (batch.types.nameOf key) outcome := by
  rw [step, StateT.run_bind] at h
  obtain ⟨⟨outcome, middle⟩, -, hadd⟩ := Option.bind_eq_some_iff.mp h
  cases hadd
  exact ⟨outcome, rfl⟩

/-- **All steps of a batch account for its keys**, behind those that were accounted for before. -/
theorem accounts_steps {keys done : List TypeKey} {harvest result : Harvest}
    {catalogue after : Catalogue} (h : harvest.Accounts done)
    (hrun : (keys.foldlM batch.step harvest).run catalogue = some (result, after)) :
    result.Accounts (done ++ keys) := by
  induction keys generalizing done harvest catalogue with
  | nil =>
      cases hrun
      rwa [List.append_nil]
  | cons key rest ih =>
      rw [List.foldlM_cons, StateT.run_bind] at hrun
      obtain ⟨⟨next, middle⟩, hstep, hrest⟩ := Option.bind_eq_some_iff.mp hrun
      obtain ⟨outcome, rfl⟩ := step_eq_some hstep
      rw [List.append_cons]
      exact ih (h.add key (batch.types.nameOf key) outcome) hrest

/-- What comes of a batch accounts for its keys. -/
theorem accounts_of_generate {keys : List TypeKey} {harvest : Harvest}
    {catalogue after : Catalogue}
    (h : (batch.generate keys).run catalogue = some (harvest, after)) : harvest.Accounts keys :=
  accounts_steps Harvest.accounts_empty h

/-- The keys of a batch over a store are those of its own delegates. -/
theorem mem_delegateKeys_iff {store : TypeStore} (htypes : batch.types = store.reflection)
    (hroom : store.HasRoom) {key : TypeKey} :
    key ∈ batch.delegateKeys ↔ key.isBuiltin = false ∧
      ∃ type, store.get? key = some type ∧ type.shape = .delegate := by
  have hkeys : key ∈ store.keys ↔ ∃ type, store.get? key = some type :=
    (TypeStore.mem_keys_iff_isSome hroom).trans Option.isSome_iff_exists
  simp only [delegateKeys, htypes, TypeStore.keys_reflection hroom,
    TypeStore.get?_reflection hroom, List.mem_filter, hkeys, Bool.and_eq_true, Bool.not_eq_true',
    Option.any_eq_true, Shape.isDelegate_iff]
  constructor
  · rintro ⟨-, hbuiltin, htype⟩
    exact ⟨hbuiltin, htype⟩
  · rintro ⟨hbuiltin, type, htype, hshape⟩
    exact ⟨⟨type, htype⟩, hbuiltin, type, htype, hshape⟩

/-- They increase. -/
theorem delegateKeys_increasing {store : TypeStore} (htypes : batch.types = store.reflection)
    (hroom : store.HasRoom) :
    batch.delegateKeys.Pairwise fun key other => key.raw < other.raw := by
  rw [delegateKeys, htypes, TypeStore.keys_reflection hroom]
  exact (TypeStore.keys_increasing hroom).filter _

/-- Nothing is reported for not being a delegate where every key is that of one. -/
theorem code_ne_of_delegates {keys : List TypeKey} {harvest : Harvest}
    {catalogue after : Catalogue}
    (hreached : catalogue.Reached batch.types batch.settings.unspecified)
    (h : (batch.generate keys).run catalogue = some (harvest, after))
    (hkeys : ∀ key ∈ keys, ∃ type, batch.types.get? key = some type ∧ type.shape = .delegate) :
    ∀ entry ∈ harvest.manifest.entries, entry.code ≠ .e7002 := by
  obtain ⟨trials, rfl, rfl, houtcomes⟩ := generate_eq_some hreached h
  intro entry hentry hcode
  obtain ⟨trial, htrial, hentry⟩ := List.mem_filterMap.mp hentry
  obtain ⟨type, htype, hshape⟩ := hkeys trial.key (List.mem_map_of_mem htrial)
  have hfirst := error?_wrapAfresh batch.native (houtcomes trial htrial)
  cases hout : trial.outcome with
  | ok wrapper =>
      rw [Trial.entry?, hout] at hentry
      cases hentry
  | error refusal =>
      rw [Trial.entry?, hout] at hentry
      cases hentry
      have hrefusal : refusal = .notADelegate := by
        cases refusal <;> first | rfl | cases hcode
      rw [hout, error?_error, hrefusal] at hfirst
      obtain ⟨requirement, -, hobjection⟩ := List.exists_of_findSome?_eq_some hfirst.symm
      exact objection_ne_notADelegate htype hshape requirement hobjection

/-! ### Batches without an answer -/

section

variable {types : Reflection} {settings : Settings} {native : NativeLayer} {key : TypeKey}

/-- Nothing is resolved of what is not a delegate with a name. -/
theorem resolveEnds_of_unnamed {refusal : Refusal}
    (h : namedDelegateAt types key = .error refusal) : ResolveEnds types settings key := by
  have hsurvey : survey types settings key = .error refusal := by
    rw [survey, h]
    rfl
  have hbase : baseToResolve types settings key = none := by rw [baseToResolve, hsurvey]
  exact resolveEnds_iff_isSome.mpr ⟨1, isSome_resolveAfresh_succ_of_none 0 hbase⟩

/-- A type has an outcome exactly if the native layer has nothing for it, or resolving it comes to
an end. -/
theorem exists_wrapAfresh_iff :
    (∃ outcome, wrapAfresh types settings native key = some outcome) ↔
      native.get? key = none ∨ ResolveEnds types settings key := by
  refine ⟨?_, fun h => h.elim ?_ fun hends => hends.exists_wrapAfresh native⟩
  · rintro ⟨outcome, houtcome⟩
    unfold wrapAfresh at houtcome
    split at houtcome
    · exact .inr (resolveEnds_of_unnamed ‹_›)
    · cases hnative : native.get? key with
      | none => exact .inl rfl
      | some symbols =>
          rw [Wrapper.nativeSymbols, hnative] at houtcome
          obtain ⟨_, hresolve, -⟩ := Option.map_eq_some_iff.mp houtcome
          exact .inr (resolveEnds_iff_isSome.mpr ⟨_, by rw [hresolve]; rfl⟩)
  · intro hnative
    unfold wrapAfresh
    split
    · exact ⟨_, rfl⟩
    · rw [Wrapper.nativeSymbols, hnative]
      exact ⟨_, rfl⟩

end

/-- **A batch has an answer exactly if every key has an outcome.** -/
theorem exists_generate_iff {keys : List TypeKey} {catalogue : Catalogue}
    (hreached : catalogue.Reached batch.types batch.settings.unspecified) :
    (∃ harvest after, (batch.generate keys).run catalogue = some (harvest, after)) ↔
      ∀ key ∈ keys, batch.native.get? key = none ∨
        ResolveEnds batch.types batch.settings key := by
  simp only [← exists_wrapAfresh_iff]
  constructor
  · rintro ⟨harvest, after, hrun⟩ key hkey
    obtain ⟨trials, -, rfl, houtcomes⟩ := generate_eq_some hreached hrun
    obtain ⟨trial, htrial, rfl⟩ := List.mem_map.mp hkey
    exact ⟨_, houtcomes trial htrial⟩
  · intro houtcomes
    obtain ⟨trials, after, hrun, -⟩ := exists_generate hreached houtcomes
    exact ⟨.ofTrials trials, after, hrun⟩

/--
**Nothing disappears, and nothing is reported twice.**  After any requests, a batch has an
answer exactly if, for each of its keys, the native layer has nothing or resolving comes
to an end; where every loop of bases is cut, it always does.  Every answer accounts for all
its keys, and the next batch can follow.  The batch of all delegates of a store has an
answer under the same condition on them.  Then it has each of them once, in the order of
their keys, and reports none for being no delegate.
-/
theorem generate_accounts (batch : Batch) {catalogue : Catalogue}
    (hreached : catalogue.Reached batch.types batch.settings.unspecified) :
    (∀ keys, (∃ harvest after, (batch.generate keys).run catalogue = some (harvest, after)) ↔
      ∀ key ∈ keys, batch.native.get? key = none ∨
        ResolveEnds batch.types batch.settings key) ∧
    (LoopsCut batch.types batch.settings →
      ∀ keys, ∃ harvest after, (batch.generate keys).run catalogue = some (harvest, after)) ∧
    (∀ keys harvest after, (batch.generate keys).run catalogue = some (harvest, after) →
      harvest.Accounts keys ∧ after.Reached batch.types batch.settings.unspecified) ∧
    ∀ store : TypeStore, batch.types = store.reflection → store.HasRoom →
      ((∃ harvest after, batch.generateAll.run catalogue = some (harvest, after)) ↔
        ∀ key type, key.isBuiltin = false → store.get? key = some type →
          type.shape = .delegate →
          batch.native.get? key = none ∨ ResolveEnds batch.types batch.settings key) ∧
      ∀ harvest after, batch.generateAll.run catalogue = some (harvest, after) →
        harvest.Accounts (harvest.artifacts.map (·.key)) ∧
        (harvest.artifacts.map (·.key)).Pairwise (fun key other => key.raw < other.raw) ∧
        (∀ key, key ∈ harvest.artifacts.map (·.key) ↔ key.isBuiltin = false ∧
          ∃ type, store.get? key = some type ∧ type.shape = .delegate) ∧
        ∀ entry ∈ harvest.manifest.entries, entry.code ≠ .e7002 := by
  refine ⟨fun keys => exists_generate_iff hreached,
    fun hcut keys => (exists_generate_iff hreached).mpr fun key _ => .inr (hcut.resolveEnds key),
    ?_, ?_⟩
  · intro keys harvest after hrun
    exact ⟨accounts_of_generate hrun, ((batch.answers_generate keys).of_run hreached hrun).2⟩
  · intro store htypes hroom
    constructor
    · refine (exists_generate_iff hreached).trans ?_
      simp only [mem_delegateKeys_iff htypes hroom]
      constructor
      · intro h key type hbuiltin htype hshape
        exact h key ⟨hbuiltin, type, htype, hshape⟩
      · rintro h key ⟨hbuiltin, type, htype, hshape⟩
        exact h key type hbuiltin htype hshape
    · intro harvest after hrun
      have haccounts := accounts_of_generate hrun
      rw [haccounts.keys_eq]
      refine ⟨haccounts, delegateKeys_increasing htypes hroom,
        fun key => mem_delegateKeys_iff htypes hroom,
        code_ne_of_delegates hreached hrun fun key hkey => ?_⟩
      obtain ⟨-, type, htype, hshape⟩ := (mem_delegateKeys_iff htypes hroom).mp hkey
      rw [htypes, TypeStore.get?_reflection hroom]
      exact ⟨type, htype, hshape⟩

/-- A store with a class and three delegates: one gets bindings, one takes a parameter it only
reads, and for one nothing is declared. -/
def mixedStore : TypeStore :=
  let done : Signature := { params := [], returnType := .void }
  let seen : Signature := {
    params := [{ name := "at", type := .int32, passing := .readOnly }]
    returnType := .void }
  TypeStore.empty.afterCalls
    [.declare (.namedDelegate "App.Done" done), .declare (.namedClass "App.Box"),
      .declare (.namedDelegate "App.Seen" seen), .declare (.namedDelegate "App.Lost" done)]

/-- A batch over these types. -/
def mixed : Batch where
  types := mixedStore.reflection
  native := .conventional mixedStore.reflection [⟨32⟩, ⟨34⟩]

/-- Whatever became of the types, all are accounted for, also one that is asked for twice and one
that is not there. -/
theorem generate_mixed :
    (∃ harvest after,
      (mixed.generate [⟨34⟩, ⟨99⟩, ⟨33⟩, ⟨32⟩, ⟨34⟩]).run .empty = some (harvest, after) ∧
      harvest.Accounts [⟨34⟩, ⟨99⟩, ⟨33⟩, ⟨32⟩, ⟨34⟩] ∧ harvest.manifest.size = 4) ∧
    ∃ harvest after, mixed.generateAll.run .empty = some (harvest, after) ∧
      harvest.artifacts.map (·.key) = [⟨32⟩, ⟨34⟩, ⟨35⟩] ∧
      harvest.manifest.entries.map (·.code) = [.e7003, .e8001] ∧
      ∀ entry ∈ harvest.manifest.entries, entry.code ≠ .e7002 := by
  obtain ⟨hanswer, -, haccounts, hall⟩ := generate_accounts mixed Catalogue.reached_empty
  have hlinks : ∀ key ∈ [⟨34⟩, ⟨99⟩, ⟨33⟩, ⟨32⟩, ⟨34⟩],
      ((resolveWithin mixed.types mixed.settings 2 key).on .empty).isSome = true := by
    decide +kernel
  have hsize : ((mixed.generate [⟨34⟩, ⟨99⟩, ⟨33⟩, ⟨32⟩, ⟨34⟩]).run .empty).map
      (·.1.manifest.size) = some 4 := by decide +kernel
  have hdelegates : (mixed.generateAll.run .empty).map
      (fun (harvest, _) => (harvest.artifacts.map (·.key), harvest.manifest.entries.map (·.code))) =
      some ([⟨32⟩, ⟨34⟩, ⟨35⟩], [.e7003, .e8001]) := by decide +kernel
  constructor
  · obtain ⟨harvest, after, hrun⟩ :=
      (hanswer _).mpr fun key hkey => .inr ⟨2, hlinks key hkey⟩
    rw [hrun] at hsize
    exact ⟨harvest, after, hrun, (haccounts _ harvest after hrun).1, Option.some.inj hsize⟩
  · obtain ⟨⟨harvest, after⟩, hrun, hboth⟩ := Option.map_eq_some_iff.mp hdelegates
    obtain ⟨hkeys, hcodes⟩ := Prod.mk.inj hboth
    have hroom : mixedStore.HasRoom := by decide +kernel
    obtain ⟨-, -, -, hdelegate⟩ := (hall mixedStore rfl hroom).2 harvest after hrun
    exact ⟨harvest, after, hrun, hkeys, hcodes, hdelegate⟩

/-- Two delegates that are each the base of the other, and both have their declarations. -/
def ring : Batch :=
  let done : Signature := { params := [], returnType := .void }
  let types := (TypeStore.empty.afterCalls
    [.declare { ManagedType.namedDelegate "A.P" done with base := some ⟨33⟩ },
      .declare { ManagedType.namedDelegate "A.Q" done with base := some ⟨32⟩ }]).reflection
  { types, native := .conventional types types.keys }

/-- Neither of them is ever reported: there is no answer at all. -/
theorem generate_ring :
    (ring.generate [⟨32⟩, ⟨33⟩]).run .empty = none ∧ ring.generateAll.run .empty = none := by
  decide +kernel

end Batch

end Interop
