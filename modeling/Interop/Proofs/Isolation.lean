/-
No type of a batch changes what becomes of another.

All types of a batch share one catalogue, and a type that is refused half-way has
described some of its types by then.  Writing the bindings of a type is work that
no history can change, though, and it leaves nothing behind but such a history, so
every type comes to what it would come to alone.  A batch is one type after another,
and several batches are one batch after another.
-/
import Interop.Batch
import Interop.Managed.TypeStore
import Interop.Proofs.Links

namespace Interop

/-! ### A wrapper without a catalogue -/

/-- Writes the bindings of a resolved delegate, if the declarations are its own. -/
def Wrapper.conclude (delegate : ResolvedDelegate) (symbols : NativeSymbols) :
    Except Refusal Wrapper := do
  Wrapper.checkNativeLayer delegate symbols
  (Wrapper.ofDelegate delegate symbols).mapError .conversion

/-- Writes the bindings of a type from nothing. -/
def wrapAfresh (types : Reflection) (settings : Settings) (native : NativeLayer)
    (key : TypeKey) : Option (Except Refusal Wrapper) :=
  match namedDelegateAt types key with
  | .error refusal => some (.error refusal)
  | .ok (_, fullName) =>
    match Wrapper.nativeSymbols native key fullName with
    | .error refusal => some (.error refusal)
    | .ok symbols =>
      (resolveAfresh types settings (types.keys.length + 1) key).map fun outcome =>
        match outcome with
        | .ok delegate => Wrapper.conclude delegate symbols
        | .error refusal => .error refusal

section

variable (types : Reflection) (settings : Settings) (native : NativeLayer)

theorem comesTo_concludeWrapper (delegate : ResolvedDelegate) (symbols : NativeSymbols) :
    (do
      Resolving.ofDecision (Wrapper.checkNativeLayer delegate symbols)
      Resolving.ofConversion (Wrapper.ofDelegate delegate symbols) :
        Resolving Wrapper).ComesTo types settings.unspecified
      (some (Wrapper.conclude delegate symbols)) := by
  exact (Resolving.comesTo_ofDecision _).bind fun _ => Resolving.comesTo_ofDecision _

/-- Remembering changes nothing about the bindings of a type. -/
theorem comesTo_wrap (key : TypeKey) :
    (wrap types settings native key).ComesTo types settings.unspecified
      (wrapAfresh types settings native key) := by
  rw [wrap, wrapAfresh]
  cases namedDelegateAt types key with
  | error refusal => exact (Resolving.comesTo_ofDecision _).bind_error
  | ok named =>
      obtain ⟨type, fullName⟩ := named
      refine (Resolving.comesTo_ofDecision _).bind_ok ?_
      dsimp only
      cases Wrapper.nativeSymbols native key fullName with
      | error refusal => exact (Resolving.comesTo_ofDecision _).bind_error
      | ok symbols =>
          refine (Resolving.comesTo_ofDecision _).bind_ok ?_
          dsimp only
          have hresolve := comesTo_resolveWithin types settings (types.keys.length + 1) key
          cases houtcome : resolveAfresh types settings (types.keys.length + 1) key with
          | none => exact (houtcome ▸ hresolve).bind_none
          | some outcome =>
              cases outcome with
              | error refusal => exact (houtcome ▸ hresolve).bind_error
              | ok delegate =>
                  exact (houtcome ▸ hresolve).bind_ok
                    (comesTo_concludeWrapper types settings delegate symbols)

variable {types settings} in
/-- There is an answer where resolving comes to an end. -/
theorem ResolveEnds.exists_wrapAfresh {key : TypeKey} (h : ResolveEnds types settings key) :
    ∃ outcome, wrapAfresh types settings native key = some outcome := by
  obtain ⟨outcome, houtcome⟩ := h.exists_outcome
  unfold wrapAfresh
  split
  · exact ⟨_, rfl⟩
  · split
    · exact ⟨_, rfl⟩
    · exact ⟨_, by rw [houtcome]; rfl⟩

end

/-! ### Work on a catalogue -/

/-- The work has the same outcome, or none, on every catalogue that requests can lead to, and
leads to such a catalogue again. -/
def Answers {α : Type} (types : Reflection) (unspecified : Nullness)
    (work : StateT Catalogue Option α) (outcome : Option α) : Prop :=
  ∀ catalogue : Catalogue, catalogue.Reached types unspecified →
    match outcome with
    | some result => ∃ after : Catalogue, after.Reached types unspecified ∧
        work.run catalogue = some (result, after)
    | none => work.run catalogue = none

namespace Answers

variable {α β : Type} {types : Reflection} {unspecified : Nullness}

theorem pure (value : α) : Answers types unspecified (pure value) (some value) :=
  fun catalogue hreached => ⟨catalogue, hreached, rfl⟩

theorem bind {work : StateT Catalogue Option α} {next : α → StateT Catalogue Option β}
    {outcome : Option α} {following : α → Option β} (h : Answers types unspecified work outcome)
    (hnext : ∀ value, Answers types unspecified (next value) (following value)) :
    Answers types unspecified (work >>= next) (outcome.bind following) := by
  intro catalogue hreached
  have hwork := h catalogue hreached
  cases outcome with
  | none =>
      show (work >>= next).run catalogue = none
      rw [StateT.run_bind, show work.run catalogue = none from hwork]
      rfl
  | some value =>
      obtain ⟨middle, hmiddle, hrun⟩ := hwork
      rw [StateT.run_bind, hrun]
      exact hnext value middle hmiddle

theorem map {work : StateT Catalogue Option α} {outcome : Option α}
    (h : Answers types unspecified work outcome) (f : α → β) :
    Answers types unspecified (do return f (← work)) (outcome.map f) := by
  rw [Option.map_eq_bind]
  exact h.bind fun value => pure (f value)

theorem mapM {work : α → StateT Catalogue Option β} {outcome : α → Option β}
    (h : ∀ item, Answers types unspecified (work item) (outcome item)) (list : List α) :
    Answers types unspecified (list.mapM work) (list.mapM outcome) := by
  induction list with
  | nil => exact pure []
  | cons first rest ih =>
      rw [List.mapM_cons, List.mapM_cons]
      exact (h first).bind fun value => ih.bind fun values => pure _

/-- What was answered was answered as it is from nothing, and a history is left. -/
theorem of_run {work : StateT Catalogue Option α} {outcome : Option α}
    (h : Answers types unspecified work outcome) {catalogue after : Catalogue} {result : α}
    (hreached : catalogue.Reached types unspecified)
    (hrun : work.run catalogue = some (result, after)) :
    outcome = some result ∧ after.Reached types unspecified := by
  have hwork := h catalogue hreached
  cases outcome with
  | none => cases hrun.symm.trans hwork
  | some value =>
      obtain ⟨left, hleft, hrun'⟩ := hwork
      cases hrun.symm.trans hrun'
      exact ⟨rfl, hleft⟩

/-- What is answered does not depend on the catalogue. -/
theorem fst_run {work : StateT Catalogue Option α} {outcome : Option α}
    (h : Answers types unspecified work outcome) {catalogue : Catalogue}
    (hreached : catalogue.Reached types unspecified) :
    (work.run catalogue).map Prod.fst = outcome := by
  have hwork := h catalogue hreached
  cases outcome with
  | none =>
      rw [show work.run catalogue = none from hwork]
      rfl
  | some result =>
      obtain ⟨after, -, hrun⟩ := hwork
      rw [hrun]
      rfl

end Answers

theorem Resolving.ComesTo.answers {α : Type} {types : Reflection} {unspecified : Nullness}
    {work : Resolving α} {outcome : Option (Except Refusal α)}
    (h : work.ComesTo types unspecified outcome) :
    Answers types unspecified work.run outcome := by
  intro catalogue hreached
  have hwork := h catalogue hreached
  cases outcome with
  | none => exact hwork
  | some result => exact hwork

/-! ### Trials -/

/-- The bindings of one key, or why there are none. -/
structure Trial where
  key : TypeKey
  typeName : String
  outcome : Except Refusal Wrapper

namespace Trial

/-- What is left for the key. -/
def artifact (trial : Trial) : Artifact where
  key := trial.key
  typeName := trial.typeName
  product :=
    match trial.outcome with
    | .ok wrapper => .generated wrapper
    | .error refusal =>
      if refusal.isFatal then .aborted else .skipped (refusal.skipComment trial.typeName)

/-- The entry of the key in the manifest, if there are no bindings. -/
def entry? (trial : Trial) : Option ManifestEntry :=
  match trial.outcome with
  | .ok _ => none
  | .error refusal => some (.ofRefusal trial.typeName refusal)

end Trial

namespace Harvest

/-- What came of a list of keys, given what became of each. -/
def ofTrials (trials : List Trial) : Harvest where
  artifacts := trials.map Trial.artifact
  manifest := ⟨trials.filterMap Trial.entry?⟩

/-- One more trial at the end adds what became of its key. -/
theorem add_ofTrials (trials : List Trial) (trial : Trial) :
    (ofTrials trials).add trial.key trial.typeName trial.outcome =
      ofTrials (trials ++ [trial]) := by
  obtain ⟨key, typeName, outcome⟩ := trial
  cases outcome <;>
    simp [ofTrials, add, push, Manifest.record, Product.ofRefusal, Trial.artifact, Trial.entry?]

end Harvest

/-! ### A batch without a catalogue -/

namespace Batch

variable (batch : Batch)

/-- What becomes of a type, from nothing. -/
def trialAfresh (key : TypeKey) : Option Trial :=
  (wrapAfresh batch.types batch.settings batch.native key).map fun outcome =>
    ⟨key, batch.types.nameOf key, outcome⟩

/-- One step adds one trial. -/
theorem answers_step (trials : List Trial) (key : TypeKey) :
    Answers batch.types batch.settings.unspecified (batch.step (.ofTrials trials) key)
      ((batch.trialAfresh key).map fun trial => .ofTrials (trials ++ [trial])) := by
  rw [trialAfresh, Option.map_map]
  have hadd : ((fun trial => Harvest.ofTrials (trials ++ [trial])) ∘ fun outcome =>
      ⟨key, batch.types.nameOf key, outcome⟩) =
      (Harvest.ofTrials trials).add key (batch.types.nameOf key) := by
    funext outcome
    exact (Harvest.add_ofTrials trials ⟨key, batch.types.nameOf key, outcome⟩).symm
  rw [hadd]
  exact (comesTo_wrap batch.types batch.settings batch.native key).answers.map _

/-- The steps of a batch add the trials of its keys, behind those that were had before. -/
theorem answers_steps (keys : List TypeKey) (trials : List Trial) :
    Answers batch.types batch.settings.unspecified (keys.foldlM batch.step (.ofTrials trials))
      ((keys.mapM batch.trialAfresh).map fun more => .ofTrials (trials ++ more)) := by
  intro catalogue hreached
  induction keys generalizing trials catalogue with
  | nil => exact ⟨catalogue, hreached, by simp⟩
  | cons key rest ih =>
      have hstep := batch.answers_step trials key catalogue hreached
      rw [List.foldlM_cons, List.mapM_cons, StateT.run_bind]
      cases htrial : batch.trialAfresh key with
      | none =>
          rw [htrial] at hstep
          rw [show (batch.step _ key).run catalogue = none from hstep]
          rfl
      | some trial =>
          rw [htrial] at hstep
          obtain ⟨middle, hmiddle, hrun⟩ := hstep
          have hrest := ih (trials ++ [trial]) middle hmiddle
          rw [hrun]
          cases hmore : rest.mapM batch.trialAfresh with
          | none =>
              rw [hmore] at hrest
              exact hrest
          | some more =>
              rw [hmore] at hrest
              simpa using hrest

theorem answers_generate (keys : List TypeKey) :
    Answers batch.types batch.settings.unspecified (batch.generate keys)
      ((keys.mapM batch.trialAfresh).map Harvest.ofTrials) :=
  batch.answers_steps keys []

/-- What comes of a type that is a batch of its own, with no batch before it. -/
def alone (key : TypeKey) : Option Harvest :=
  ((batch.generate [key]).run .empty).map Prod.fst

theorem alone_eq (key : TypeKey) :
    batch.alone key = (batch.trialAfresh key).map fun trial => Harvest.ofTrials [trial] := by
  refine ((batch.answers_generate [key]).fst_run Catalogue.reached_empty).trans ?_
  rw [List.mapM_cons]
  cases batch.trialAfresh key <;> rfl

/-! ### Isolation -/

variable {batch} in
/-- Trials that all have an outcome are had one by one. -/
theorem exists_trials {keys : List TypeKey}
    (houtcomes : ∀ key ∈ keys, ∃ outcome,
      wrapAfresh batch.types batch.settings batch.native key = some outcome) :
    ∃ trials, keys.mapM batch.trialAfresh = some trials ∧
      keys.map batch.alone = trials.map fun trial => some (Harvest.ofTrials [trial]) := by
  induction keys with
  | nil => exact ⟨[], rfl, rfl⟩
  | cons key rest ih =>
      obtain ⟨trials, htrials, halone⟩ := ih fun other hother =>
        houtcomes other (List.mem_cons_of_mem _ hother)
      obtain ⟨outcome, houtcome⟩ := houtcomes key List.mem_cons_self
      have htrial : batch.trialAfresh key =
          some ⟨key, batch.types.nameOf key, outcome⟩ := by
        rw [trialAfresh, houtcome]
        rfl
      refine ⟨⟨key, batch.types.nameOf key, outcome⟩ :: trials, ?_, ?_⟩
      · rw [List.mapM_cons, htrial, htrials]
        rfl
      · rw [List.map_cons, List.map_cons, halone, alone_eq, htrial]
        rfl

variable {batch} in
/-- So a batch of such types has an answer. -/
theorem exists_generate {keys : List TypeKey} {catalogue : Catalogue}
    (hreached : catalogue.Reached batch.types batch.settings.unspecified)
    (houtcomes : ∀ key ∈ keys, ∃ outcome,
      wrapAfresh batch.types batch.settings batch.native key = some outcome) :
    ∃ trials after, (batch.generate keys).run catalogue = some (Harvest.ofTrials trials, after) ∧
      keys.map batch.alone = trials.map fun trial => some (Harvest.ofTrials [trial]) := by
  obtain ⟨trials, htrials, halone⟩ := exists_trials houtcomes
  have hanswers := batch.answers_generate keys catalogue hreached
  rw [htrials] at hanswers
  obtain ⟨after, -, hrun⟩ := hanswers
  exact ⟨trials, after, hrun, halone⟩

/--
**Every type comes to what it comes to alone.**  After any batches, a batch of types
whose resolving comes to an end has an answer.  Its artifacts are, one by one, the
single artifacts of its types alone, and its manifest is theirs, one after another.
-/
theorem generate_eq_alone (earlier : List (List TypeKey)) (keys : List TypeKey)
    {harvests : List Harvest} {catalogue : Catalogue}
    (hearlier : (earlier.mapM batch.generate).run .empty = some (harvests, catalogue))
    (hends : ∀ key ∈ keys, ResolveEnds batch.types batch.settings key) :
    ∃ (harvest : Harvest) (after : Catalogue) (singles : List Harvest),
      (batch.generate keys).run catalogue = some (harvest, after) ∧
      keys.map batch.alone = singles.map some ∧
      singles.map (·.artifacts) = harvest.artifacts.map ([·]) ∧
      harvest.manifest.entries = singles.flatMap (·.manifest.entries) := by
  have hreached : catalogue.Reached batch.types batch.settings.unspecified :=
    ((Answers.mapM batch.answers_generate earlier).of_run Catalogue.reached_empty hearlier).2
  obtain ⟨trials, after, hrun, halone⟩ :=
    exists_generate hreached fun key hkey => (hends key hkey).exists_wrapAfresh batch.native
  refine ⟨.ofTrials trials, after, trials.map fun trial => .ofTrials [trial], hrun, ?_, ?_, ?_⟩
  · rw [halone, List.map_map]
    rfl
  · simp [Harvest.ofTrials]
  · simp [Harvest.ofTrials, List.flatMap_map, List.filterMap_eq_flatMap_toList]

/-- One delegate that gets bindings, and one that takes a parameter it only reads and does not. -/
def unequalPair : Batch where
  types :=
    let done : Signature := { params := [], returnType := .void }
    let seen : Signature := {
      params := [{ name := "at", type := .int32, passing := .readOnly }]
      returnType := .void }
    let store := (TypeStore.empty.register (.namedDelegate "App.Done" done)).2
    (store.register (.namedDelegate "App.Seen" seen)).2.reflection
  native := ⟨[(⟨32⟩, .conventional "App_Done"), (⟨33⟩, .conventional "App_Seen")]⟩

/-- Between two refusals, and after a batch with an unknown key, bindings are what they are
alone. -/
theorem generate_unequalPair :
    ∃ (harvests : List Harvest) (catalogue : Catalogue),
      ([[⟨99⟩, ⟨33⟩]].mapM unequalPair.generate).run .empty = some (harvests, catalogue) ∧
      ∃ (harvest : Harvest) (after : Catalogue) (singles : List Harvest),
        (unequalPair.generate [⟨33⟩, ⟨32⟩, ⟨33⟩]).run catalogue = some (harvest, after) ∧
        [⟨33⟩, ⟨32⟩, ⟨33⟩].map unequalPair.alone = singles.map some ∧
        singles.map (·.artifacts) = harvest.artifacts.map ([·]) ∧
        harvest.manifest.entries = singles.flatMap (·.manifest.entries) ∧
        harvest.artifacts.map (fun artifact =>
            (artifact.typeName, artifact.wrapper?.map (·.invoke.nativeFunction))) =
          [("App.Seen", none), ("App.Done", some "App_Done_Invoke"), ("App.Seen", none)] ∧
        harvest.manifest.entries.map (fun entry => (entry.typeName, entry.code)) =
          [("App.Seen", .e7003), ("App.Seen", .e7003)] := by
  obtain ⟨⟨harvests, catalogue⟩, hearlier⟩ := Option.isSome_iff_exists.mp
    (show (([[⟨99⟩, ⟨33⟩]].mapM unequalPair.generate).run .empty).isSome = true by decide +kernel)
  have hseen : ResolveEnds unequalPair.types unequalPair.settings ⟨33⟩ := ⟨1, by decide +kernel⟩
  have hdone : ResolveEnds unequalPair.types unequalPair.settings ⟨32⟩ := ⟨2, by decide +kernel⟩
  have hends : ∀ key ∈ [⟨33⟩, ⟨32⟩, ⟨33⟩],
      ResolveEnds unequalPair.types unequalPair.settings key := by
    simp [hseen, hdone]
  obtain ⟨harvest, after, singles, hrun, halone, hartifacts, hmanifest⟩ :=
    generate_eq_alone unequalPair [[⟨99⟩, ⟨33⟩]] [⟨33⟩, ⟨32⟩, ⟨33⟩] hearlier hends
  -- The two batches one after the other, as they are evaluated.
  have hboth : (([[⟨99⟩, ⟨33⟩]].mapM unequalPair.generate >>= fun _ =>
      unequalPair.generate [⟨33⟩, ⟨32⟩, ⟨33⟩]).run .empty).map (fun answer =>
        (answer.1.artifacts.map (fun artifact =>
          (artifact.typeName, artifact.wrapper?.map (·.invoke.nativeFunction))),
        answer.1.manifest.entries.map fun entry => (entry.typeName, entry.code))) =
      some ([("App.Seen", none), ("App.Done", some "App_Done_Invoke"), ("App.Seen", none)],
        [("App.Seen", .e7003), ("App.Seen", .e7003)]) := by decide +kernel
  rw [StateT.run_bind, hearlier, Option.bind_eq_bind, Option.bind_some, hrun, Option.map_some,
    Option.some.injEq, Prod.mk.injEq] at hboth
  exact ⟨harvests, catalogue, hearlier, harvest, after, singles, hrun, halone, hartifacts,
    hmanifest, hboth⟩

end Batch

end Interop
