/-
As many links as there are keys are always enough.

Bases are followed with nothing that remembers where the chain has been, so a
chain may never end, and the number of links that may be followed is all that
stops it.  What is shown here is that this number is nothing but a bound: an answer
found along some links is found along any larger number of them, and a key that
has an answer at all has one along one link more than there are keys.

The second part counts.  Take the least number of links that gives a key its
answer.  The next key of the chain needs exactly one link less, so so many keys are
passed, all of them on the chain and no key twice, and each key that is left behind
is known to reflection.
-/
import Interop.Proofs.ResolveAfresh
import Mathlib.Data.List.Nodup
import Mathlib.Data.List.Perm.Subperm
import Mathlib.Data.Nat.Find
import Mathlib.Logic.Relation

namespace Interop

section

variable {types : Reflection} {settings : Settings} {key : TypeKey}

/-! ### One link -/

/-- The type at one key is the base of the type at another one. -/
def Reflection.IsBase (types : Reflection) (base key : TypeKey) : Prop :=
  ∃ type, types.get? key = some type ∧ type.base = some base

instance (types : Reflection) (base key : TypeKey) : Decidable (types.IsBase base key) :=
  decidable_of_iff ((types.get? key).bind (·.base) = some base) Option.bind_eq_some_iff

/-- From base to base, one comes from a key to another one, if only by staying there. -/
def Reflection.OnChain (types : Reflection) (key other : TypeKey) : Prop :=
  Relation.ReflTransGen types.IsBase other key

/-- Resolving goes on to bases that reflection tells of. -/
theorem isBase_of_baseToResolve {base : TypeKey}
    (h : baseToResolve types settings key = some base) : types.IsBase base key := by
  unfold baseToResolve at h
  cases hsurvey : survey types settings key with
  | error refusal => rw [hsurvey] at h; cases h
  | ok found =>
      rw [hsurvey] at h
      obtain ⟨_, hnamed, -⟩ := survey_eq_ok hsurvey
      exact ⟨found.type, (namedDelegateAt_eq_ok hnamed).1, h⟩

/-- Where resolving goes on to no base there is an answer at once. -/
theorem isSome_resolveAfresh_succ_of_none (links : Nat)
    (h : baseToResolve types settings key = none) :
    (resolveAfresh types settings (links + 1) key).isSome = true := by
  rw [resolveAfresh]
  unfold baseToResolve at h
  cases hsurvey : survey types settings key with
  | error refusal => rfl
  | ok found =>
      rw [hsurvey] at h
      dsimp only at h ⊢
      rw [h]
      rfl

/-- Where it does there is an answer if the base has one along one link less. -/
theorem isSome_resolveAfresh_succ_of_some (links : Nat) {base : TypeKey}
    (h : baseToResolve types settings key = some base) :
    (resolveAfresh types settings (links + 1) key).isSome =
      (resolveAfresh types settings links base).isSome := by
  rw [resolveAfresh]
  unfold baseToResolve at h
  cases hsurvey : survey types settings key with
  | error refusal => rw [hsurvey] at h; cases h
  | ok found =>
      rw [hsurvey] at h
      dsimp only at h ⊢
      rw [h]
      exact Option.isSome_map

/-- And none if it has none. -/
theorem resolveAfresh_succ_eq_none_iff {links : Nat} {base : TypeKey}
    (h : baseToResolve types settings key = some base) :
    resolveAfresh types settings (links + 1) key = none ↔
      resolveAfresh types settings links base = none := by
  rw [← Option.not_isSome_iff_eq_none, ← Option.not_isSome_iff_eq_none,
    isSome_resolveAfresh_succ_of_some links h]

/-- Whether there is an answer depends on nothing but the bases that are resolved. -/
theorem isSome_resolveAfresh_congr {others : Reflection} {settings' : Settings}
    (h : ∀ key, baseToResolve others settings' key = baseToResolve types settings key)
    (links : Nat) : ∀ key, (resolveAfresh others settings' links key).isSome =
      (resolveAfresh types settings links key).isSome := by
  induction links with
  | zero => intro key; rfl
  | succ links ih =>
      intro key
      cases hbase : baseToResolve types settings key with
      | none =>
          rw [isSome_resolveAfresh_succ_of_none links hbase,
            isSome_resolveAfresh_succ_of_none links ((h key).trans hbase)]
      | some base =>
          rw [isSome_resolveAfresh_succ_of_some links hbase,
            isSome_resolveAfresh_succ_of_some links ((h key).trans hbase), ih base]

/-! ### Any number of links -/

/-- An answer stays the same if one more link may be followed. -/
theorem resolveAfresh_succ {outcome : Except Refusal ResolvedDelegate} :
    ∀ {links : Nat} {key : TypeKey}, resolveAfresh types settings links key = some outcome →
      resolveAfresh types settings (links + 1) key = some outcome := by
  intro links
  induction links generalizing outcome with
  | zero => intro key h; cases h
  | succ links ih =>
      intro key h
      rw [resolveAfresh] at h ⊢
      cases hsurvey : survey types settings key with
      | error refusal => rw [hsurvey] at h; exact h
      | ok found =>
          rw [hsurvey] at h
          dsimp only at h ⊢
          cases hbase : found.type.base with
          | none => rw [hbase] at h; exact h
          | some base =>
              rw [hbase] at h
              dsimp only at h ⊢
              obtain ⟨baseOutcome, hresolve, rfl⟩ := Option.map_eq_some_iff.mp h
              rw [ih hresolve]
              rfl

theorem resolveAfresh_mono {outcome : Except Refusal ResolvedDelegate} {links more : Nat}
    (hmore : links ≤ more) (h : resolveAfresh types settings links key = some outcome) :
    resolveAfresh types settings more key = some outcome := by
  induction hmore with
  | refl => exact h
  | step _ ih => exact resolveAfresh_succ ih

/-- A key without a base to go on to needs a single link. -/
theorem links_eq_zero {links : Nat} (h : baseToResolve types settings key = none)
    (hleast : ∀ fewer < links + 1, resolveAfresh types settings fewer key = none) : links = 0 := by
  by_contra hmore
  have hsome := isSome_resolveAfresh_succ_of_none 0 h
  rw [hleast 1 (by omega)] at hsome
  cases hsome

/-- The least number of links that gives an answer is that of the keys that are passed. -/
theorem exists_passed (links : Nat) :
    ∀ key, (resolveAfresh types settings links key).isSome = true →
      (∀ fewer < links, resolveAfresh types settings fewer key = none) →
      ∃ passed : List TypeKey, passed.length = links ∧ passed.Nodup ∧
        passed.dropLast ⊆ types.keys ∧
        ∀ other ∈ passed, types.OnChain key other ∧
          (resolveAfresh types settings links other).isSome = true := by
  induction links with
  | zero => exact fun key _ _ => ⟨[], rfl, .nil, nofun, nofun⟩
  | succ links ih =>
      intro key hanswer hleast
      cases hbase : baseToResolve types settings key with
      | none =>
          obtain rfl := links_eq_zero hbase hleast
          refine ⟨[key], rfl, List.nodup_singleton key, nofun, fun other hother => ?_⟩
          obtain rfl := List.mem_singleton.mp hother
          exact ⟨.refl, hanswer⟩
      | some base =>
          have hbelow := (isSome_resolveAfresh_succ_of_some links hbase).symm.trans hanswer
          obtain ⟨passed, hlength, hnodup, hknown, hpassed⟩ := ih base hbelow fun fewer hlt =>
            (resolveAfresh_succ_eq_none_iff hbase).mp (hleast (fewer + 1) (Nat.succ_lt_succ hlt))
          have hfresh : key ∉ passed := by
            intro hmem
            have hsooner := (hpassed key hmem).2
            rw [hleast links (Nat.lt_succ_self links)] at hsooner
            cases hsooner
          have hstep := isBase_of_baseToResolve hbase
          refine ⟨key :: passed, by rw [List.length_cons, hlength],
            List.nodup_cons.mpr ⟨hfresh, hnodup⟩, ?_, fun other hother => ?_⟩
          · obtain ⟨type, htype, -⟩ := hstep
            cases passed with
            | nil => nofun
            | cons next following =>
                rw [List.dropLast_cons_cons]
                exact List.cons_subset.mpr ⟨Reflection.mem_keys_of_get? htype, hknown⟩
          · rcases List.mem_cons.mp hother with rfl | hmem
            · exact ⟨.refl, hanswer⟩
            · obtain ⟨hchain, hsome⟩ := hpassed other hmem
              obtain ⟨outcome, houtcome⟩ := Option.isSome_iff_exists.mp hsome
              exact ⟨.tail hchain hstep, by rw [resolveAfresh_succ houtcome]; rfl⟩

/-! ### Enough links -/

variable (types settings) in
/-- Resolving a key comes to an end. -/
def ResolveEnds (key : TypeKey) : Prop :=
  ∃ links, ((resolveWithin types settings links key).on .empty).isSome = true

variable (types settings) in
theorem isSome_on_resolveWithin {catalogue : Catalogue}
    (hreached : catalogue.Reached types settings.unspecified) (links : Nat) (key : TypeKey) :
    ((resolveWithin types settings links key).on catalogue).isSome =
      (resolveAfresh types settings links key).isSome := by
  have hcomes := comesTo_resolveWithin types settings links key catalogue hreached
  cases hresolve : resolveAfresh types settings links key with
  | none =>
      rw [hresolve] at hcomes
      rw [show (resolveWithin types settings links key).on catalogue = none from hcomes]
      rfl
  | some outcome =>
      rw [hresolve] at hcomes
      obtain ⟨after, -, hon⟩ := hcomes
      rw [hon]
      rfl

/-- Whether resolving comes to an end does not depend on what was requested before. -/
theorem resolveEnds_iff {catalogue : Catalogue}
    (hreached : catalogue.Reached types settings.unspecified) :
    ResolveEnds types settings key ↔
      ∃ links, ((resolveWithin types settings links key).on catalogue).isSome = true := by
  unfold ResolveEnds
  simp only [isSome_on_resolveWithin types settings hreached,
    isSome_on_resolveWithin types settings Catalogue.reached_empty]

theorem resolveEnds_iff_isSome :
    ResolveEnds types settings key ↔
      ∃ links, (resolveAfresh types settings links key).isSome = true := by
  simp only [ResolveEnds, isSome_on_resolveWithin types settings Catalogue.reached_empty]

/-- Resolving that comes to an end passes some keys of the chain once, and has its answer along so
many links. -/
theorem ResolveEnds.exists_passed (h : ResolveEnds types settings key) :
    ∃ (passed : List TypeKey) (outcome : Except Refusal ResolvedDelegate),
      passed.Nodup ∧ passed.dropLast ⊆ types.keys ∧
      (∀ other ∈ passed, types.OnChain key other) ∧
      resolveAfresh types settings passed.length key = some outcome := by
  classical
  have hexists := resolveEnds_iff_isSome.mp h
  have hanswer := Nat.find_spec hexists
  have hfewer : ∀ fewer < Nat.find hexists, resolveAfresh types settings fewer key = none := by
    intro fewer hlt
    exact Option.not_isSome_iff_eq_none.mp (Nat.find_min hexists hlt)
  obtain ⟨passed, hlength, hnodup, hknown, hpassed⟩ :=
    Interop.exists_passed _ key hanswer hfewer
  obtain ⟨outcome, houtcome⟩ := Option.isSome_iff_exists.mp hanswer
  exact ⟨passed, outcome, hnodup, hknown, fun other hother => (hpassed other hother).1,
    hlength ▸ houtcome⟩

/-- **Resolving that comes to an end does so along the links that it is given.** -/
theorem ResolveEnds.exists_outcome (h : ResolveEnds types settings key) :
    ∃ outcome, resolveAfresh types settings (types.keys.length + 1) key = some outcome := by
  obtain ⟨passed, outcome, hnodup, hknown, -, houtcome⟩ := h.exists_passed
  have hdistinct : passed.dropLast.Nodup := hnodup.sublist passed.dropLast_sublist
  have hbound := (hdistinct.subperm hknown).length_le
  rw [List.length_dropLast] at hbound
  exact ⟨outcome, resolveAfresh_mono (by omega) houtcome⟩

/-! ### Chains that end -/

variable (settings) in
/-- Where the chain of bases ends, resolving does. -/
theorem ResolveEnds.of_acc (h : Acc types.IsBase key) : ResolveEnds types settings key := by
  rw [resolveEnds_iff_isSome]
  induction h with
  | intro key _ ih =>
      cases hbase : baseToResolve types settings key with
      | none => exact ⟨1, isSome_resolveAfresh_succ_of_none 0 hbase⟩
      | some base =>
          obtain ⟨links, hlinks⟩ := ih base (isBase_of_baseToResolve hbase)
          exact ⟨links + 1, by rwa [isSome_resolveAfresh_succ_of_some links hbase]⟩

end

end Interop
