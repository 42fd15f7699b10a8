/-
Requests for descriptions, one after another.

Between two requests nothing is under way, so describing along the keys under way
is describing from nothing.  What a request is answered with therefore does not
depend on the requests before it: not on their order, not on how often they were
made, and not on which of them failed half-way.

`ComesTo` is this independence for any work on the catalogue, not only for a
single request: the same answer after every history, and again a history behind
it.  It is kept by doing one thing after another, which is how it reaches whole
delegates and whole batches.
-/
import Interop.Proofs.Faithful
import Mathlib.Data.List.Induction

namespace Interop

section

variable (types : Reflection) (unspecified : Nullness)

namespace Catalogue

/-- The catalogue after some requests in order, whatever became of each. -/
def afterRequests (requests : List TypeKey) : Catalogue :=
  requests.foldl (fun catalogue key => ((describe types unspecified key).on catalogue).2) .empty

/-- A catalogue that requests can lead to. -/
def Reached (catalogue : Catalogue) : Prop :=
  ∃ requests, afterRequests types unspecified requests = catalogue

end Catalogue

/-- The work has the same outcome on every catalogue that requests can lead to, and leads to such
a catalogue again. -/
def Describing.ComesTo {α : Type} (work : Describing α) (outcome : Except DescriptionError α) :
    Prop :=
  ∀ catalogue : Catalogue, catalogue.Reached types unspecified →
    ∃ after : Catalogue, after.Reached types unspecified ∧ work.on catalogue = (outcome, after)

variable {types unspecified}

/-- One step more than there are keys is enough for a request, whatever would come after it. -/
theorem on_iterate {catalogue : Catalogue} (hsound : catalogue.Sound types unspecified)
    (hrest : catalogue.underWay = []) (deeper : TypeKey → Describing Description)
    (key : TypeKey) :
    ∃ after, catalogue.Grows types unspecified after ∧
      ((describeStep types unspecified)^[types.keys.length + 1] deeper key).on catalogue =
        (describeAfresh types unspecified key, after) := by
  have hsteps : types.offPath [] < types.keys.length + 1 :=
    Nat.lt_succ_of_le (types.offPath_le [])
  obtain ⟨after, hgrows, hon, -⟩ :=
    faithful_iterate deeper _ [] hsteps key catalogue hsound hrest
  exact ⟨after, hgrows, hon⟩

/-- A request on a sound catalogue with nothing under way. -/
theorem on_describe {catalogue : Catalogue} (hsound : catalogue.Sound types unspecified)
    (hrest : catalogue.underWay = []) (key : TypeKey) :
    ∃ after, catalogue.Grows types unspecified after ∧
      (describe types unspecified key).on catalogue =
        (describeAfresh types unspecified key, after) := by
  rw [describe, describeWithin_eq_iterate]
  exact on_iterate hsound hrest _ key

namespace Catalogue

theorem afterRequests_append (requests : List TypeKey) (key : TypeKey) :
    afterRequests types unspecified (requests ++ [key]) =
      ((describe types unspecified key).on (afterRequests types unspecified requests)).2 := by
  simp [afterRequests]

theorem reached_empty : Catalogue.empty.Reached types unspecified := ⟨[], rfl⟩

variable (types unspecified) in
/-- Requests leave a sound catalogue and nothing under way. -/
theorem sound_afterRequests (requests : List TypeKey) :
    (afterRequests types unspecified requests).Sound types unspecified ∧
      (afterRequests types unspecified requests).underWay = [] := by
  induction requests using List.reverseRecOn with
  | nil => exact ⟨sound_empty, rfl⟩
  | append_singleton requests key ih =>
      obtain ⟨after, hgrows, hon⟩ := on_describe ih.1 ih.2 key
      rw [afterRequests_append, hon]
      exact ⟨hgrows.sound, hgrows.underWay.trans ih.2⟩

end Catalogue

/-! ### Work that no history can change -/

namespace Describing

variable {α β : Type}

variable (types unspecified) in
theorem comesTo_describe (key : TypeKey) :
    (describe types unspecified key).ComesTo types unspecified
      (describeAfresh types unspecified key) := by
  rintro _ ⟨requests, rfl⟩
  obtain ⟨hsound, hrest⟩ := Catalogue.sound_afterRequests types unspecified requests
  obtain ⟨after, -, hon⟩ := on_describe hsound hrest key
  refine ⟨after, ⟨requests ++ [key], ?_⟩, hon⟩
  rw [Catalogue.afterRequests_append, hon]

theorem ComesTo.map {work : Describing α} {outcome : Except DescriptionError α}
    (h : work.ComesTo types unspecified outcome) (f : α → β) :
    (do let value ← work; return f value : Describing β).ComesTo types unspecified
      (outcome.map f) := by
  intro catalogue hreached
  obtain ⟨after, hafter, hon⟩ := h catalogue hreached
  refine ⟨after, hafter, ?_⟩
  rw [on_bind, hon]
  cases outcome <;> rfl

theorem ComesTo.mapM {work : α → Describing β} {outcome : α → Except DescriptionError β}
    (h : ∀ item, (work item).ComesTo types unspecified (outcome item)) (list : List α) :
    (list.mapM work).ComesTo types unspecified (list.mapM outcome) := by
  induction list with
  | nil => exact fun catalogue hreached => ⟨catalogue, hreached, rfl⟩
  | cons first rest ih =>
      intro catalogue hreached
      obtain ⟨middle, hmiddle, hon⟩ := h first catalogue hreached
      rw [on_mapM_cons, hon, mapM_cons_except]
      cases outcome first with
      | error error => exact ⟨middle, hmiddle, rfl⟩
      | ok value =>
          obtain ⟨after, hafter, hon'⟩ := ih middle hmiddle
          refine ⟨after, hafter, ?_⟩
          dsimp only
          rw [hon']
          cases rest.mapM outcome <;> rfl

end Describing

end

/-! ### What a request is answered with -/

/-- A request is answered as it is from nothing. -/
theorem fst_on_describe (types : Reflection) (unspecified : Nullness) (requests : List TypeKey)
    (key : TypeKey) :
    ((describe types unspecified key).on
        (Catalogue.afterRequests types unspecified requests)).1 =
      describeAfresh types unspecified key := by
  obtain ⟨after, -, hon⟩ := Describing.comesTo_describe types unspecified key _ ⟨requests, rfl⟩
  rw [hon]

/-- Describing from nothing is what a first request runs. -/
theorem describeAfresh_eq_fst (types : Reflection) (unspecified : Nullness) :
    describeAfresh types unspecified =
      fun key => ((describe types unspecified key).on .empty).1 :=
  funext fun key => (fst_on_describe types unspecified [] key).symm

/--
**Remembering changes no answer.**  After any requests, successful or failed, a
request is answered with what describing from nothing gives, and it is answered
so again after any further requests.
-/
theorem describe_after_requests (types : Reflection) (unspecified : Nullness)
    (requests : List TypeKey) (key : TypeKey) :
    ((describe types unspecified key).on
        (Catalogue.afterRequests types unspecified requests)).1 =
      describeAfresh types unspecified key ∧
    ∀ more, ((describe types unspecified key).on
        (Catalogue.afterRequests types unspecified (requests ++ key :: more))).1 =
      ((describe types unspecified key).on
        (Catalogue.afterRequests types unspecified requests)).1 :=
  ⟨fst_on_describe types unspecified requests key, fun more => by
    rw [fst_on_describe, fst_on_describe]⟩

end Interop
