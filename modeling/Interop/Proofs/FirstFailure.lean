/-
Lists of steps that may fail, where the first failure decides.

`mapM` in `Except` goes through a list from left to right and stops at the first
error.  Two facts say all there is to know of it: it comes to the list of all
results exactly if every step has one, and it comes to an error exactly if that
is the first error of the steps taken one by one.
-/
import Mathlib.Data.List.Forall2

namespace Interop

variable {ε α β : Type}

theorem ok_bind (value : α) (next : α → Except ε β) : (Except.ok value >>= next) = next value := rfl

theorem error_bind (error : ε) (next : α → Except ε β) :
    (Except.error error >>= next) = .error error := rfl

/-- What comes to a result did so step by step. -/
theorem bind_eq_ok {outcome : Except ε α} {next : α → Except ε β} {result : β}
    (h : outcome >>= next = .ok result) :
    ∃ value, outcome = .ok value ∧ next value = .ok result := by
  cases outcome with
  | error error => cases h
  | ok value => exact ⟨value, rfl, h⟩

theorem map_eq_ok {outcome : Except ε α} {change : α → β} {result : β}
    (h : outcome.map change = .ok result) : ∃ value, outcome = .ok value ∧ change value = result := by
  cases outcome with
  | error error => cases h
  | ok value => cases h; exact ⟨value, rfl, rfl⟩

theorem mapError_eq_ok {ε' : Type} {outcome : Except ε α} {change : ε → ε'} {value : α}
    (h : outcome.mapError change = .ok value) : outcome = .ok value := by
  cases outcome with
  | error error => cases h
  | ok result => cases h; rfl

/-- The error of an outcome, if it is one. -/
def error? : Except ε α → Option ε
  | .error error => some error
  | .ok _ => none

@[simp] theorem error?_ok (value : α) : error? (.ok value : Except ε α) = none := rfl

@[simp] theorem error?_error (error : ε) : error? (.error error : Except ε α) = some error := rfl

theorem error?_eq_none_iff {outcome : Except ε α} :
    error? outcome = none ↔ ∃ value, outcome = .ok value := by
  cases outcome with
  | error error => simp
  | ok value => simp

theorem error?_eq_some_iff {outcome : Except ε α} {error : ε} :
    error? outcome = some error ↔ outcome = .error error := by
  cases outcome <;> simp

theorem error?_map (outcome : Except ε α) (f : α → β) :
    error? (outcome.map f) = error? outcome := by
  cases outcome <;> rfl

/-- The first error of several outcomes, if any of them is one. -/
def firstError? (outcomes : List (Except ε α)) : Option ε := outcomes.findSome? error?

@[simp] theorem firstError?_nil : firstError? ([] : List (Except ε α)) = none := rfl

@[simp] theorem firstError?_cons (outcome : Except ε α) (rest : List (Except ε α)) :
    firstError? (outcome :: rest) = (error? outcome).or (firstError? rest) := by
  cases outcome <;> rfl

theorem firstError?_append (first second : List (Except ε α)) :
    firstError? (first ++ second) = (firstError? first).or (firstError? second) := by
  simp [firstError?, List.findSome?_append]

/-- Nothing fails exactly if there is no error anywhere. -/
theorem firstError?_eq_none_iff {outcomes : List (Except ε α)} :
    firstError? outcomes = none ↔ ∀ error ∈ outcomes.map error?, error = none := by
  rw [firstError?, List.findSome?_eq_none_iff, List.forall_mem_map]

theorem firstError?_map_eq_none_iff {step : β → Except ε α} {list : List β} :
    firstError? (list.map step) = none ↔ ∀ item ∈ list, ∃ value, step item = .ok value := by
  simp only [firstError?, List.findSome?_eq_none_iff, List.forall_mem_map, error?_eq_none_iff]

/-- The first error is that of a step before which all steps have results. -/
theorem firstError?_map_eq_some_iff {step : β → Except ε α} {list : List β} {error : ε} :
    firstError? (list.map step) = some error ↔
      ∃ item before after, list = before ++ item :: after ∧ step item = .error error ∧
        ∀ earlier ∈ before, ∃ value, step earlier = .ok value := by
  simp only [firstError?, List.findSome?_map, List.findSome?_eq_some_iff, Function.comp_apply,
    error?_eq_none_iff, error?_eq_some_iff]
  exact exists_comm

theorem firstError?_flatMap_eq_none_iff {list : List β} {outcomes : β → List (Except ε α)} :
    firstError? (list.flatMap outcomes) = none ↔ ∀ item ∈ list, firstError? (outcomes item) = none := by
  simp only [firstError?, List.findSome?_eq_none_iff, List.mem_flatMap]
  constructor
  · intro h item hitem outcome houtcome
    exact h outcome ⟨item, hitem, houtcome⟩
  · rintro h outcome ⟨item, hitem, houtcome⟩
    exact h item hitem outcome houtcome

/-- If every answer is changed, so is the first. -/
theorem findSome?_eq_map {γ : Type} {answer : α → Option β} {answer' : α → Option γ}
    {change : β → γ} {list : List α} (h : ∀ item ∈ list, answer' item = (answer item).map change) :
    list.findSome? answer' = (list.findSome? answer).map change := by
  induction list with
  | nil => rfl
  | cons first rest ih =>
      have hrest := ih fun item hitem => h item (List.mem_cons_of_mem _ hitem)
      rw [List.findSome?_cons, List.findSome?_cons, h first List.mem_cons_self, hrest]
      cases answer first <;> rfl

/-- Only the errors decide. -/
theorem firstError?_congr {first second : List (Except ε α)}
    (h : first.map error? = second.map error?) : firstError? first = firstError? second := by
  have hmap (outcomes : List (Except ε α)) :
      firstError? outcomes = (outcomes.map error?).findSome? id := by
    rw [List.findSome?_map]
    rfl
  rw [hmap, hmap, h]

/-! ### Going through a list -/

theorem mapM_cons_except (step : α → Except ε β) (first : α) (rest : List α) :
    (first :: rest).mapM step =
      match step first with
      | .ok value =>
        match rest.mapM step with
        | .ok values => .ok (value :: values)
        | .error error => .error error
      | .error error => .error error := by
  rw [List.mapM_cons]
  cases step first with
  | error error => rfl
  | ok value => cases rest.mapM step <;> rfl

/-- Steps that come to the same on every item of a list come to the same on the list. -/
theorem mapM_congr_of_mem {step step' : α → Except ε β} {list : List α}
    (h : ∀ item ∈ list, step' item = step item) : list.mapM step' = list.mapM step := by
  induction list with
  | nil => rfl
  | cons first rest ih =>
      rw [mapM_cons_except, mapM_cons_except, h first List.mem_cons_self,
        ih fun item hitem => h item (List.mem_cons_of_mem _ hitem)]

/-- All results are there exactly if every step has one. -/
theorem mapM_eq_ok_iff {step : α → Except ε β} {list : List α} {values : List β} :
    list.mapM step = .ok values ↔
      List.Forall₂ (fun item value => step item = .ok value) list values := by
  induction list generalizing values with
  | nil =>
      rw [List.mapM_nil]
      constructor
      · intro h
        cases h
        exact .nil
      · intro h
        cases h
        rfl
  | cons first rest ih =>
      rw [mapM_cons_except]
      constructor
      · intro h
        split at h
        · rename_i value hvalue
          split at h
          · rename_i others hothers
            cases h
            exact .cons hvalue (ih.mp hothers)
          · cases h
        · cases h
      · intro h
        cases h with
        | cons hvalue hothers =>
            rw [hvalue]
            dsimp only
            rw [ih.mpr hothers]

/-- Lists that are related item by item have a partner for every item. -/
theorem exists_of_forall₂ {related : α → β → Prop} {list : List α} {others : List β}
    (h : List.Forall₂ related list others) {item : α} (hitem : item ∈ list) :
    ∃ other ∈ others, related item other := by
  induction h with
  | nil => cases hitem
  | cons hfirst _ ih =>
      rcases List.mem_cons.mp hitem with rfl | hin
      · exact ⟨_, List.mem_cons_self, hfirst⟩
      · obtain ⟨other, hother, hrelated⟩ := ih hin
        exact ⟨other, List.mem_cons_of_mem _ hother, hrelated⟩

/-- Then every item has a result. -/
theorem exists_ok_of_mapM_eq_ok {step : α → Except ε β} {list : List α} {values : List β}
    (h : list.mapM step = .ok values) {item : α} (hitem : item ∈ list) :
    ∃ value, step item = .ok value := by
  obtain ⟨value, -, hvalue⟩ := exists_of_forall₂ (mapM_eq_ok_iff.mp h) hitem
  exact ⟨value, hvalue⟩

/-- And likewise where a step without a result gives no reason. -/
theorem mapM_eq_some_iff {step : α → Option β} {list : List α} {values : List β} :
    list.mapM step = some values ↔
      List.Forall₂ (fun item value => step item = some value) list values := by
  induction list generalizing values with
  | nil =>
      constructor
      · intro h
        cases h
        exact .nil
      · intro h
        cases h
        rfl
  | cons first rest ih =>
      rw [List.mapM_cons]
      constructor
      · intro h
        obtain ⟨value, hvalue, h⟩ := Option.bind_eq_some_iff.mp h
        obtain ⟨others, hothers, h⟩ := Option.bind_eq_some_iff.mp h
        cases h
        exact .cons hvalue (ih.mp hothers)
      · intro h
        cases h with
        | cons hvalue hothers =>
            rw [hvalue, ih.mpr hothers]
            rfl

/-- The error is the first one. -/
theorem error?_mapM (step : α → Except ε β) (list : List α) :
    error? (list.mapM step) = firstError? (list.map step) := by
  induction list with
  | nil => rfl
  | cons first rest ih =>
      rw [mapM_cons_except, List.map_cons, firstError?_cons, ← ih]
      cases step first with
      | error error => rfl
      | ok value => cases rest.mapM step <;> rfl

/-- It is the error of one of the steps. -/
theorem exists_mem_of_mapM_eq_error {step : α → Except ε β} {list : List α} {error : ε}
    (h : list.mapM step = .error error) : ∃ item ∈ list, step item = .error error := by
  have hfirst : firstError? (list.map step) = some error := by
    rw [← error?_mapM, h, error?_error]
  obtain ⟨outcome, houtcome, herror⟩ := List.exists_of_findSome?_eq_some hfirst
  obtain ⟨item, hitem, rfl⟩ := List.mem_map.mp houtcome
  refine ⟨item, hitem, ?_⟩
  cases hstep : step item with
  | error other => rw [hstep] at herror; cases herror; rfl
  | ok value => rw [hstep] at herror; cases herror

end Interop
