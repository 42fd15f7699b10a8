/-
The name of a converted value is always new.

The candidates for a name are tried in order until one is free.  No two of them are
alike: they differ in what stands before the parameter's name, and the later ones
carry their number there.  So among one more of them than there are taken names one
is free, whatever the parameter is called and whatever was taken before.

Parameters are gone through with a list of taken names that grows by every name that
is given.  What is free of a longer list is free of a shorter one, and so the names
given differ from each other and from all that was taken at the start.
-/
import Interop.Crossing
import Interop.Proofs.FirstFailure
import Mathlib.Data.List.Nodup
import Mathlib.Data.List.Perm.Subperm

namespace Interop

namespace Crossing

/-! ### One name -/

/-- What stands before the parameter's name in a candidate. -/
def candidateStem : Nat → String
  | 0 => "__"
  | 1 => "__p_"
  | n + 2 => "__p" ++ toString (n + 1) ++ "_"

theorem candidate_eq (name mark : String) (n : Nat) :
    candidate name mark n = candidateStem n ++ name ++ mark := by
  match n with
  | 0 | 1 | n + 2 => rfl

/-- A stem with a number is longer than those without. -/
theorem candidateStem_ne_of_length_le {short : String} (h : short.length ≤ 4) (n : Nat) :
    short ≠ candidateStem (n + 2) := by
  rintro rfl
  have hdigits : 0 < (toString (n + 1)).length := Nat.length_repr_pos
  have hopening : "__p".length = 3 := rfl
  have hclosing : "_".length = 1 := rfl
  simp only [candidateStem, String.length_append] at h
  omega

theorem candidateStem_injective : Function.Injective candidateStem := by
  intro m n h
  match m, n with
  | 0, 0 | 1, 1 => rfl
  | 0, 1 | 1, 0 => exact absurd h (by decide)
  | 0, n + 2 | 1, n + 2 => exact absurd h (candidateStem_ne_of_length_le (by decide) n)
  | m + 2, 0 | m + 2, 1 => exact absurd h.symm (candidateStem_ne_of_length_le (by decide) m)
  | m + 2, n + 2 =>
      have hnumber := (String.append_right_inj "__p").mp ((String.append_left_inj "_").mp h)
      have hdigits : Nat.toDigits 10 (m + 1) = Nat.toDigits 10 (n + 1) := by
        rw [← Nat.toList_repr, ← Nat.toList_repr]
        exact congrArg String.toList hnumber
      have hread := congrArg (Nat.ofDigitChars 10 · 0) hdigits
      simpa using hread

/-- No two candidates for a name are alike. -/
theorem candidate_injective (name mark : String) : Function.Injective (candidate name mark) := by
  intro m n h
  rw [candidate_eq, candidate_eq] at h
  exact candidateStem_injective
    ((String.append_left_inj name).mp ((String.append_left_inj mark).mp h))

/-- **A fresh name is not taken.** -/
theorem freshName_not_mem (name mark : String) (taken : List String) :
    freshName name mark taken ∉ taken := by
  unfold freshName
  cases hfind : (List.range (taken.length + 1)).find? fun n => candidate name mark n ∉ taken with
  | some n => simpa using List.find?_some hfind
  | none =>
      -- Then all candidates that were tried are taken, and these are too many.
      have htried : (List.range (taken.length + 1)).map (candidate name mark) ⊆ taken := by
        intro tried htried
        obtain ⟨n, hn, rfl⟩ := List.mem_map.mp htried
        simpa using List.find?_eq_none.mp hfind n hn
      have hdistinct : ((List.range (taken.length + 1)).map (candidate name mark)).Nodup :=
        List.nodup_range.map (candidate_injective name mark)
      have hlength := (hdistinct.subperm htried).length_le
      rw [List.length_map, List.length_range] at hlength
      omega

/-! ### The names of converted values -/

/-- The name that a parameter is given where it is converted. -/
def Arrival.givenName? : Arrival → Option String
  | .unchanged _ => none
  | .converted name _ => some name

/-- The names that are given to converted values, in order. -/
def givenNames (arrivals : List Arrival) : List String := arrivals.filterMap Arrival.givenName?

@[simp] theorem givenNames_nil : givenNames [] = [] := rfl

@[simp] theorem givenNames_unchanged (name : String) (rest : List Arrival) :
    givenNames (.unchanged name :: rest) = givenNames rest := rfl

@[simp] theorem givenNames_converted (name expression : String) (rest : List Arrival) :
    givenNames (.converted name expression :: rest) = name :: givenNames rest := rfl

section

variable {source target written : Language} {taken reserved : List String} {param : Crossing}
  {params : List Crossing} {arrivals : List Arrival}

/-- A parameter arrives under its own name, and leaves the taken names as they are, or under a
fresh one, which is taken from then on. -/
theorem arriveAmong_cons_eq_ok
    (h : arriveAmong source target written taken (param :: params) = .ok arrivals) :
    (∃ others, param.conversion source target = .ok none ∧
        arriveAmong source target written taken params = .ok others ∧
        arrivals = .unchanged (param.identifier written) :: others) ∨
      ∃ template others, param.conversion source target = .ok (some template) ∧
        arriveAmong source target written
          (freshName param.name (valueMark target) taken :: taken) params = .ok others ∧
        arrivals = .converted (freshName param.name (valueMark target) taken)
          (template.apply (param.identifier written)) :: others := by
  rw [arriveAmong] at h
  cases hconversion : param.conversion source target with
  | error error =>
      rw [hconversion] at h
      cases h
  | ok conversion =>
      rw [hconversion, ok_bind] at h
      cases conversion with
      | none =>
          obtain ⟨others, hothers, h⟩ := bind_eq_ok h
          cases h
          exact .inl ⟨others, rfl, hothers, rfl⟩
      | some template =>
          obtain ⟨others, hothers, h⟩ := bind_eq_ok h
          cases h
          exact .inr ⟨template, others, rfl, hothers, rfl⟩

/-- The names given to converted values are new, each of them. -/
theorem arriveAmong_givenNames
    (h : arriveAmong source target written taken params = .ok arrivals) :
    (givenNames arrivals).Nodup ∧ ∀ name ∈ givenNames arrivals, name ∉ taken := by
  induction params generalizing taken arrivals with
  | nil =>
      cases h
      simp
  | cons param rest ih =>
      obtain ⟨others, -, hothers, rfl⟩ | ⟨template, others, -, hothers, rfl⟩ :=
        arriveAmong_cons_eq_ok h
      · rw [givenNames_unchanged]
        exact ih hothers
      · obtain ⟨hnodup, hnew⟩ := ih hothers
        have hfresh := freshName_not_mem param.name (valueMark target) taken
        rw [givenNames_converted]
        refine ⟨List.nodup_cons.mpr ⟨?_, hnodup⟩, ?_⟩
        · intro hmem
          exact hnew _ hmem List.mem_cons_self
        · intro name hmem
          rcases List.mem_cons.mp hmem with rfl | hmem
          · exact hfresh
          · exact fun htaken => hnew name hmem (List.mem_cons_of_mem _ htaken)

/-- Converted values are called like no parameter and like nothing that is reserved. -/
theorem arrive_givenNames (h : arrive source target written reserved params = .ok arrivals) :
    (givenNames arrivals).Nodup ∧
      ∀ name ∈ givenNames arrivals,
        name ∉ reserved ∧ name ∉ params.map (·.identifier written) := by
  obtain ⟨hnodup, hnew⟩ := arriveAmong_givenNames h
  refine ⟨hnodup, fun name hmem => ?_⟩
  have hfree := hnew name hmem
  rwa [List.mem_append, not_or] at hfree

end

end Crossing

end Interop
