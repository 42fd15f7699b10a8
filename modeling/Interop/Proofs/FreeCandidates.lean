/-
The search for a name that is not taken.

The search looks at one candidate after another until one is free, and nothing limits how
often it looks.  It is told here as it goes, from any candidate on.  No two candidates are
alike, so every look at a taken one leaves a name less that a later look could meet.  So
the search ends, and by then it has looked at one candidate more than there are taken
names at most, also where these were made to look like candidates.

Where it ends is the first free candidate.  A fresh name is looked for among as many
candidates as the search can look at, and so it is the same one.
-/
import Interop.Proofs.FreshNames
import Mathlib.Data.Finset.Card

namespace Interop

namespace Crossing

section

variable (name mark : String) (taken : List String)

/-- The search for a free name from the `n`-th candidate on: the name at which it ends, and at
how many candidates it has looked by then. -/
inductive SearchEnds : Nat → String → Nat → Prop
  | free {n : Nat} (h : candidate name mark n ∉ taken) :
      SearchEnds n (candidate name mark n) 1
  | goOn {n looks : Nat} {found : String} (h : candidate name mark n ∈ taken)
      (hrest : SearchEnds (n + 1) found looks) : SearchEnds n found (looks + 1)

/-- The taken names that the search can still meet from the `n`-th candidate on. -/
def takenFrom (n : Nat) : Finset String :=
  taken.toFinset \ (Finset.range n).image (candidate name mark)

end

variable {name mark : String} {taken : List String} {n : Nat}

/-- A look at a taken candidate leaves a name less to meet. -/
theorem card_takenFrom_succ (h : candidate name mark n ∈ taken) :
    (takenFrom name mark taken (n + 1)).card + 1 = (takenFrom name mark taken n).card := by
  have hnew : candidate name mark n ∉ (Finset.range n).image (candidate name mark) := by
    intro hmem
    obtain ⟨m, hm, heq⟩ := Finset.mem_image.mp hmem
    have hlt := Finset.mem_range.mp hm
    exact hlt.ne (candidate_injective name mark heq)
  have hmeet : candidate name mark n ∈ takenFrom name mark taken n :=
    Finset.mem_sdiff.mpr ⟨List.mem_toFinset.mpr h, hnew⟩
  have hleft : takenFrom name mark taken (n + 1) =
      (takenFrom name mark taken n).erase (candidate name mark n) := by
    rw [takenFrom, Finset.range_add_one, Finset.image_insert, Finset.sdiff_insert, takenFrom]
  rw [hleft, Finset.card_erase_add_one hmeet]

/-- **The search ends,** from any candidate on. -/
theorem exists_searchEnds (n : Nat) : ∃ found looks, SearchEnds name mark taken n found looks ∧
    looks ≤ (takenFrom name mark taken n).card + 1 := by
  by_cases h : candidate name mark n ∈ taken
  · have hcard := card_takenFrom_succ h
    obtain ⟨found, looks, hrest, hlooks⟩ := exists_searchEnds (n + 1)
    exact ⟨found, looks + 1, .goOn h hrest, by omega⟩
  · exact ⟨_, 1, .free h, by omega⟩
termination_by (takenFrom name mark taken n).card

/-- The search has passed taken candidates only, and ends at a free one. -/
theorem SearchEnds.exists_passed {found : String} {looks : Nat}
    (h : SearchEnds name mark taken n found looks) :
    ∃ passed, looks = passed + 1 ∧ found = candidate name mark (n + passed) ∧ found ∉ taken ∧
      ∀ m < passed, candidate name mark (n + m) ∈ taken := by
  induction h with
  | free hfree => exact ⟨0, rfl, rfl, hfree, fun m hm => absurd hm (Nat.not_lt_zero m)⟩
  | @goOn n looks found htaken _ ih =>
      obtain ⟨passed, rfl, hfound, hfree, hpassed⟩ := ih
      refine ⟨passed + 1, rfl, by rw [hfound, Nat.add_right_comm, Nat.add_assoc], hfree, ?_⟩
      rintro (_ | m) hm
      · exact htaken
      · have htaken := hpassed m (Nat.lt_of_succ_lt_succ hm)
        rwa [Nat.add_right_comm, Nat.add_assoc] at htaken

/-- It can end in one way only. -/
theorem SearchEnds.unique {found other : String} {looks others : Nat}
    (h : SearchEnds name mark taken n found looks)
    (h' : SearchEnds name mark taken n other others) : found = other ∧ looks = others := by
  induction h generalizing others with
  | free hfree =>
      cases h' with
      | free => exact ⟨rfl, rfl⟩
      | goOn htaken => exact absurd htaken hfree
  | goOn htaken _ ih =>
      cases h' with
      | free hfree => exact absurd htaken hfree
      | goOn _ hrest =>
          obtain ⟨hfound, hlooks⟩ := ih hrest
          exact ⟨hfound, congrArg (· + 1) hlooks⟩

/-- A fresh name is the first free candidate, if that is among those that are tried. -/
theorem freshName_eq_candidate (hfree : candidate name mark n ∉ taken)
    (hpassed : ∀ m < n, candidate name mark m ∈ taken) (hn : n ≤ taken.length) :
    freshName name mark taken = candidate name mark n := by
  have hfind : (List.range (taken.length + 1)).find? (fun m => candidate name mark m ∉ taken) =
      some n := by
    rw [List.find?_range_eq_some]
    refine ⟨decide_eq_true hfree, List.mem_range.mpr (Nat.lt_succ_of_le hn), fun m hm => ?_⟩
    simpa using hpassed m hm
  rw [freshName, hfind, Option.getD_some]

/--
**A fresh name is the first free candidate.**  No two candidates are alike.  The search that
looks at them one by one ends, and in one way only: at the fresh name, which is a candidate
that is not taken, and after looking at those before it, which all are.  With it these are
one more than there are taken names at most.
-/
theorem freshName_first_free (name mark : String) (taken : List String) :
    Function.Injective (candidate name mark) ∧
    ∃ n, n + 1 ≤ taken.toFinset.card + 1 ∧
      (∀ found looks, SearchEnds name mark taken 0 found looks ↔
        found = freshName name mark taken ∧ looks = n + 1) ∧
      freshName name mark taken = candidate name mark n ∧
      candidate name mark n ∉ taken ∧
      ∀ m < n, candidate name mark m ∈ taken := by
  obtain ⟨found, looks, hends, hlooks⟩ := @exists_searchEnds name mark taken 0
  obtain ⟨n, rfl, rfl, hfree, hpassed⟩ := hends.exists_passed
  simp only [Nat.zero_add] at hends hfree hpassed
  have hcard : (takenFrom name mark taken 0).card = taken.toFinset.card := by simp [takenFrom]
  have hfresh := freshName_eq_candidate hfree hpassed
    (by have := taken.toFinset_card_le; omega)
  refine ⟨candidate_injective name mark, n, hcard ▸ hlooks, fun found looks => ?_, hfresh, hfree,
    hpassed⟩
  rw [hfresh]
  constructor
  · exact fun h => h.unique hends
  · rintro ⟨rfl, rfl⟩
    exact hends

/-- Names that look like candidates are passed one by one, here for a name without characters. -/
theorem freshName_first_free_of_lookalikes :
    let taken := ["__p2_C", "__C", "__p1_C", "__C", "__p_C", "__p4_C"]
    freshName "" "C" taken = "__p3_C" ∧ SearchEnds "" "C" taken 0 "__p3_C" 5 := by
  intro taken
  obtain ⟨hinjective, n, -, hends, hfresh, -, -⟩ := freshName_first_free "" "C" taken
  have hname : freshName "" "C" taken = "__p3_C" := by decide +kernel
  have hn : n = 4 := hinjective (hfresh.symm.trans (hname.trans (by decide)))
  exact ⟨hname, (hends _ _).mpr ⟨hname.symm, by rw [hn]⟩⟩

end Crossing

end Interop
