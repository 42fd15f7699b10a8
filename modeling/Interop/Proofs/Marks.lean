/-
Marks in a text.

A mark is a short text that is looked for wherever it may stand, such as the hole of a
template.  Texts are put together from pieces, and what stands across the border of two
pieces can be a mark although neither piece has one.  The first two characters of a mark
decide: if they follow each other nowhere in a piece and across no border, then they
follow each other nowhere in the whole.
-/
import Mathlib.Data.List.Chain
import Mathlib.Data.List.Infix

namespace Interop

/-- At how many places of a text a mark stands. -/
def occurrences (mark text : String) : Nat :=
  text.toList.tails.countP (mark.toList.isPrefixOf ·)

theorem occurrences_eq_zero_iff {mark text : String} :
    occurrences mark text = 0 ↔ ¬mark.toList <:+: text.toList := by
  unfold occurrences
  rw [List.countP_eq_zero, List.infix_iff_prefix_suffix]
  simp only [List.mem_tails, List.isPrefixOf_iff_prefix]
  constructor
  · rintro h ⟨rest, hmark, hrest⟩
    exact h rest hrest hmark
  · exact fun h rest hrest hmark => h ⟨rest, hmark, hrest⟩

/-- Side by side, two texts have the marks of both, and perhaps one across their border. -/
theorem occurrences_append_le {mark : String} (h : mark ≠ "") (first second : String) :
    occurrences mark first + occurrences mark second ≤ occurrences mark (first ++ second) := by
  unfold occurrences
  rw [String.toList_append]
  have hmark : mark.toList.isPrefixOf [] = false := by
    rw [Bool.eq_false_iff, ne_eq, List.isPrefixOf_iff_prefix, List.prefix_nil]
    simpa using h
  induction first.toList with
  | nil => simp [hmark]
  | cons c rest ih =>
      rw [List.cons_append, List.tails_cons, List.tails_cons, List.countP_cons, List.countP_cons]
      by_cases hstart : mark.toList <+: c :: rest
      · have hlonger : mark.toList <+: c :: (rest ++ second.toList) :=
          hstart.trans (List.prefix_append (c :: rest) _)
        simp only [List.isPrefixOf_iff_prefix, hstart, hlonger, if_true]
        omega
      · simp only [List.isPrefixOf_iff_prefix, hstart, if_false]
        omega

/-- In the text `second` never stands right behind `first`. -/
def NotAdjacent (first second : Char) (text : String) : Prop :=
  text.toList.IsChain fun c next => ¬(c = first ∧ next = second)

instance (first second : Char) (text : String) : Decidable (NotAdjacent first second text) :=
  inferInstanceAs (Decidable (text.toList.IsChain fun c next => ¬(c = first ∧ next = second)))

/-- Nor can it stand there where the text goes on. -/
structure KeepsApart (first second : Char) (text : String) : Prop where
  within : NotAdjacent first second text
  ending : text.toList.getLast? ≠ some first

instance (first second : Char) (text : String) : Decidable (KeepsApart first second text) :=
  decidable_of_iff (NotAdjacent first second text ∧ text.toList.getLast? ≠ some first)
    ⟨fun h => ⟨h.1, h.2⟩, fun h => ⟨h.1, h.2⟩⟩

section

variable {first second : Char} {text rest : String}

/-- A mark is not in a text where its first two characters do not follow each other. -/
theorem NotAdjacent.occurrences_eq_zero (h : NotAdjacent first second text) {mark : String}
    (hmark : [first, second] <+: mark.toList) : occurrences mark text = 0 := by
  rw [occurrences_eq_zero_iff]
  intro hfound
  have hpair := List.IsChain.infix h (hmark.isInfix.trans hfound)
  simp at hpair

namespace KeepsApart

theorem of_not_mem (h : first ∉ text.toList) : KeepsApart first second text where
  within := by
    refine (List.pairwise_of_forall_mem_list fun c hc next _ => ?_).isChain
    rintro ⟨rfl, -⟩
    exact h hc
  ending hlast := h (List.mem_of_getLast? hlast)

/-- Anything may follow that keeps the characters apart itself. -/
theorem notAdjacent_append (h : KeepsApart first second text)
    (hrest : NotAdjacent first second rest) : NotAdjacent first second (text ++ rest) := by
  unfold NotAdjacent
  rw [String.toList_append]
  refine h.within.append hrest ?_
  rintro c hc next - ⟨rfl, -⟩
  exact h.ending hc

theorem append (h : KeepsApart first second text) (h' : KeepsApart first second rest) :
    KeepsApart first second (text ++ rest) := by
  refine ⟨h.notAdjacent_append h'.within, ?_⟩
  rw [String.toList_append, List.getLast?_append]
  cases hlast : rest.toList.getLast? with
  | none => exact h.ending
  | some last => exact fun heq => h'.ending (hlast.trans heq)

/-- A text with another character than `second` behind it may end in `first`. -/
theorem of_notAdjacent (h : NotAdjacent first second text) (h' : KeepsApart first second rest)
    (hstart : rest.toList.head?.any (· ≠ second) = true) :
    KeepsApart first second (text ++ rest) := by
  obtain ⟨start, hhead, hne⟩ := (Option.any_eq_true ..).mp hstart
  constructor
  · unfold NotAdjacent
    rw [String.toList_append]
    refine List.IsChain.append h h'.within ?_
    rintro c - next hnext ⟨-, rfl⟩
    cases hhead.symm.trans hnext
    simp at hne
  · have hnil : rest.toList ≠ [] := by
      intro hnil
      rw [hnil] at hhead
      cases hhead
    rw [String.toList_append, List.getLast?_append_of_ne_nil _ hnil]
    exact h'.ending

end KeepsApart

end

end Interop
