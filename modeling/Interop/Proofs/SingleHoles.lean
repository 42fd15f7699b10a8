/-
Patterns with a single hole.

Whether a pattern is accepted can be decided in two ways.  Its holes can be counted, from
its start on and each behind the one before; or one can ask in how many ways it is a text
before a hole and a text behind it.  Holes do not overlap, so both come to the same: the
first hole gives one way, and another hole gives another.

A template is what stands on the two sides of the only hole.  So putting an expression in
between is replacing the first hole in the pattern's text, in one step that does not look
at the expression.  Whether the expression has holes itself, or makes one with the texts
next to it, does not matter, and it can be told from the result.
-/
import Interop.Proofs.FilledPatterns

namespace Interop

namespace Template

/-! ### The text of a pattern -/

/-- How many holes a text has, each looked for behind the one before. -/
def countHoles : List Char → Nat
  | [] => 0
  | '{' :: '0' :: '}' :: rest => countHoles rest + 1
  | _ :: rest => countHoles rest

/-- The text with an expression in the place of its first hole, if it has one. -/
def replaceFirst (expression : List Char) : List Char → List Char
  | [] => []
  | '{' :: '0' :: '}' :: rest => expression ++ rest
  | c :: rest => c :: replaceFirst expression rest

theorem countHoles_of_cut_eq_none {text : List Char} (h : cut text = none) :
    countHoles text = 0 := by
  fun_induction cut text with
  | case1 => rfl
  | case2 rest => cases h
  | case3 first rest hne ih =>
      rw [countHoles.eq_3 first rest hne]
      exact ih (Option.map_eq_none_iff.mp h)

/-- Behind the first hole stand all others. -/
theorem countHoles_of_cut_eq_some {text before after : List Char}
    (h : cut text = some (before, after)) : countHoles text = countHoles after + 1 := by
  fun_induction cut text generalizing before with
  | case1 => cases h
  | case2 rest =>
      cases h
      rfl
  | case3 first rest hne ih =>
      obtain ⟨inner, hcut, rfl⟩ := exists_cut_of_map_cut h
      rw [countHoles.eq_3 first rest hne]
      exact ih hcut

/-- The first hole is replaced where the text is cut. -/
theorem replaceFirst_of_cut_eq_some {text before after : List Char} (expression : List Char)
    (h : cut text = some (before, after)) :
    replaceFirst expression text = before ++ expression ++ after := by
  fun_induction cut text generalizing before with
  | case1 => cases h
  | case2 rest =>
      cases h
      rfl
  | case3 first rest hne ih =>
      obtain ⟨inner, hcut, rfl⟩ := exists_cut_of_map_cut h
      rw [replaceFirst.eq_3 expression first rest hne, ih hcut]
      rfl

/-! ### Which patterns are accepted -/

variable {text : String}

/-- A pattern is accepted if there is no hole behind the first. -/
theorem exists_read_iff_cut : (∃ template, read text = .ok template) ↔
    ∃ before after, cut text.toList = some (before, after) ∧ cut after = none := by
  constructor
  · rintro ⟨template, hread⟩
    obtain ⟨before, after, hcut, hrest, -⟩ := exists_cut_of_read hread
    exact ⟨before, after, hcut, hrest⟩
  · rintro ⟨before, after, hcut, hrest⟩
    refine ⟨⟨String.ofList before, String.ofList after⟩, ?_⟩
    unfold read ofPattern?
    simp only [hcut, hrest]

/-- A pattern is accepted if one hole is counted. -/
theorem exists_read_iff_countHoles :
    (∃ template, read text = .ok template) ↔ countHoles text.toList = 1 := by
  rw [exists_read_iff_cut]
  cases hcut : cut text.toList with
  | none => simp [countHoles_of_cut_eq_none hcut]
  | some sides =>
      obtain ⟨before, rest⟩ := sides
      rw [countHoles_of_cut_eq_some hcut]
      cases hrest : cut rest with
      | none => simp [countHoles_of_cut_eq_none hrest, hrest]
      | some others =>
          obtain ⟨middle, after⟩ := others
          simp [countHoles_of_cut_eq_some hrest, hrest]

/-- With two holes a text is parted in two ways: what stands before them differs in length. -/
theorem not_existsUnique_of_two_holes {first middle last : List Char}
    (h : text.toList = first ++ hole.toList ++ (middle ++ hole.toList ++ last)) :
    ¬∃! sides : String × String, text = sides.1 ++ hole ++ sides.2 := by
  rintro ⟨sides, -, hunique⟩
  have hfirst := hunique
    (String.ofList first, String.ofList (middle ++ hole.toList ++ last))
    (String.toList_injective (by simpa using h))
  have hsecond := hunique
    (String.ofList (first ++ hole.toList ++ middle), String.ofList last)
    (String.toList_injective (by simpa using h))
  have hsame := congrArg (fun sides => sides.1.length) (hfirst.trans hsecond.symm)
  have hhole : hole.length = 3 := by decide
  simp [hhole] at hsame

/-- A pattern is accepted if a hole parts it in one way only. -/
theorem exists_read_iff_existsUnique : (∃ template, read text = .ok template) ↔
    ∃! sides : String × String, text = sides.1 ++ hole ++ sides.2 := by
  constructor
  · rintro ⟨template, hread⟩
    refine ⟨(template.before, template.after), ?_, ?_⟩
    · exact (pattern_of_ofPattern? (ofPattern?_of_read hread)).symm
    · rintro ⟨before, after⟩ rfl
      rw [eq_of_read_append_hole hread]
  · intro hunique
    obtain ⟨⟨before, after⟩, rfl⟩ := hunique.exists
    rw [exists_read_iff_cut]
    cases hcut : cut (before ++ hole ++ after).toList with
    | none =>
        rw [String.toList_append, String.toList_append, List.append_assoc] at hcut
        exact absurd hcut (cut_append_hole_ne_none _ _)
    | some sides =>
        obtain ⟨first, rest⟩ := sides
        refine ⟨first, rest, rfl, ?_⟩
        cases hrest : cut rest with
        | none => rfl
        | some others =>
            obtain ⟨middle, last⟩ := others
            have htext := eq_of_cut hcut
            rw [eq_of_cut hrest] at htext
            exact absurd hunique (not_existsUnique_of_two_holes htext)

/-! ### What a template does -/

theorem apply_injective (template : Template) : Function.Injective template.apply := by
  intro expression other h
  exact (String.append_right_inj template.before).mp
    ((String.append_left_inj template.after).mp h)

/--
**A template is applied by one exact substitution.**  A pattern is accepted exactly if one
hole is counted in it, and exactly if it is the text before a hole, the hole and the text
behind it in one way only.  Whatever expression a template read from it is applied to, the
result is the expression between these two texts, which is the pattern with its first hole
replaced, and it belongs to no other expression.
-/
theorem apply_eq_of_unique_hole (text : String) :
    ((∃ template, read text = .ok template) ↔ countHoles text.toList = 1) ∧
    ((∃ template, read text = .ok template) ↔
      ∃! sides : String × String, text = sides.1 ++ hole ++ sides.2) ∧
    ∀ template, read text = .ok template →
      template.pattern = text ∧
      (∀ before after, text = before ++ hole ++ after → ∀ expression,
        template.apply expression = before ++ expression ++ after) ∧
      (∀ expression, (template.apply expression).toList =
        replaceFirst expression.toList text.toList) ∧
      Function.Injective template.apply := by
  refine ⟨exists_read_iff_countHoles, exists_read_iff_existsUnique, fun template hread => ?_⟩
  refine ⟨pattern_of_ofPattern? (ofPattern?_of_read hread), ?_, ?_, apply_injective template⟩
  · rintro before after rfl expression
    rw [eq_of_read_append_hole hread]
    rfl
  · intro expression
    obtain ⟨before, after, hcut, -, rfl⟩ := exists_cut_of_read hread
    rw [replaceFirst_of_cut_eq_some _ hcut]
    simp [apply]

/-- Two holes side by side are refused.  A hole between the halves of another is accepted, and an
expression that makes two holes with these halves is put in like any other. -/
theorem apply_eq_of_braces :
    (¬∃ template, read "\x7b0\x7d\x7b0\x7d" = .ok template) ∧
    ∃ template, read "\x7b0\x7b0\x7d0\x7d" = .ok template ∧
      template.apply "\x7d\x7b" = "\x7b0" ++ "\x7d\x7b" ++ "0\x7d" := by
  obtain ⟨htwo, -, -⟩ := apply_eq_of_unique_hole "\x7b0\x7d\x7b0\x7d"
  obtain ⟨hone, -, happly⟩ := apply_eq_of_unique_hole "\x7b0\x7b0\x7d0\x7d"
  obtain ⟨template, hread⟩ := hone.mpr (by decide)
  refine ⟨fun hread => absurd (htwo.mp hread) (by decide), template, hread, ?_⟩
  exact (happly template hread).2.1 "\x7b0" "0\x7d" (by decide) _

end Template

end Interop
