/-
Expressions with one hole.

A pattern is written with `{0}` where the converted expression goes.  Reading one
cuts it at its hole, so filling the hole is nothing but putting the expression
between the two parts: whatever the expression contains, it is put in once and
is not looked at again.
-/
import Interop.Conversion.ConversionError

namespace Interop

/-- An expression with one hole: the text before it and the text after it. -/
structure Template where
  before : String
  after : String
  deriving DecidableEq, Repr, Inhabited

namespace Template

/-- How a hole is written. -/
def hole : String := "\x7b0\x7d"

/-- Cuts a text at its first hole, if it has one. -/
def cut : List Char → Option (List Char × List Char)
  | [] => none
  | '{' :: '0' :: '}' :: rest => some ([], rest)
  | c :: rest => (cut rest).map fun (before, after) => (c :: before, after)

/-- What a text is cut into starts as the text does, if that is cut further on. -/
theorem exists_cut_of_map_cut {first : Char} {rest before after : List Char}
    (h : (cut rest).map (fun (before, after) => (first :: before, after)) = some (before, after)) :
    ∃ inner, cut rest = some (inner, after) ∧ before = first :: inner := by
  obtain ⟨⟨inner, outer⟩, hcut, hpair⟩ := Option.map_eq_some_iff.mp h
  cases hpair
  exact ⟨inner, hcut, rfl⟩

/-- Nothing is lost by cutting. -/
theorem eq_of_cut {text before after : List Char} (h : cut text = some (before, after)) :
    text = before ++ hole.toList ++ after := by
  fun_induction cut text generalizing before with
  | case1 => cases h
  | case2 rest => cases h; rfl
  | case3 c rest _ ih =>
    obtain ⟨inner, hcut, rfl⟩ := exists_cut_of_map_cut h
    simp [ih hcut]

/-- Reads a pattern that has exactly one hole. -/
def ofPattern? (pattern : String) : Option Template :=
  match cut pattern.toList with
  | none => none
  | some (before, after) =>
    match cut after with
    | none => some ⟨String.ofList before, String.ofList after⟩
    | some _ => none

/-- Reads a pattern, or reports that it has no hole or several. -/
def read (pattern : String) : Except ConversionError Template :=
  match ofPattern? pattern with
  | some template => .ok template
  | none => .error (.malformedTemplate pattern)

/-- The pattern of a template. -/
def pattern (template : Template) : String :=
  template.before ++ hole ++ template.after

/-- A pattern that can be read is the pattern of what was read. -/
theorem pattern_of_ofPattern? {text : String} {template : Template}
    (h : ofPattern? text = some template) : template.pattern = text := by
  unfold ofPattern? at h
  split at h
  · cases h
  · rename_i before after hcut
    split at h
    · cases h
      apply String.toList_injective
      simp [pattern, eq_of_cut hcut]
    · cases h

/-- Puts an expression into the hole. -/
def apply (template : Template) (expression : String) : String :=
  template.before ++ expression ++ template.after

end Template

end Interop
