/-
What the names of types are made of.

A managed full name may hold any character, but it gets into other names only as it
is spelled for C, and there all that is left are letters, digits and underscores.
The other names are the model's own, or are put together from names of parts with a
few marks between them.  So whatever types are called, their names in every language
are made of the characters of identifiers and these marks.  There is no line break
among them, and no brace, so no name holds a hole.

A description is built from the descriptions of its parts.  So what building
preserves holds of everything that can be described.
-/
import Interop.Proofs.Afresh
import Interop.Proofs.Lines

namespace Interop

/-! ### What is kept by building a description -/

/-- What building a description takes over from its parts holds of all descriptions. -/
theorem describeAlong_induction {types : Reflection} {unspecified : Nullness}
    {motive : Description → Prop}
    (hbuild : ∀ key type declaredName parts, types.get? key = some type →
      type.fullName = some declaredName → (∀ part ∈ parts, motive part) →
      motive (.build unspecified key type declaredName parts))
    {path : List TypeKey} {key : TypeKey} {description : Description}
    (h : describeAlong types unspecified path key = .ok description) : motive description := by
  obtain ⟨type, declaredName, parts, htype, hmet, hname, hparts, rfl⟩ := describeAlong_eq_ok h
  refine hbuild key type declaredName parts htype hname fun made hmade => ?_
  obtain ⟨part, -, hpart⟩ := exists_of_forall₂ hparts.flip hmade
  exact describeAlong_induction hbuild hpart
termination_by types.offPath path
decreasing_by exact Reflection.offPath_cons_lt (Reflection.mem_keys_of_get? htype) hmet

/-! ### Spelled names -/

namespace Identifier

/-- A name is spelled with plain characters. -/
theorem isPlain_of_mem_spell {name : List Char} {c : Char} (h : c ∈ spell name) :
    isPlain c = true := by
  fun_induction spell name with
  | case1 => cases h
  | case2 rest ih =>
      rcases List.mem_append.mp h with hmark | hrest
      · have hall : ['_', 'A', 'r', 'r', 'a', 'y'].all isPlain = true := by decide
        exact List.all_eq_true.mp hall c hmark
      · exact ih hrest
  | case3 first rest _ ih =>
      rcases List.mem_append.mp h with hfirst | hrest
      · unfold spellChar at hfirst
        split at hfirst
        · have hall : ['_', 'A'].all isPlain = true := by decide
          exact List.all_eq_true.mp hall c hfirst
        · split at hfirst
          · rename_i hplain
            rwa [List.mem_singleton.mp hfirst]
          · rw [List.mem_singleton.mp hfirst]
            decide
      · exact ih hrest

theorem isPlain_of_mem_ofFullName {fullName : String} {c : Char}
    (h : c ∈ (ofFullName fullName).toList) : isPlain c = true := by
  rw [ofFullName, String.toList_ofList] at h
  exact isPlain_of_mem_spell h

theorem spell_ne_nil {name : List Char} (h : name ≠ []) : spell name ≠ [] := by
  fun_cases spell name with
  | case1 => exact absurd rfl h
  | case2 rest => simp
  | case3 first rest =>
      have hfirst : spellChar first ≠ [] := by
        unfold spellChar
        split
        · simp
        · split <;> simp
      simp [hfirst]

/-- Whatever there is to spell, something is spelled. -/
theorem ofFullName_ne_empty {fullName : String} (h : fullName ≠ "") : ofFullName fullName ≠ "" := by
  have hspell : spell fullName.toList ≠ [] := spell_ne_nil (by simpa using h)
  simpa [ofFullName] using hspell

end Identifier

namespace Description

/-! ### Characters of names -/

/-- What names are marked and put together with. -/
def nameMarks : List Char := [' ', ',', '.', '<', '>', '?', '*']

/-- Identifiers are made of such characters, and so are names with marks. -/
def isNameChar (c : Char) : Bool := Identifier.isPlain c || nameMarks.contains c

/-- The text is made of such characters. -/
def Spelled (text : String) : Prop := text.toList.all isNameChar = true

instance (text : String) : Decidable (Spelled text) :=
  inferInstanceAs (Decidable (text.toList.all isNameChar = true))

namespace Spelled

theorem append {first second : String} (h : Spelled first) (h' : Spelled second) :
    Spelled (first ++ second) := by
  unfold Spelled at *
  rw [String.toList_append, List.all_append, h, h', Bool.and_true]

theorem intercalate {separator : String} {texts : List String} (hseparator : Spelled separator)
    (h : ∀ text ∈ texts, Spelled text) : Spelled (separator.intercalate texts) := by
  refine List.all_eq_true.mpr fun c hc => ?_
  rcases mem_toList_intercalate hc with hin | ⟨text, htext, hin⟩
  · exact List.all_eq_true.mp hseparator c hin
  · exact List.all_eq_true.mp (h text htext) c hin

theorem not_mem {text : String} (h : Spelled text) {c : Char} (hc : isNameChar c = false) :
    c ∉ text.toList := by
  intro hmem
  cases hc.symm.trans (List.all_eq_true.mp h c hmem)

theorem oneLine {text : String} (h : Spelled text) : OneLine text := h.not_mem (by decide)

end Spelled

theorem spelled_ofFullName (fullName : String) : Spelled (Identifier.ofFullName fullName) := by
  refine List.all_eq_true.mpr fun c hc => ?_
  rw [isNameChar, Identifier.isPlain_of_mem_ofFullName hc, Bool.true_or]

/-! ### Names in use -/

/-- A description whose names are spelled so. -/
structure NamesSpelled (d : Description) : Prop where
  cTypeName : Spelled d.cTypeName
  baseName (language : Language) : Spelled (d.baseName language)

theorem spelled_markNullness {base : String} (h : Spelled base) (kind : ValueKind)
    (nullness : Nullness) (language : Language) :
    Spelled (markNullness base kind nullness language) := by
  have hmarked : ∀ mark, Spelled mark → Spelled (base ++ mark) := fun _ => h.append
  unfold markNullness
  split <;> split
  all_goals first
    | exact h
    | exact hmarked _ (by decide)

theorem spelled_nameOfPlace {inner : String} (h : Spelled inner) (language : Language) :
    Spelled (nameOfPlace inner language) := by
  cases language with
  | c => exact h.append (by decide)
  | kotlinJna => exact (by decide : Spelled "Pointer")
  | kotlin => exact .append (.append (by decide) h) (by decide)
  | swift => exact .append (by decide) h

theorem NamesSpelled.nameWithNullness {d : Description} (h : d.NamesSpelled)
    (language : Language) (nullness : Nullness) :
    Spelled (d.nameWithNullness language nullness) := by
  unfold Description.nameWithNullness
  split
  · split
    · exact spelled_markNullness (h.baseName language) _ _ _
    · exact h.baseName language
  · exact h.baseName language

/-- The name of a type in use. -/
theorem NamesSpelled.name {d : Description} (h : d.NamesSpelled) (request : NameRequest) :
    Spelled (d.name request) := by
  unfold Description.name
  split
  · exact h.nameWithNullness _ _
  · split
    · exact h.nameWithNullness _ _
    · exact spelled_nameOfPlace (h.nameWithNullness _ _) _

/-! ### Building -/

theorem spelled_keyword (primitive : Primitive) (language : Language) :
    Spelled (primitive.keyword language) := by
  cases language <;> cases primitive <;> decide

theorem spelled_buildCTypeName (declaredName : String) (shape : Shape) {parts : List Description}
    (hparts : ∀ part ∈ parts, part.NamesSpelled) :
    Spelled (buildCTypeName declaredName shape parts) := by
  have hdeclared := spelled_ofFullName declaredName
  unfold buildCTypeName
  split
  · refine .append (.append hdeclared (by decide)) (.intercalate (by decide) ?_)
    intro name hname
    obtain ⟨part, hpart, rfl⟩ := List.mem_map.mp hname
    exact (hparts part hpart).cTypeName
  · exact hdeclared

section

variable {p : NameParts} (hname : Spelled p.cTypeName) (hparts : ∀ part ∈ p.parts, part.NamesSpelled)

include hname hparts

theorem spelled_wrapperName (language : Language) : Spelled (wrapperName p language) := by
  have hnested : ∀ name ∈ p.parts.map (nestedName p.unspecified language), Spelled name := by
    intro name hmem
    obtain ⟨part, hpart, rfl⟩ := List.mem_map.mp hmem
    exact (hparts part hpart).name _
  unfold wrapperName
  split
  · refine .append (.append (by decide) ?_) (by decide)
    cases hlist : p.parts.map (nestedName p.unspecified language) with
    | nil => exact (by decide : Spelled "")
    | cons first rest => exact hnested first (hlist ▸ List.mem_cons_self)
  · exact .append (.append (.append (spelled_ofFullName _) (by decide))
      (.intercalate (by decide) hnested)) (by decide)
  · exact hname

theorem spelled_unwrappedName (language : Language) : Spelled (unwrappedName p language) := by
  unfold unwrappedName
  split
  · rename_i inner hinner
    exact (hparts inner (List.mem_of_head? hinner)).baseName language
  · exact hname

theorem spelled_valueBaseName (kind : ValueKind) (language : Language) :
    Spelled (valueBaseName p kind language) := by
  have hwrapper := spelled_wrapperName hname hparts
  have hunwrapped := spelled_unwrappedName hname hparts
  cases kind with
  | primitive primitive => exact spelled_keyword primitive language
  | enumeration =>
      simp only [valueBaseName]
      split
      · exact spelled_keyword _ _
      · exact hname
  | string | byteSpan => cases language <;> (simp only [valueBaseName]; decide)
  | optionalWrapper =>
      cases language with
      | c => exact (by decide : Spelled "System_Object_t")
      | kotlinJna => exact (by decide : Spelled "Pointer")
      | kotlin => exact hunwrapped .kotlin
      | swift => exact hunwrapped .swift
  | referenceObject | byRef =>
      cases language with
      | c => exact hname.append (by decide)
      | kotlinJna => exact (by decide : Spelled "Pointer")
      | kotlin => exact hwrapper .kotlin
      | swift => exact hwrapper .swift

theorem spelled_buildBaseName (language : Language) : Spelled (buildBaseName p language) := by
  unfold buildBaseName
  split
  · cases language <;> decide
  · cases language <;> decide
  · exact spelled_valueBaseName hname hparts _ language

end

/-- **Names built from spelled names are spelled,** whatever the type is called. -/
theorem NamesSpelled.build (unspecified : Nullness) (key : TypeKey) (type : ManagedType)
    (declaredName : String) {parts : List Description}
    (hparts : ∀ part ∈ parts, part.NamesSpelled) :
    (Description.build unspecified key type declaredName parts).NamesSpelled := by
  have hc : Spelled (buildCTypeName declaredName type.shape parts) :=
    spelled_buildCTypeName declaredName type.shape hparts
  refine ⟨hc, fun language => ?_⟩
  rw [baseName_build]
  refine spelled_buildBaseName ?_ ?_ language
  · exact hc
  · exact hparts

end Description

/-- The names of everything that can be described are spelled so. -/
theorem namesSpelled_of_describeAlong {types : Reflection} {unspecified : Nullness}
    {path : List TypeKey} {key : TypeKey} {description : Description}
    (h : describeAlong types unspecified path key = .ok description) :
    description.NamesSpelled :=
  describeAlong_induction (fun key type declaredName _ _ _ => .build _ key type declaredName) h

end Interop
