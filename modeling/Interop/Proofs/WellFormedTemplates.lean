/-
Templates are well formed, whatever types are called.

A host's name is put into a pattern as text, and only then the pattern is read.  A type
may be called anything, so its name could bring a hole of its own, or what looks like
the place of another name.  It brings neither, because names are spelled without braces,
at every depth of arrays, arguments and optional wrappers.  Nor do the texts of a pattern:
none of them ends in an opening brace, and behind none of their braces stands the letter
that would make it such a place.

A pattern is refused for its holes only.  So where a value can be converted at all, its
template is read, and otherwise it fails for what the type or the languages are.
-/
import Interop.Proofs.Convertible
import Interop.Proofs.Marks
import Interop.Proofs.Requests

namespace Interop

/-! ### Templates -/

namespace Template

/-- One hole, and no place left for the name of the host's type. -/
structure WellFormed (template : Template) : Prop where
  oneHole : occurrences hole template.pattern = 1
  noMark : occurrences Piece.hostTypeMark template.pattern = 0

/-- A text is cut at one of its holes, and the others come behind it. -/
theorem countP_tails_of_cut {text before after : List Char} (h : cut text = some (before, after)) :
    text.tails.countP (hole.toList.isPrefixOf ·) =
      after.tails.countP (hole.toList.isPrefixOf ·) + 1 := by
  have hhole : hole.toList = ['{', '0', '}'] := by decide
  fun_induction cut text generalizing before with
  | case1 => cases h
  | case2 rest =>
      cases h
      simp [hhole, List.tails]
  | case3 first rest hne ih =>
      obtain ⟨inner, hcut, rfl⟩ := exists_cut_of_map_cut h
      rw [List.tails_cons, List.countP_cons, ih hcut, if_neg]
      rw [hhole, List.isPrefixOf_iff_prefix]
      rintro ⟨others, hothers⟩
      cases hothers
      exact hne _ rfl rfl

/-- What is read has one hole. -/
theorem occurrences_hole_of_read {text : String} {template : Template}
    (h : read text = .ok template) : occurrences hole text = 1 := by
  obtain ⟨before, after, hcut, hrest, -⟩ := exists_cut_of_read h
  have hnone : occurrences hole (String.ofList after) = 0 := by
    rwa [occurrences_eq_zero_iff, String.toList_ofList, ← cut_eq_none_iff]
  rw [occurrences, String.toList_ofList] at hnone
  rw [occurrences, countP_tails_of_cut hcut, hnone]

/-- A template is well formed if it was read from a text without places for names. -/
theorem wellFormed_of_read {text : String} {template : Template} (h : read text = .ok template)
    (hmark : occurrences Piece.hostTypeMark text = 0) : template.WellFormed := by
  have htext : template.pattern = text := pattern_of_ofPattern? (ofPattern?_of_read h)
  exact ⟨htext ▸ occurrences_hole_of_read h, htext ▸ hmark⟩

end Template

/-! ### Filled patterns -/

namespace Pattern

/-- No text of the pattern opens a place for a name, whatever is put behind it. -/
def isUnmarked (pattern : Pattern) : Bool :=
  pattern.all fun
    | .text literal => decide (KeepsApart '{' 'T' literal)
    | .value | .hostType => true

theorem keepsApart_fill {pattern : Pattern} {name : String} (h : pattern.isUnmarked = true)
    (hname : KeepsApart '{' 'T' name) : KeepsApart '{' 'T' (pattern.fill name) := by
  induction pattern with
  | nil => exact (by decide : KeepsApart '{' 'T' "")
  | cons piece rest ih =>
      simp only [isUnmarked, List.all_cons, Bool.and_eq_true] at h
      rw [fill_cons]
      refine .append ?_ (ih h.2)
      cases piece with
      | value => exact (by decide : KeepsApart '{' 'T' Template.hole)
      | hostType => exact hname
      | text literal => exact of_decide_eq_true h.1

end Pattern

namespace Rule

theorem isUnmarked_of_mem_allPatterns : ∀ pattern ∈ allPatterns, pattern.isUnmarked = true := by
  decide +kernel

/-- What a rule specialises to for a spelled name is well formed. -/
theorem wellFormed_of_specialize {rule : Rule} {kind : ValueKind} {source target : Language}
    {nullness : Nullness} {name : String} {template : Template}
    (hname : Description.Spelled name) (hrule : find kind source target = .ok rule)
    (h : rule.specialize kind source target nullness name = .ok (some template)) :
    template.WellFormed := by
  obtain ⟨pattern, hpattern, hread⟩ := exists_read_of_specialize h
  have hunmarked := isUnmarked_of_mem_allPatterns _ (mem_allPatterns_of_find hrule hpattern)
  have hapart := Pattern.keepsApart_fill hunmarked (.of_not_mem (hname.not_mem (by decide)))
  exact Template.wellFormed_of_read hread (hapart.within.occurrences_eq_zero (by decide))

theorem eq_of_find_error {kind : ValueKind} {source target : Language} {error : ConversionError}
    (h : find kind source target = .error error) : error = .unsupportedPair source target := by
  unfold find at h
  split at h
  · cases h
  · split at h
    · cases h
    · cases h
      rfl

end Rule

/-! ### Conversions -/

/-- What conversions of a value or of a place come to: never a refused pattern, and only templates
that are well formed. -/
structure Outcome.WellFormed (outcome : Outcome) : Prop where
  readable (pattern : String) : outcome ≠ .error (.malformedTemplate pattern)
  template {template : Template} (h : outcome = .ok (some template)) : template.WellFormed

namespace Outcome.WellFormed

theorem error {error : ConversionError} (h : ∀ pattern, error ≠ .malformedTemplate pattern) :
    Outcome.WellFormed (.error error) where
  readable pattern heq := h pattern (Except.error.inj heq)
  template := nofun

/-- Rules come to well-formed conversions for spelled names. -/
theorem specialize {rule : Rule} {kind : ValueKind} {source target : Language} {name : String}
    (hname : Description.Spelled name) (hrule : Rule.find kind source target = .ok rule)
    (nullness : Nullness) :
    Outcome.WellFormed (rule.specialize kind source target nullness name) where
  readable pattern heq := by
    have herror := Rule.error?_specialize hname.cut_eq_none hrule nullness
    rw [heq, error?_error] at herror
    split at herror <;> cases herror
  template := Rule.wellFormed_of_specialize hname hrule

/-- Looking for the rule first fails only where there is none. -/
theorem find_specialize {kind : ValueKind} {source target : Language} {name : String}
    (hname : Description.Spelled name) (nullness : Nullness) :
    Outcome.WellFormed (do
      let rule ← Rule.find kind source target
      rule.specialize kind source target nullness name) := by
  cases hrule : Rule.find kind source target with
  | error error =>
      rw [Rule.eq_of_find_error hrule]
      exact .error nofun
  | ok rule => exact .specialize hname hrule nullness

end Outcome.WellFormed

namespace Description

/-- What is wrong where a value cannot be converted is its type, or that there is no passage. -/
def Excused (d : Description) (source target : Language) (error : ConversionError) : Prop :=
  (∃ what, error = .unrecognizedKind d.fullName what) ∨ error = .unsupportedPair source target

/-- A description whose conversions are well formed and fail for good reasons only. -/
structure ConvertsWell (d : Description) : Prop where
  convert (source target : Language) (nullness : Nullness) :
    (d.convert source target nullness).WellFormed
  convertByRef (source target : Language) : (d.convertByRef source target).WellFormed
  excused {source target : Language} {nullness : Nullness} {error : ConversionError}
    (h : d.convert source target nullness = .error error) : d.Excused source target error

variable {d : Description}

theorem NamesSpelled.convert_wellFormed (h : d.NamesSpelled) (hruled : d.Ruled)
    (source target : Language) (nullness : Nullness) :
    (d.convert source target nullness).WellFormed := by
  rw [hruled.convert_eq]
  unfold workOutConversion
  cases d.category with
  | void | unrecognized => exact .error nofun
  | value kind => exact .find_specialize (h.baseName _) nullness

theorem NamesSpelled.convertByRef_wellFormed (h : d.NamesSpelled) (hruled : d.Ruled)
    (source target : Language) : (d.convertByRef source target).WellFormed := by
  rw [hruled.convertByRef_eq]
  unfold workOutByRef
  cases d.category with
  | unrecognized => exact .error nofun
  | void | value => exact .find_specialize (h.baseName _) .nonNull

theorem NamesSpelled.excused (h : d.NamesSpelled) (hruled : d.Ruled)
    (hcategory : d.category ≠ .value .byRef) {source target : Language} {nullness : Nullness}
    {error : ConversionError} (herror : d.convert source target nullness = .error error) :
    d.Excused source target error := by
  cases hkind : d.category with
  | void | unrecognized =>
      rw [hruled.convert_eq, hkind] at herror
      cases herror
      exact .inl ⟨_, rfl⟩
  | value kind =>
      have hvalue : kind ≠ .byRef := fun heq => hcategory (heq ▸ hkind)
      have hfound := h.error?_convert hruled hkind hvalue source target nullness
      rw [herror] at hfound
      cases hrule : Rule.find kind source target with
      | ok rule =>
          rw [hrule] at hfound
          cases hfound
      | error found =>
          rw [hrule] at hfound
          cases hfound
          exact .inr (Rule.eq_of_find_error hrule)

/-- **What is called by spelled names converts well.** -/
theorem NamesSpelled.convertsWell (h : d.NamesSpelled) (hruled : d.Ruled)
    (hcategory : d.category ≠ .value .byRef) : d.ConvertsWell where
  convert := h.convert_wellFormed hruled
  convertByRef := h.convertByRef_wellFormed hruled
  excused := h.excused hruled hcategory

end Description

/-- Everything that can be described converts well. -/
theorem convertsWell_of_describeAlong {types : Reflection} {unspecified : Nullness}
    {path : List TypeKey} {key : TypeKey} {description : Description}
    (h : describeAlong types unspecified path key = .ok description) :
    description.ConvertsWell := by
  refine (namesSpelled_of_describeAlong h).convertsWell (ruled_of_describeAlong h) ?_
  obtain ⟨type, declaredName, parts, -, -, -, -, rfl⟩ := describeAlong_eq_ok h
  exact Category.ofShape_ne_byRef type.shape

/--
**Conversions of described types are well formed.**  Whatever the types of a source
are called, no pattern is refused for any description that a request is answered with,
between any two languages, for values and for places that hold one.  Every template
has one hole and no place left for a name, and a value cannot be converted only if its
type has no values with rules or its languages have no passage.
-/
theorem describe_convertsWell {types : Reflection} {unspecified : Nullness}
    {requests : List TypeKey} {key : TypeKey} {description : Description}
    (h : ((describe types unspecified key).on
      (.afterRequests types unspecified requests)).1 = .ok description) :
    description.ConvertsWell :=
  convertsWell_of_describeAlong ((fst_on_describe types unspecified requests key).symm.trans h)

/-- A list of arrays of a class, called after holes and places for names, and a ring. -/
def braced : Reflection where
  entries := [
    (⟨40⟩, .namedClass "Odd\x7b0\x7d\x7bT\x7d"),
    (⟨41⟩, { name := "Odd[]", fullName := some "Odd\x7b0\x7d\x7bT\x7d[]", shape := .array ⟨40⟩ }),
    (⟨42⟩, { name := "T", fullName := some "\x7bT\x7d`1", shape := .generic [⟨41⟩] }),
    (⟨43⟩, { name := "Ring[]", fullName := some "\x7b0\x7d[]", shape := .array ⟨43⟩ })]

/-- Neither braces in the names nor a request that failed before get into a template. -/
theorem describe_braced :
    ∃ description,
      ((describe braced .nonNull ⟨42⟩).on (.afterRequests braced .nonNull [⟨43⟩])).1 =
        .ok description ∧
      description.convert .kotlinJna .kotlin .nullable =
        .ok (some ⟨"", "?.let \x7b _T__A1<DNArray<Odd_0__T_>>(it) \x7d"⟩) ∧
      description.ConvertsWell := by
  have hconverted : ((describe braced .nonNull ⟨42⟩).on
      (.afterRequests braced .nonNull [⟨43⟩])).1.map (·.convert .kotlinJna .kotlin .nullable) =
      .ok (.ok (some ⟨"", "?.let \x7b _T__A1<DNArray<Odd_0__T_>>(it) \x7d"⟩)) := by
    decide +kernel
  obtain ⟨description, houtcome, hconversion⟩ := map_eq_ok hconverted
  exact ⟨description, houtcome, hconversion, describe_convertsWell houtcome⟩

end Interop
