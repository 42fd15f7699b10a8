/-
Names that bring a hole into a pattern.

As it is written down, a pattern is a text, and a mark in it stands for the host's name
of the type.  The name takes the place of every mark, in one pass over this text: what
was put in is not looked at again, so a mark in the name stays there.  Filling the pieces
of a pattern comes to the same, because no mark stands across their borders.

The name may be any text.  A pattern has one hole of its own, and none comes about or goes
away where the name meets its neighbours.  So the filled pattern is refused exactly if
the pattern mentions the name and the name has a hole.
-/
import Interop.Proofs.WellFormedTemplates

namespace Interop

/-! ### Replacing marks -/

namespace Piece

/-- Puts a name in the place of every mark. -/
def replaceMarks (name : List Char) : List Char → List Char
  | [] => []
  | '{' :: 'T' :: '}' :: rest => name ++ replaceMarks name rest
  | c :: rest => c :: replaceMarks name rest

/-- The text with a name in the place of every mark. -/
def replaceHostType (text name : String) : String :=
  String.ofList (replaceMarks name.toList text.toList)

variable {name : List Char}

/-- What starts no mark stays. -/
theorem replaceMarks_cons {first : Char} {rest : List Char}
    (h : ¬hostTypeMark.toList <+: first :: rest) :
    replaceMarks name (first :: rest) = first :: replaceMarks name rest := by
  refine replaceMarks.eq_3 name first rest ?_
  rintro others rfl rfl
  exact h ⟨others, rfl⟩

theorem replaceMarks_mark (rest : List Char) :
    replaceMarks name (hostTypeMark.toList ++ rest) = name ++ replaceMarks name rest := rfl

/-- A mark does not overlap the one that follows, so what is put in there stands between what
becomes of the texts on both sides. -/
theorem replaceMarks_append_mark (before after : List Char) :
    replaceMarks name (before ++ (hostTypeMark.toList ++ after)) =
      replaceMarks name before ++ (name ++ replaceMarks name after) := by
  have hmark : hostTypeMark.toList = ['{', 'T', '}'] := by decide
  fun_induction replaceMarks name before with
  | case1 => rfl
  | case2 rest ih =>
      rw [List.append_assoc, ← ih]
      rfl
  | case3 first rest hne ih =>
      rw [List.cons_append, replaceMarks_cons, ih, List.cons_append]
      rw [hmark]
      match rest with
      | [] => simp
      | [second] => simp
      | second :: third :: others => simpa [eq_comm] using hne others

/-- A text in which no mark starts stays, whatever is put behind it. -/
theorem replaceMarks_append {text : String} (h : KeepsApart '{' 'T' text) (rest : List Char) :
    replaceMarks name (text.toList ++ rest) = text.toList ++ replaceMarks name rest := by
  have hmark : hostTypeMark.toList = ['{', 'T', '}'] := by decide
  obtain ⟨hwithin, hending⟩ := h
  unfold NotAdjacent at hwithin
  generalize text.toList = chars at hwithin hending ⊢
  induction chars with
  | nil => rfl
  | cons first others ih =>
      have hstart : ¬hostTypeMark.toList <+: first :: (others ++ rest) := by
        rw [hmark, List.cons_prefix_cons]
        rintro ⟨rfl, hbehind⟩
        cases others with
        | nil => exact hending rfl
        | cons second following =>
            rw [List.cons_append, List.cons_prefix_cons] at hbehind
            rw [List.isChain_cons_cons] at hwithin
            exact hwithin.1 ⟨rfl, hbehind.1.symm⟩
      have hothers : others.getLast? ≠ some '{' := by
        cases others with
        | nil => nofun
        | cons second following => rwa [List.getLast?_cons_cons] at hending
      rw [List.cons_append, replaceMarks_cons hstart, ih hwithin.tail hothers, List.cons_append]

end Piece

/-! ### Filling -/

namespace Pattern

variable {pattern : Pattern}

/-- **Filling puts the name in the place of every mark** of the pattern's text. -/
theorem replaceHostType_text (h : pattern.isUnmarked = true) (name : String) :
    Piece.replaceHostType pattern.text name = pattern.fill name := by
  rw [Piece.replaceHostType, ← String.ofList_toList (s := pattern.fill name)]
  refine congrArg String.ofList ?_
  induction pattern with
  | nil => rfl
  | cons piece rest ih =>
      simp only [isUnmarked, List.all_cons, Bool.and_eq_true] at h
      rw [text, fill_cons, fill_cons, String.toList_append, String.toList_append]
      cases piece with
      | value =>
          have hhole : KeepsApart '{' 'T' Template.hole := by decide
          exact (Piece.replaceMarks_append hhole _).trans (congrArg _ (ih h.2))
      | hostType => exact (Piece.replaceMarks_mark _).trans (congrArg _ (ih h.2))
      | text literal =>
          exact (Piece.replaceMarks_append (of_decide_eq_true h.1) _).trans (congrArg _ (ih h.2))

/-- A pattern that does not mention the host's type is filled with any name in the same way. -/
theorem fill_congr (h : .hostType ∉ pattern) (name other : String) :
    pattern.fill name = pattern.fill other := by
  induction pattern with
  | nil => rfl
  | cons piece rest ih =>
      obtain ⟨hpiece, hrest⟩ := not_or.mp (List.mem_cons.not.mp h)
      rw [fill_cons, fill_cons, ih hrest]
      cases piece with
      | value | text => rfl
      | hostType => exact absurd rfl hpiece

/-- A mark is in the text where the pattern mentions the host's type, and nowhere else. -/
theorem mark_isInfix_text_iff (h : pattern.isUnmarked = true) :
    Piece.hostTypeMark.toList <:+: pattern.text.toList ↔ .hostType ∈ pattern := by
  constructor
  · intro hmark
    by_contra hnone
    have hapart : KeepsApart '{' 'T' pattern.text := by
      rw [text, fill_congr hnone _ ""]
      exact keepsApart_fill h (by decide)
    exact occurrences_eq_zero_iff.mp (hapart.within.occurrences_eq_zero (by decide)) hmark
  · intro hmem
    obtain ⟨before, after, rfl⟩ := List.append_of_mem hmem
    rw [text, fill_append, fill_cons, String.toList_append, String.toList_append]
    exact ⟨_, _, List.append_assoc ..⟩

/-- A filled pattern has its own holes and those of the names. -/
theorem le_occurrences_fill (pattern : Pattern) (name : String) :
    pattern.count .value + pattern.count .hostType * occurrences Template.hole name ≤
      occurrences Template.hole (pattern.fill name) := by
  induction pattern with
  | nil => simp
  | cons piece rest ih =>
      have hborder := occurrences_append_le (by decide : Template.hole ≠ "") (piece.fill name)
        (fill rest name)
      rw [fill_cons]
      cases piece with
      | value =>
          have hone : occurrences Template.hole Template.hole = 1 := by decide
          simp only [Piece.fill, hone] at hborder ⊢
          simp only [List.count_cons_self,
            List.count_cons_of_ne (by decide : Piece.value ≠ .hostType)]
          omega
      | hostType =>
          simp only [Piece.fill] at hborder ⊢
          simp only [List.count_cons_self,
            List.count_cons_of_ne (by decide : Piece.hostType ≠ .value), Nat.add_mul, Nat.one_mul]
          omega
      | text literal =>
          simp only [List.count_cons_of_ne (by simp : Piece.text literal ≠ .value),
            List.count_cons_of_ne (by simp : Piece.text literal ≠ .hostType)]
          omega

/-- **A filled pattern is read** unless it mentions a name with a hole. -/
theorem exists_read_fill_iff (h : pattern.isReadable = true) (name : String) :
    (∃ template, Template.read (pattern.fill name) = .ok template) ↔
      ¬(.hostType ∈ pattern ∧ Template.hole.toList <:+: name.toList) := by
  constructor
  · rintro ⟨template, hread⟩ ⟨hmentioned, hhole⟩
    simp only [isReadable, Bool.and_eq_true, List.contains_iff_mem] at h
    have hvalue := List.count_pos_iff.mpr h.1.1
    have hmentions := List.count_pos_iff.mpr hmentioned
    have hname : 0 < occurrences Template.hole name := by
      rw [Nat.pos_iff_ne_zero, ne_eq, occurrences_eq_zero_iff, not_not]
      exact hhole
    have hinjected := Nat.mul_pos hmentions hname
    -- One hole is the pattern's own, and another one came with the name.
    have hle := pattern.le_occurrences_fill name
    rw [Template.occurrences_hole_of_read hread] at hle
    omega
  · intro hclear
    refine ⟨_, read_fill h fun hmentioned => Template.cut_eq_none_iff.mpr fun hhole => ?_⟩
    exact hclear ⟨hmentioned, hhole⟩

end Pattern

namespace Template

/-- Reading keeps the text, or refuses it. -/
theorem read_eq (text : String) :
    read text = .error (.malformedTemplate text) ∨
      ∃ template, read text = .ok template ∧ template.pattern = text := by
  cases hread : read text with
  | ok template => exact .inr ⟨template, rfl, pattern_of_ofPattern? (ofPattern?_of_read hread)⟩
  | error error =>
      unfold read at hread
      split at hread <;> cases hread
      exact .inl rfl

end Template

namespace Rule

/--
**A conversion is refused exactly where a hole is injected.**  Where a rule has expressions,
one of them is chosen: its own for values that may be absent, if the value may be and there
is one.  With any text for the name of the host's type it is refused exactly if it mentions
the name and the name has a hole.  Otherwise the template is the expression as it is written,
with the name in the place of every mark and left as it is there.
-/
theorem specialize_refused_iff_injected (kind : ValueKind) (source target : Language)
    (plain : Pattern) (forNullable : Option Pattern) (nullness : Nullness) (name : String) :
    find kind source target = .ok (.convert plain forNullable) →
    let chosen : Pattern :=
      match nullness, forNullable with
      | .nullable, some own => own
      | _, _ => plain
    let filled := Piece.replaceHostType chosen.text name
    let outcome := (Rule.convert plain forNullable).specialize kind source target nullness name
    ((∃ text, outcome = .error (.malformedTemplate text)) ↔
      Piece.hostTypeMark.toList <:+: chosen.text.toList ∧
        Template.hole.toList <:+: name.toList) ∧
    (outcome = .error (.malformedTemplate filled) ∨
      ∃ template, outcome = .ok (some template) ∧ template.pattern = filled) ∧
    ∀ before after, chosen.text = before ++ Piece.hostTypeMark ++ after →
      filled = Piece.replaceHostType before name ++ name ++ Piece.replaceHostType after name := by
  intro hrule chosen filled outcome
  have hchosen : chosen = choose plain forNullable nullness := by
    cases nullness <;> cases forNullable <;> rfl
  have hmem : chosen ∈ allPatterns := by
    rw [hchosen]
    exact mem_allPatterns_of_find hrule (choose_mem_patterns plain forNullable nullness)
  have hunmarked := isUnmarked_of_mem_allPatterns chosen hmem
  have hfilled : filled = chosen.fill name := Pattern.replaceHostType_text hunmarked name
  have houtcome : outcome = (Template.read filled).map some := by
    rw [hfilled, hchosen]
    rfl
  refine ⟨?_, ?_, ?_⟩
  · rw [Pattern.mark_isInfix_text_iff hunmarked]
    have hread := Pattern.exists_read_fill_iff (isReadable_of_mem_allPatterns chosen hmem) name
    rw [← hfilled] at hread
    rw [← not_iff_not, ← hread, houtcome]
    rcases Template.read_eq filled with herror | ⟨template, hok, -⟩
    · simp [herror, Except.map]
    · simp [hok, Except.map]
  · rw [houtcome]
    rcases Template.read_eq filled with herror | ⟨template, hok, hpattern⟩
    · exact .inl (by rw [herror]; rfl)
    · exact .inr ⟨template, by rw [hok]; rfl, hpattern⟩
  · intro before after hsplit
    apply String.toList_injective
    simp [filled, Piece.replaceHostType, hsplit, Piece.replaceMarks_append_mark]

/-- A hole in a name is refused, but a mark in it and halves of a hole at its ends are kept, and a
rule that does not mention the name takes any. -/
theorem specialize_refused_iff_injected_of_braces :
    let object (name : String) := (kotlin .referenceObject .toHost).specialize
      .referenceObject .kotlinJna .kotlin .nullable name
    let string := (kotlin .string .toHost).specialize
      .string .kotlinJna .kotlin .nonNull "\x7b0\x7d"
    find .referenceObject .kotlinJna .kotlin = .ok (kotlin .referenceObject .toHost) ∧
      find .string .kotlinJna .kotlin = .ok (kotlin .string .toHost) ∧
      (∃ text, object "App.\x7b0\x7d" = .error (.malformedTemplate text)) ∧
      (∃ template, object "0\x7d\x7bT\x7d\x7b0" = .ok (some template) ∧
        template.pattern = "\x7b0\x7d?.let \x7b 0\x7d\x7bT\x7d\x7b0(it) \x7d") ∧
      ∃ template, string = .ok (some template) ∧ template.pattern = "\x7b0\x7d.toKString()" := by
  intro object string
  have hobject : find .referenceObject .kotlinJna .kotlin = .ok (kotlin .referenceObject .toHost) :=
    rfl
  have hstring : find .string .kotlinJna .kotlin = .ok (kotlin .string .toHost) := rfl
  obtain ⟨hrefused, -, -⟩ := specialize_refused_iff_injected _ _ _ _ _ .nullable
    "App.\x7b0\x7d" hobject
  obtain ⟨hrefused', houtcome', -⟩ := specialize_refused_iff_injected _ _ _ _ _ .nullable
    "0\x7d\x7bT\x7d\x7b0" hobject
  obtain ⟨hrefused'', houtcome'', -⟩ := specialize_refused_iff_injected _ _ _ _ _ .nonNull
    "\x7b0\x7d" hstring
  refine ⟨hobject, hstring, hrefused.mpr (by decide +kernel), ?_, ?_⟩
  · obtain ⟨template, hok, hpattern⟩ := houtcome'.resolve_left fun herror =>
      absurd (hrefused'.mp ⟨_, herror⟩) (by decide +kernel)
    exact ⟨template, hok, hpattern.trans (by decide +kernel)⟩
  · obtain ⟨template, hok, hpattern⟩ := houtcome''.resolve_left fun herror =>
      absurd (hrefused''.mp ⟨_, herror⟩) (by decide +kernel)
    exact ⟨template, hok, hpattern.trans (by decide +kernel)⟩

end Rule

end Interop
