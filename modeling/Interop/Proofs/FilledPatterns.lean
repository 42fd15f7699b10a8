/-
What becomes of a pattern when it is filled and read.

A rule writes its expression down in pieces, one of which is the converted value.
The host's name of the type is put in first, and then the text is cut at its first
hole.  That name may be anything, so it could bring a hole of its own.  But then there
are two, and the pattern is refused.  So wherever a template is read from a filled
pattern, its parts are the pieces before the value and the pieces after it.

A name without a hole brings none, but it stands between texts of the pattern, and
together they might make one.  They do not where the characters next to the name are
in no hole, and then the pattern is read.

The last part looks at the rules there are.  The pieces of each end in a text of the
rule's own, so a converted value never ends in text from elsewhere.  And no name makes
a hole together with its neighbours.
-/
import Interop.Conversion.Rule
import Interop.Proofs.FirstFailure
import Interop.Proofs.Lines

namespace Interop

/-! ### Cutting at the first hole -/

namespace Template

/-- A text that does not start with a hole is cut further on. -/
theorem cut_cons {first : Char} {rest : List Char}
    (h : ¬hole.toList <+: first :: rest) :
    cut (first :: rest) = (cut rest).map fun (before, after) => (first :: before, after) := by
  refine cut.eq_3 first rest ?_
  rintro others rfl rfl
  exact h ⟨others, rfl⟩

theorem cut_hole (rest : List Char) : cut (hole.toList ++ rest) = some ([], rest) := rfl

/-- A hole that does not start a text does not start it either where another hole follows: holes
do not overlap. -/
theorem not_hole_isPrefix_append {first : Char} {rest : List Char} (after : List Char)
    (h : ¬hole.toList <+: first :: rest) :
    ¬hole.toList <+: first :: (rest ++ (hole.toList ++ after)) := by
  have hhole : hole.toList = ['{', '0', '}'] := by decide
  rw [hhole] at h ⊢
  match rest with
  | [] => simp
  | [second] => simp
  | second :: third :: others => simpa using h

theorem cut_append_hole_ne_none (before after : List Char) :
    cut (before ++ (hole.toList ++ after)) ≠ none := by
  induction before with
  | nil => simp [cut_hole]
  | cons first rest ih =>
      by_cases h : hole.toList <+: first :: rest
      · obtain ⟨others, hothers⟩ := h
        rw [← hothers, List.append_assoc, cut_hole]
        simp
      · rw [List.cons_append, cut_cons (not_hole_isPrefix_append after h)]
        simpa using ih

/-- A text without holes before a hole is cut there. -/
theorem cut_append_hole {before : List Char} (h : cut before = none) (after : List Char) :
    cut (before ++ (hole.toList ++ after)) = some (before, after) := by
  induction before with
  | nil => exact cut_hole after
  | cons first rest ih =>
      by_cases hhole : hole.toList <+: first :: rest
      · obtain ⟨others, hothers⟩ := hhole
        rw [← hothers, cut_hole] at h
        cases h
      · rw [cut_cons hhole, Option.map_eq_none_iff] at h
        rw [List.cons_append, cut_cons (not_hole_isPrefix_append after hhole), ih h]
        rfl

/-- A text is cut at a given hole, or there is another hole after the cut. -/
theorem eq_of_cut_append_hole {before after first rest : List Char}
    (h : cut (before ++ (hole.toList ++ after)) = some (first, rest)) (hrest : cut rest = none) :
    first = before ∧ rest = after := by
  induction before generalizing first with
  | nil =>
      rw [List.nil_append, cut_hole] at h
      cases h
      exact ⟨rfl, rfl⟩
  | cons head tail ih =>
      by_cases hhole : hole.toList <+: head :: tail
      · obtain ⟨others, hothers⟩ := hhole
        rw [← hothers, List.append_assoc, cut_hole] at h
        cases h
        exact absurd hrest (cut_append_hole_ne_none others after)
      · rw [List.cons_append, cut_cons (not_hole_isPrefix_append after hhole)] at h
        obtain ⟨inner, hcut, rfl⟩ := exists_cut_of_map_cut h
        obtain ⟨rfl, rfl⟩ := ih hcut
        exact ⟨rfl, rfl⟩

theorem ofPattern?_of_read {text : String} {template : Template}
    (h : read text = .ok template) : ofPattern? text = some template := by
  unfold read at h
  split at h
  · rename_i found hfound
    cases h
    exact hfound
  · cases h

/-- What is read are the two sides of the only hole. -/
theorem exists_cut_of_read {text : String} {template : Template} (h : read text = .ok template) :
    ∃ before after, cut text.toList = some (before, after) ∧ cut after = none ∧
      template = ⟨String.ofList before, String.ofList after⟩ := by
  have hread := ofPattern?_of_read h
  unfold ofPattern? at hread
  split at hread
  · cases hread
  · rename_i before after hcut
    split at hread
    · rename_i hrest
      cases hread
      exact ⟨before, after, hcut, hrest, rfl⟩
    · cases hread

/-- What is read from a text with a hole is the text before it and the text after it. -/
theorem eq_of_read_append_hole {before after : String} {template : Template}
    (h : read (before ++ hole ++ after) = .ok template) : template = ⟨before, after⟩ := by
  obtain ⟨first, rest, hcut, hrest, rfl⟩ := exists_cut_of_read h
  rw [String.toList_append, String.toList_append, List.append_assoc] at hcut
  obtain ⟨rfl, rfl⟩ := eq_of_cut_append_hole hcut hrest
  simp

/-- A text with a single hole is read. -/
theorem read_append_hole {before after : String} (hbefore : cut before.toList = none)
    (hafter : cut after.toList = none) : read (before ++ hole ++ after) = .ok ⟨before, after⟩ := by
  unfold read ofPattern?
  rw [String.toList_append, String.toList_append, List.append_assoc,
    cut_append_hole hbefore after.toList]
  dsimp only
  rw [hafter]
  simp

/-! ### Texts side by side -/

/-- A text is cut unless there is no hole in it. -/
theorem cut_eq_none_iff {text : List Char} : cut text = none ↔ ¬hole.toList <:+: text := by
  induction text with
  | nil => decide
  | cons first rest ih =>
      by_cases hhole : hole.toList <+: first :: rest
      · obtain ⟨others, hothers⟩ := hhole
        have hfound : hole.toList <:+: first :: rest := hothers ▸ (List.prefix_append ..).isInfix
        rw [← hothers, cut_hole, hothers]
        simp [hfound]
      · rw [cut_cons hhole, Option.map_eq_none_iff, ih, List.infix_cons_iff]
        simp [hhole]

/-- No hole can start before the text and reach into it. -/
def opensClear (text : List Char) : Bool := text.head?.all (· ∉ hole.toList)

/-- No hole can start in the text and reach behind it. -/
def closesClear (text : List Char) : Bool := text.getLast?.all (· ∉ hole.toList)

/-- Texts without holes have none side by side, if no hole can stand across their border. -/
theorem cut_append_eq_none {before after : List Char} (hbefore : cut before = none)
    (hafter : cut after = none) (hclear : closesClear before = true ∨ opensClear after = true) :
    cut (before ++ after) = none := by
  rw [cut_eq_none_iff] at hbefore hafter ⊢
  rw [List.infix_append_iff]
  rintro (hfound | hfound | ⟨start, rest, hsplit, hstart, hrest⟩)
  · exact hbefore hfound
  · exact hafter hfound
  rcases List.eq_nil_or_concat start with rfl | ⟨others, last, rfl⟩
  · rw [List.nil_append] at hsplit
    exact hafter (hsplit ▸ hrest.isInfix)
  cases rest with
  | nil =>
      rw [List.append_nil] at hsplit
      exact hbefore (hsplit ▸ hstart.isInfix)
  | cons first following =>
      rw [List.concat_eq_append] at hsplit hstart
      rcases hclear with hcloses | hopens
      · obtain ⟨text, rfl⟩ := hstart
        simp [closesClear, hsplit] at hcloses
      · obtain ⟨text, rfl⟩ := hrest
        simp [opensClear, hsplit] at hopens

end Template

/-! ### Pieces -/

namespace Pattern

theorem fill_append (first second : Pattern) (name : String) :
    fill (first ++ second) name = fill first name ++ fill second name := by
  simp [fill, String.join_append]

theorem fill_cons (piece : Piece) (rest : Pattern) (name : String) :
    fill (piece :: rest) name = piece.fill name ++ fill rest name := by
  simp [fill]

/-- The pieces before the value. -/
def front (pattern : Pattern) : Pattern := pattern.takeWhile (· != .value)

/-- The pieces after it. -/
def back (pattern : Pattern) : Pattern := (pattern.dropWhile (· != .value)).tail

theorem eq_front_append_back {pattern : Pattern} (h : .value ∈ pattern) :
    pattern = pattern.front ++ .value :: pattern.back := by
  induction pattern with
  | nil => cases h
  | cons piece rest ih =>
      by_cases hpiece : piece = .value
      · subst hpiece
        rfl
      · have hrest : .value ∈ rest := (List.mem_cons.mp h).resolve_left (Ne.symm hpiece)
        have hne : (piece != .value) = true := by simpa using hpiece
        have hfront : front (piece :: rest) = piece :: front rest := by
          simp [front, hne]
        have hback : back (piece :: rest) = back rest := by
          simp [back, hne]
        rw [hfront, hback, List.cons_append, ← ih hrest]

/-- What is read from a filled pattern are its pieces before the value and after it. -/
theorem eq_of_read_fill {pattern : Pattern} {name : String} {template : Template}
    (hvalue : .value ∈ pattern) (h : Template.read (pattern.fill name) = .ok template) :
    template = ⟨pattern.front.fill name, pattern.back.fill name⟩ := by
  rw [eq_front_append_back hvalue, fill_append, fill_cons, Piece.fill, ← String.append_assoc] at h
  exact Template.eq_of_read_append_hole h

end Pattern

/-! ### Sealed pieces -/

namespace Piece

/-- There is no hole in the piece, unless it is in the name of the host's type. -/
def isWhole : Piece → Bool
  | .text literal => (Template.cut literal.toList).isNone
  | .hostType => true
  | .value => false

/-- No hole starts in the piece and reaches behind it. -/
def closesClear : Piece → Bool
  | .text literal => Template.closesClear literal.toList
  | .hostType | .value => false

/-- No hole starts before the piece and reaches into it. -/
def opensClear : Piece → Bool
  | .text literal => literal ≠ "" && Template.opensClear literal.toList
  | .hostType | .value => false

theorem cut_fill {piece : Piece} {name : String} (h : piece.isWhole = true)
    (hname : piece = .hostType → Template.cut name.toList = none) :
    Template.cut (piece.fill name).toList = none := by
  cases piece with
  | value => cases h
  | hostType => exact hname rfl
  | text literal => exact Option.isNone_iff_eq_none.mp h

theorem closesClear_fill {piece : Piece} (h : piece.closesClear = true) (name : String) :
    Template.closesClear (piece.fill name).toList = true := by
  cases piece with
  | value | hostType => cases h
  | text literal => exact h

end Piece

namespace Pattern

/-- The pieces have no hole, and no two of them make one side by side, whatever the name of the
host's type starts and ends with. -/
def isSealed : Pattern → Bool
  | [] => true
  | piece :: rest =>
    piece.isWhole && rest.head?.all (fun next => piece.closesClear || next.opensClear) &&
      isSealed rest

theorem opensClear_fill {next : Piece} (h : next.opensClear = true) (rest : Pattern)
    (name : String) : Template.opensClear (fill (next :: rest) name).toList = true := by
  cases next with
  | value | hostType => cases h
  | text literal =>
      obtain ⟨hne, hopens⟩ := Bool.and_eq_true_iff.mp h
      have hnil : literal.toList ≠ [] := by simpa using hne
      rw [fill_cons, Piece.fill, String.toList_append]
      unfold Template.opensClear
      rwa [List.head?_append_of_ne_nil _ hnil]

/-- Sealed pieces have no hole, unless it is in the name that they mention. -/
theorem cut_fill {part : Pattern} {name : String} (h : part.isSealed = true)
    (hname : .hostType ∈ part → Template.cut name.toList = none) :
    Template.cut (part.fill name).toList = none := by
  induction part with
  | nil => rfl
  | cons piece rest ih =>
      simp only [isSealed, Bool.and_eq_true] at h
      obtain ⟨⟨hwhole, hborder⟩, hrest⟩ := h
      have hpiece := piece.cut_fill hwhole fun heq => hname (heq ▸ List.mem_cons_self)
      have hothers := ih hrest fun hmem => hname (List.mem_cons_of_mem _ hmem)
      rw [fill_cons, String.toList_append]
      refine Template.cut_append_eq_none hpiece hothers ?_
      cases rest with
      | nil => exact .inr rfl
      | cons next following =>
          rcases Bool.or_eq_true_iff.mp hborder with hcloses | hopens
          · exact .inl (Piece.closesClear_fill hcloses name)
          · exact .inr (opensClear_fill hopens following name)

/-- The pattern has the value once, between sealed pieces. -/
def isReadable (pattern : Pattern) : Bool :=
  pattern.contains .value && pattern.front.isSealed && pattern.back.isSealed

/-- **A readable pattern is read** as its pieces before the value and after it, unless it mentions
a name with a hole. -/
theorem read_fill {pattern : Pattern} {name : String} (h : pattern.isReadable = true)
    (hname : .hostType ∈ pattern → Template.cut name.toList = none) :
    Template.read (pattern.fill name) =
      .ok ⟨pattern.front.fill name, pattern.back.fill name⟩ := by
  simp only [isReadable, Bool.and_eq_true, List.contains_iff_mem] at h
  obtain ⟨⟨hvalue, hfront⟩, hback⟩ := h
  have hsplit := eq_front_append_back hvalue
  have hbefore := cut_fill hfront fun hmem =>
    hname (hsplit ▸ List.mem_append_left _ hmem)
  have hafter := cut_fill hback fun hmem =>
    hname (hsplit ▸ List.mem_append_right _ (List.mem_cons_of_mem _ hmem))
  have hfill : pattern.fill name =
      pattern.front.fill name ++ Template.hole ++ pattern.back.fill name := by
    conv_lhs => rw [hsplit]
    rw [fill_append, fill_cons, Piece.fill, String.append_assoc]
  rw [hfill, Template.read_append_hole hbefore hafter]

end Pattern

/-! ### The rules there are -/

/-- A template whose text is on one line and does not end with the value. -/
structure Template.Closed (template : Template) : Prop where
  before : OneLine template.before
  after : Lines.Full template.after

/-- Whatever is put into a closed template, if it is on one line, so is the whole, and it ends
well. -/
theorem Template.Closed.full_apply {template : Template} (h : template.Closed)
    {expression : String} (hexpression : OneLine expression) :
    Lines.Full (template.apply expression) :=
  .append (h.before.append hexpression) h.after

namespace Pattern

/-- All that the pattern says itself is on one line, and it ends with a text of its own. -/
def isClosed (pattern : Pattern) : Bool :=
  pattern.contains .value &&
    pattern.all (fun
      | .text literal => decide (OneLine literal)
      | .value | .hostType => true) &&
    match pattern.getLast? with
    | some (.text literal) => decide (Lines.Full literal)
    | _ => false

theorem oneLine_fill {pattern : Pattern} {name : String} (hname : OneLine name)
    (h : ∀ literal, .text literal ∈ pattern → OneLine literal) : OneLine (pattern.fill name) := by
  induction pattern with
  | nil => exact List.not_mem_nil
  | cons piece rest ih =>
      rw [fill_cons]
      refine .append ?_ (ih fun literal hliteral => h literal (List.mem_cons_of_mem _ hliteral))
      cases piece with
      | value => exact (by decide : OneLine Template.hole)
      | hostType => exact hname
      | text literal => exact h literal List.mem_cons_self

/-- A text at the end of a pattern stands after the value. -/
theorem exists_back_eq {pattern : Pattern} {literal : String} (hvalue : .value ∈ pattern)
    (hlast : pattern.getLast? = some (.text literal)) :
    ∃ inner : Pattern, pattern.back = inner ++ [.text literal] := by
  rw [eq_front_append_back hvalue] at hlast
  rcases List.eq_nil_or_concat pattern.back with hnil | ⟨inner, last, hconcat⟩
  · rw [hnil, List.getLast?_concat] at hlast
    cases hlast
  · rw [List.concat_eq_append] at hconcat
    rw [hconcat, ← List.cons_append, ← List.append_assoc, List.getLast?_concat] at hlast
    cases hlast
    exact ⟨inner, hconcat⟩

/-- What is read from a closed pattern is a closed template. -/
theorem closed_of_read_fill {pattern : Pattern} {name : String} {template : Template}
    (hclosed : pattern.isClosed = true) (hname : OneLine name)
    (h : Template.read (pattern.fill name) = .ok template) : template.Closed := by
  simp only [isClosed, Bool.and_eq_true, List.contains_iff_mem, List.all_eq_true] at hclosed
  obtain ⟨⟨hvalue, hall⟩, hlast⟩ := hclosed
  have hliterals : ∀ literal, .text literal ∈ pattern → OneLine literal := by
    intro literal hliteral
    simpa using hall _ hliteral
  split at hlast
  · rename_i literal hliteral
    have hfull : Lines.Full literal := of_decide_eq_true hlast
    have hsplit := eq_front_append_back hvalue
    obtain ⟨inner, hback⟩ := exists_back_eq hvalue hliteral
    have hfront : ∀ literal, .text literal ∈ pattern.front → OneLine literal := by
      intro other hother
      exact hliterals other (hsplit ▸ List.mem_append_left _ hother)
    have hinner : ∀ literal, .text literal ∈ inner → OneLine literal := by
      intro other hother
      refine hliterals other ?_
      rw [hsplit, hback]
      simp [hother]
    have hafter : pattern.back.fill name = inner.fill name ++ literal := by
      rw [hback, fill_append]
      simp [fill, Piece.fill]
    rw [eq_of_read_fill hvalue h]
    exact ⟨oneLine_fill hname hfront, hafter ▸ .append (oneLine_fill hname hinner) hfull⟩
  · cases hlast

end Pattern

/-- Every kind of value. -/
def ValueKind.all : List ValueKind :=
  Primitive.all.map .primitive ++
    [.enumeration, .string, .optionalWrapper, .referenceObject, .byteSpan, .byRef]

theorem ValueKind.mem_all (kind : ValueKind) : kind ∈ all := by
  cases kind with
  | primitive p => exact List.mem_append_left _ (List.mem_map_of_mem p.mem_all)
  | enumeration | string | optionalWrapper | referenceObject | byteSpan | byRef => decide

/-- Every passage. -/
def Passage.all : List Passage :=
  [⟨.kotlin, .toNative⟩, ⟨.kotlin, .toHost⟩, ⟨.swift, .toNative⟩, ⟨.swift, .toHost⟩]

theorem Passage.mem_all (passage : Passage) : passage ∈ all := by
  obtain ⟨host, direction⟩ := passage
  cases host <;> cases direction <;> decide

namespace Rule

/-- The patterns of a rule. -/
def patterns : Rule → List Pattern
  | .convert plain forNullable => plain :: forNullable.toList
  | .identity | .unsupported => []

/-- All patterns there are. -/
def allPatterns : List Pattern :=
  Passage.all.flatMap fun passage => ValueKind.all.flatMap fun kind =>
    (onPassage kind passage).patterns

theorem isClosed_of_mem_allPatterns : ∀ pattern ∈ allPatterns, pattern.isClosed = true := by
  decide +kernel

theorem isReadable_of_mem_allPatterns : ∀ pattern ∈ allPatterns, pattern.isReadable = true := by
  decide +kernel

theorem choose_mem_patterns (plain : Pattern) (forNullable : Option Pattern)
    (nullness : Nullness) :
    choose plain forNullable nullness ∈ (convert plain forNullable).patterns := by
  cases nullness <;> cases forNullable <;> simp [choose, patterns]

/-- A rule that is found leaves the value alone, or is that of a passage. -/
theorem find_eq_ok {rule : Rule} {kind : ValueKind} {source target : Language}
    (h : find kind source target = .ok rule) :
    rule = .identity ∨ ∃ passage, rule = onPassage kind passage := by
  unfold find at h
  split at h
  · cases h
    exact .inl rfl
  · split at h
    · cases h
      exact .inr ⟨_, rfl⟩
    · cases h

theorem mem_allPatterns_of_find {rule : Rule} {kind : ValueKind} {source target : Language}
    (hrule : find kind source target = .ok rule) {pattern : Pattern}
    (hpattern : pattern ∈ rule.patterns) : pattern ∈ allPatterns := by
  obtain rfl | ⟨passage, rfl⟩ := find_eq_ok hrule
  · cases hpattern
  · exact List.mem_flatMap.mpr ⟨passage, passage.mem_all,
      List.mem_flatMap.mpr ⟨kind, kind.mem_all, hpattern⟩⟩

/-- What a rule specialises to was read from one of its patterns. -/
theorem exists_read_of_specialize {rule : Rule} {kind : ValueKind} {source target : Language}
    {nullness : Nullness} {name : String} {template : Template}
    (h : rule.specialize kind source target nullness name = .ok (some template)) :
    ∃ pattern ∈ rule.patterns, Template.read (pattern.fill name) = .ok template := by
  cases rule with
  | identity => cases h
  | unsupported => cases h
  | convert plain forNullable =>
      refine ⟨_, choose_mem_patterns plain forNullable nullness, ?_⟩
      unfold specialize at h
      dsimp only at h
      cases hread : Template.read ((choose plain forNullable nullness).fill name) with
      | error error => rw [hread] at h; cases h
      | ok found =>
          rw [hread] at h
          cases h
          rfl

/-- What a rule specialises to is closed. -/
theorem closed_of_specialize {rule : Rule} {kind : ValueKind} {source target : Language}
    {nullness : Nullness} {name : String} {template : Template} (hname : OneLine name)
    (hrule : find kind source target = .ok rule)
    (h : rule.specialize kind source target nullness name = .ok (some template)) :
    template.Closed := by
  obtain ⟨pattern, hpattern, hread⟩ := exists_read_of_specialize h
  have hclosed := isClosed_of_mem_allPatterns _ (mem_allPatterns_of_find hrule hpattern)
  exact Pattern.closed_of_read_fill hclosed hname hread

/-- A rule fails only where values do not pass, if it is specialised to a name without a hole. -/
theorem error?_specialize {rule : Rule} {kind : ValueKind} {source target : Language}
    {name : String} (hname : Template.cut name.toList = none)
    (hrule : find kind source target = .ok rule) (nullness : Nullness) :
    error? (rule.specialize kind source target nullness name) =
      if rule = .unsupported then some (.unsupported kind source target) else none := by
  cases rule with
  | identity => rfl
  | unsupported => rfl
  | convert plain forNullable =>
      have hmem := mem_allPatterns_of_find hrule (choose_mem_patterns plain forNullable nullness)
      have hreadable := isReadable_of_mem_allPatterns _ hmem
      unfold specialize
      dsimp only
      rw [Pattern.read_fill hreadable fun _ => hname]
      rfl

end Rule

end Interop
