/-
Text that is spliced in reads as if it had been written in place.

Bodies, members and classes are finished one inside the other: each is written from the
outermost depth on, and then spliced into the next one with a block, which cuts it into
lines and moves these to its own depth.  Written in place, the same steps would have
indented every line for both depths at once.

Two things could make a difference.  A step that dedents stops at the outermost depth, so
the steps must never go further out than they started; then a whole run moves to another
depth line by line.  And finishing a text drops the empty lines at its end; but these are
dropped again when the outer text is finished, and an empty line looks the same at every
depth.
-/
import Interop.Proofs.Lines
import Mathlib.Algebra.GroupWithZero.Nat
import Mathlib.Data.List.Induction
import Mathlib.Data.List.Infix

namespace Interop

/-! ### Characters of lines -/

namespace Lines

/-- Pieces are cut out of the text, and the breaks are left out. -/
theorem mem_pieces {text piece : List Char} (h : piece ∈ pieces text) :
    '\n' ∉ piece ∧ piece ⊆ text := by
  fun_induction pieces text generalizing piece with
  | case1 => simp_all
  | case2 rest ih =>
      rcases List.mem_cons.mp h with rfl | hrest
      · simp
      · exact ⟨(ih hrest).1, List.subset_cons_of_subset _ (ih hrest).2⟩
  | case3 first rest hfirst hnil => exact absurd hnil (pieces_ne_nil rest)
  | case4 first rest hfirst next others hpieces ih =>
      rw [hpieces] at ih
      rcases List.mem_cons.mp h with rfl | hothers
      · obtain ⟨hbreak, hsub⟩ := ih List.mem_cons_self
        have hne : '\n' ≠ first := fun heq => hfirst heq.symm
        exact ⟨by simp [hne, hbreak], List.cons_subset_cons _ hsub⟩
      · have hmem := ih (List.mem_cons_of_mem _ hothers)
        exact ⟨hmem.1, List.subset_cons_of_subset _ hmem.2⟩

theorem dropReturn_subset (line : List Char) : dropReturn line ⊆ line := by
  unfold dropReturn
  split
  · exact List.dropLast_subset line
  · exact List.Subset.refl line

/-- A line is one of the pieces, up to its end. -/
theorem exists_piece_of_mem_ofPieces {cut : List (List Char)} {line : List Char}
    (h : line ∈ ofPieces cut) : ∃ piece ∈ cut, line ⊆ piece := by
  fun_induction ofPieces cut with
  | case1 | case2 => cases h
  | case3 last =>
      exact ⟨last, List.mem_cons_self, List.mem_singleton.mp h ▸ List.Subset.refl _⟩
  | case4 first others _ ih =>
      rcases List.mem_cons.mp h with rfl | hothers
      · exact ⟨first, List.mem_cons_self, dropReturn_subset first⟩
      · obtain ⟨piece, hpiece, hsub⟩ := ih hothers
        exact ⟨piece, List.mem_cons_of_mem _ hpiece, hsub⟩

/-- There is no carriage return in the text. -/
def NoReturn (text : String) : Prop := '\r' ∉ text.toList

instance (text : String) : Decidable (NoReturn text) :=
  inferInstanceAs (Decidable ('\r' ∉ text.toList))

/-- What a text without carriage returns is cut into has none either. -/
theorem NoReturn.ofText {text line : String} (h : NoReturn text) (hline : line ∈ ofText text) :
    NoReturn line ∧ OneLine line := by
  obtain ⟨chars, hchars, rfl⟩ := List.mem_map.mp hline
  obtain ⟨piece, hpiece, hsub⟩ := exists_piece_of_mem_ofPieces hchars
  obtain ⟨hbreak, htext⟩ := mem_pieces hpiece
  exact ⟨by simpa [NoReturn] using fun hmem => h (htext (hsub hmem)),
    .ofList fun hmem => hbreak (hsub hmem)⟩

/-- Breaks at the end of a text do not matter to it. -/
theorem dropTrailingBreaks_append_replicate (text : List Char) (count : Nat) :
    dropTrailingBreaks (text ++ List.replicate count '\n') = dropTrailingBreaks text := by
  unfold dropTrailingBreaks
  rw [List.reverse_append, List.reverse_replicate, List.dropWhile_append_of_pos (by simp)]

theorem dropTrailingBreaks_subset (text : List Char) : dropTrailingBreaks text ⊆ text := by
  intro c hc
  have hdrop := (List.dropWhile_suffix _).subset (List.mem_reverse.mp hc)
  exact List.mem_reverse.mp hdrop

end Lines

namespace Listing

/-! ### Empty lines at the end -/

/-- Lines are some lines that do not end with an empty one, and then empty ones. -/
theorem exists_eq_append_blanks (lines : List String) :
    ∃ front blanks, lines = front ++ List.replicate blanks "" ∧ front.getLast? ≠ some "" := by
  induction lines using List.reverseRecOn with
  | nil => exact ⟨[], 0, rfl, nofun⟩
  | append_singleton others last ih =>
      by_cases hlast : last = ""
      · obtain ⟨front, blanks, hothers, hfront⟩ := ih
        refine ⟨front, blanks + 1, ?_, hfront⟩
        rw [hothers, hlast, List.replicate_succ', List.append_assoc]
      · exact ⟨others ++ [last], 0, by simp, by simpa using hlast⟩

/-- Empty lines at the end are not in the text, and neither is the depth reached there. -/
theorem text_append_blanks (depth other blanks : Nat) (front : List String) :
    text ⟨depth, front ++ List.replicate blanks ""⟩ = text ⟨other, front⟩ := by
  have hblanks : (List.replicate blanks "").flatMap (fun line => line.toList ++ ['\n']) =
      List.replicate blanks '\n' := by
    rw [List.flatMap_replicate]
    simp
  rw [text, text, List.flatMap_append, hblanks, Lines.dropTrailingBreaks_append_replicate]

/-! ### Another depth -/

/-- The listing as it stands some depth further in. -/
def shifted (base : Nat) (listing : Listing) : Listing where
  depth := base + listing.depth
  lines := listing.lines.map (indented base)

theorem writeLines_shifted (base : Nat) (listing : Listing) (texts : List String) :
    (listing.shifted base).writeLines texts = (listing.writeLines texts).shifted base := by
  have hdepths : indented base ∘ indented listing.depth = indented (base + listing.depth) :=
    funext (indented_indented base listing.depth)
  simp [shifted, writeLines, List.map_map, hdepths]

/-- A step does the same further in, unless it dedents at the outermost depth. -/
theorem write_shifted {step : Step} {listing : Listing} (base : Nat)
    (h : step = .dedent → 0 < listing.depth) :
    (listing.shifted base).write step = (listing.write step).shifted base := by
  cases step with
  | indent => rfl
  | dedent =>
      have hdepth : base + listing.depth - 1 = base + (listing.depth - 1) := by
        have := h rfl
        omega
      simp [write, shifted, hdepth]
  | blank | line | block | blocks => exact writeLines_shifted base listing _

/-- Steps that have never dedented more often than indented, wherever they are interrupted, up to
so many times. -/
def StaysWithin (above : Nat) (steps : List Step) : Prop :=
  ∀ done, done <+: steps → done.count .dedent ≤ done.count .indent + above

instance (above : Nat) (steps : List Step) : Decidable (StaysWithin above steps) :=
  decidable_of_iff (∀ done ∈ steps.inits, done.count .dedent ≤ done.count .indent + above)
    (by simp [StaysWithin])

theorem StaysWithin.of_not_mem {steps : List Step} (h : .dedent ∉ steps) (above : Nat) :
    StaysWithin above steps := by
  intro done hdone
  have hnone : done.count .dedent = 0 :=
    List.count_eq_zero.mpr fun hmem => h (hdone.subset hmem)
  omega

/-- One step, and what the steps after it may do. -/
theorem staysWithin_cons_iff {step : Step} {rest : List Step} (listing : Listing) :
    StaysWithin listing.depth (step :: rest) ↔
      (step = .dedent → 0 < listing.depth) ∧ StaysWithin (listing.write step).depth rest := by
  have hsplit : StaysWithin listing.depth (step :: rest) ↔ ∀ done, done <+: rest →
      (step :: done).count .dedent ≤ (step :: done).count .indent + listing.depth := by
    constructor
    · intro h done hdone
      exact h (step :: done) (List.cons_prefix_cons.mpr ⟨rfl, hdone⟩)
    · rintro h (_ | ⟨first, done⟩) hdone
      · simp
      · obtain ⟨rfl, hrest⟩ := List.cons_prefix_cons.mp hdone
        exact h done hrest
  rw [hsplit]
  cases step with
  | indent =>
      have hcount (indents dedents : Nat) : dedents ≤ indents + 1 + listing.depth ↔
          dedents ≤ indents + (listing.depth + 1) := by omega
      simp [StaysWithin, write, hcount]
  | dedent =>
      constructor
      · intro h
        have hpos : 1 ≤ listing.depth := by simpa using h [] List.nil_prefix
        refine ⟨fun _ => hpos, fun done hdone => ?_⟩
        have := h done hdone
        simp [write] at this ⊢
        omega
      · rintro ⟨hpos, h⟩ done hdone
        have := hpos rfl
        have := h done hdone
        simp [write] at this ⊢
        omega
  | blank | line | block | blocks => simp [StaysWithin, write, writeLines]

/-- Steps that stay within their depth, followed by steps that stay within the depth reached. -/
theorem StaysWithin.append {first second : List Step} {listing : Listing}
    (h : StaysWithin listing.depth first) (h' : StaysWithin (listing.run first).depth second) :
    StaysWithin listing.depth (first ++ second) := by
  induction first generalizing listing with
  | nil => exact h'
  | cons step rest ih =>
      obtain ⟨hstep, hrest⟩ := (staysWithin_cons_iff listing).mp h
      exact (staysWithin_cons_iff listing).mpr ⟨hstep, ih hrest h'⟩

theorem StaysWithin.mono {above more : Nat} {steps : List Step} (h : StaysWithin above steps)
    (hle : above ≤ more) : StaysWithin more steps :=
  fun done hdone => (h done hdone).trans (by omega)

/-- **A run does the same further in,** if it never goes further out than it started. -/
theorem run_shifted {steps : List Step} {listing : Listing} (base : Nat)
    (h : StaysWithin listing.depth steps) :
    (listing.shifted base).run steps = (listing.run steps).shifted base := by
  induction steps generalizing listing with
  | nil => rfl
  | cons step rest ih =>
      obtain ⟨hstep, hrest⟩ := (staysWithin_cons_iff listing).mp h
      rw [run_cons, write_shifted base hstep, ih hrest, run_cons]

/-! ### What steps write -/

/-- A line without breaks and without carriage returns. -/
def PlainLine (line : String) : Prop := Lines.NoReturn line ∧ OneLine line

instance (line : String) : Decidable (PlainLine line) :=
  inferInstanceAs (Decidable (Lines.NoReturn line ∧ OneLine line))

theorem plainLine_empty : PlainLine "" := by decide

theorem PlainLine.whole {line : String} (h : PlainLine line) : Lines.Whole line :=
  ⟨h.2, fun hlast => h.1 (List.mem_of_getLast? hlast)⟩

theorem PlainLine.indented {line : String} (h : PlainLine line) (depth : Nat) :
    PlainLine (indented depth line) := by
  unfold Listing.indented
  split
  · exact plainLine_empty
  · obtain ⟨hreturn, hbreak⟩ := h
    simp_all [PlainLine, Lines.NoReturn, OneLine]

/-- A step that writes plain lines: no text has a carriage return, and what is written as one line
is one. -/
def Step.Plain : Step → Prop
  | .indent | .dedent | .blank => True
  | .line text => PlainLine text
  | .block text => Lines.NoReturn text
  | .blocks texts => ∀ text ∈ texts, Lines.NoReturn text

instance : DecidablePred Step.Plain
  | .indent | .dedent | .blank => isTrue trivial
  | .line text => inferInstanceAs (Decidable (PlainLine text))
  | .block text => inferInstanceAs (Decidable (Lines.NoReturn text))
  | .blocks texts => inferInstanceAs (Decidable (∀ text ∈ texts, Lines.NoReturn text))

theorem mem_blockLines {texts : List String} {line : String} (h : line ∈ blockLines texts) :
    line = "" ∨ ∃ text ∈ texts, line ∈ Lines.ofText text := by
  unfold blockLines at h
  induction texts with
  | nil => cases h
  | cons first rest ih =>
      cases rest with
      | nil =>
          rw [List.map_singleton, List.intercalate_singleton] at h
          exact .inr ⟨first, List.mem_cons_self, h⟩
      | cons next others =>
          rw [List.map_cons, List.map_cons, List.intercalate_cons_cons, List.append_assoc] at h
          rcases List.mem_append.mp h with hfirst | hlater
          · exact .inr ⟨first, List.mem_cons_self, hfirst⟩
          · rcases List.mem_cons.mp hlater with rfl | hrest
            · exact .inl rfl
            · rcases ih hrest with rfl | ⟨text, htext, hline⟩
              · exact .inl rfl
              · exact .inr ⟨text, List.mem_cons_of_mem _ htext, hline⟩

theorem Step.Plain.lines {step : Step} (h : step.Plain) : ∀ line ∈ step.lines, PlainLine line := by
  intro line hline
  cases step with
  | indent | dedent => cases hline
  | blank => exact List.mem_singleton.mp hline ▸ plainLine_empty
  | line text => exact List.mem_singleton.mp hline ▸ h
  | block text => exact Lines.NoReturn.ofText h hline
  | blocks texts =>
      rcases mem_blockLines hline with rfl | ⟨text, htext, hmem⟩
      · exact plainLine_empty
      · exact (h text htext).ofText hmem

theorem lines_write (listing : Listing) (step : Step) :
    (listing.write step).lines = listing.lines ++ step.lines.map (indented listing.depth) := by
  cases step <;> simp [write, writeLines, Step.lines]

/-- Plain steps write plain lines. -/
theorem plainLine_run {steps : List Step} (h : ∀ step ∈ steps, step.Plain) {listing : Listing}
    (hlines : ∀ line ∈ listing.lines, PlainLine line) :
    ∀ line ∈ (listing.run steps).lines, PlainLine line := by
  induction steps generalizing listing with
  | nil => exact hlines
  | cons step rest ih =>
      refine ih (fun other hother => h other (List.mem_cons_of_mem _ hother)) ?_
      intro line hline
      rw [lines_write] at hline
      rcases List.mem_append.mp hline with hbefore | hwritten
      · exact hlines line hbefore
      · obtain ⟨text, htext, rfl⟩ := List.mem_map.mp hwritten
        exact ((h step List.mem_cons_self).lines text htext).indented _

/-! ### Splicing -/

/-- What is cut out of a finished text are the lines that were written, up to empty ones at the
end. -/
theorem exists_ofText_text {listing : Listing} (h : ∀ line ∈ listing.lines, PlainLine line) :
    ∃ blanks, listing.lines = Lines.ofText listing.text ++ List.replicate blanks "" := by
  obtain ⟨front, blanks, hlines, hlast⟩ := exists_eq_append_blanks listing.lines
  have htext : listing.text = text ⟨0, front⟩ := by
    rw [← text_append_blanks listing.depth 0 blanks front, ← hlines]
  have hwhole : ∀ line ∈ front, Lines.Whole line := by
    intro line hline
    exact (h line (hlines ▸ List.mem_append_left _ hline)).whole
  have hcut : Lines.ofText (text ⟨0, front⟩) = front := ofText_text hwhole hlast
  exact ⟨blanks, by rw [htext, hcut, hlines]⟩

section

variable {steps : List Step} (hplain : ∀ step ∈ steps, step.Plain)

include hplain

theorem exists_lines_run_eq :
    ∃ blanks, (run {} steps).lines =
      Lines.ofText (listingText steps) ++ List.replicate blanks "" :=
  exists_ofText_text (plainLine_run hplain (by simp))

/-- A finished text has no carriage returns either. -/
theorem noReturn_listingText : Lines.NoReturn (listingText steps) := by
  intro hreturn
  have hmem := Lines.dropTrailingBreaks_subset _ (by simpa [listingText, text] using hreturn)
  obtain ⟨line, hline, hin⟩ := List.mem_flatMap.mp hmem
  have hstart : ∀ line ∈ Listing.lines {}, PlainLine line := List.forall_mem_nil _
  have hreturns : '\r' ∉ line.toList := (plainLine_run hplain hstart line hline).1
  simp [hreturns] at hin

end

theorem run_replicate_indent (depth : Nat) (listing : Listing) :
    listing.run (List.replicate depth .indent) =
      { listing with depth := listing.depth + depth } := by
  induction depth generalizing listing with
  | zero => rfl
  | succ depth ih =>
      rw [List.replicate_succ, run_cons, ih]
      simp [write, Nat.add_assoc, Nat.add_comm 1 depth]

/-- What was written before has no part in a run. -/
theorem run_append_lines (steps : List Step) (depth : Nat) (before lines : List String) :
    run ⟨depth, before ++ lines⟩ steps =
      ⟨(run ⟨depth, lines⟩ steps).depth, before ++ (run ⟨depth, lines⟩ steps).lines⟩ := by
  induction steps generalizing depth lines with
  | nil => rfl
  | cons step rest ih =>
      have hwrite : write ⟨depth, before ++ lines⟩ step =
          ⟨(write ⟨depth, lines⟩ step).depth, before ++ (write ⟨depth, lines⟩ step).lines⟩ := by
        cases step <;> simp [write, writeLines]
      rw [run_cons, hwrite, ih, run_cons]

/-- Steps further in do what they do at the outermost depth, further in. -/
theorem run_indents_append {steps : List Step} (hstays : StaysWithin 0 steps) (depth : Nat) :
    run {} (List.replicate depth .indent ++ steps) = (run {} steps).shifted depth := by
  have hstart : run {} (List.replicate depth .indent) = shifted depth {} := by
    rw [run_replicate_indent]
    simp [shifted]
  rw [run_append, hstart, run_shifted depth hstays]

section

variable {steps : List Step} (hplain : ∀ step ∈ steps, step.Plain)
  (hstays : StaysWithin 0 steps)

include hplain hstays

/-- Steps write at a depth what splicing their text in writes there. -/
theorem text_run_indents_block (depth : Nat) :
    (run {} (List.replicate depth .indent ++ steps)).text =
      (run {} (List.replicate depth .indent ++ [.block (listingText steps)])).text := by
  have hblock : StaysWithin 0 [.block (listingText steps)] := .of_not_mem (by simp) 0
  obtain ⟨blanks, hlines⟩ := exists_lines_run_eq hplain
  have hempty : indented depth "" = "" := rfl
  rw [run_indents_append hstays, run_indents_append hblock, shifted, hlines, List.map_append,
    List.map_replicate, hempty, text_append_blanks _ (depth + 0)]
  simp [shifted, write, writeLines, indented_zero]

end

/-- A text that is finished and spliced in at one depth, and the whole again at the next. -/
def nested : List Nat → List Step → String
  | [], steps => listingText steps
  | depth :: outer, steps =>
    nested outer (List.replicate depth .indent ++ [.block (listingText steps)])

/-- However deep a text is nested, only the sum of the depths shows. -/
theorem nested_eq {steps : List Step} (hplain : ∀ step ∈ steps, step.Plain)
    (hstays : StaysWithin 0 steps) (depths : List Nat) :
    nested depths steps = (run {} (List.replicate depths.sum .indent ++ steps)).text := by
  induction depths generalizing steps with
  | nil => rfl
  | cons depth outer ih =>
      have hspliced : ∀ step ∈ List.replicate depth Step.indent ++ [.block (listingText steps)],
          step.Plain := by
        intro step hstep
        rcases List.mem_append.mp hstep with hindent | hblock
        · exact List.eq_of_mem_replicate hindent ▸ trivial
        · exact List.mem_singleton.mp hblock ▸ noReturn_listingText hplain
      rw [nested, ih hspliced (.of_not_mem (by simp) 0), ← List.append_assoc,
        ← List.replicate_add, ← text_run_indents_block hplain hstays, List.sum_cons, Nat.add_comm]

/-! ### Functions in classes -/

/-- One member has no other next to it. -/
theorem listingText_oneMember (header member : String) :
    listingText [.line header, .indent, .blocks [member], .dedent, .line "\x7d"] =
      listingText (braced [header] [.block member]) := by
  have hwrite (listing : Listing) :
      listing.write (.blocks [member]) = listing.write (.block member) := by
    simp [write, blockLines]
  simp only [listingText, braced, run_cons, hwrite, List.map_cons, List.map_nil, List.cons_append,
    List.nil_append]

/-- Steps whose text can be spliced in anywhere: they end at the depth where they started, and with
a line that is not empty. -/
structure Spliceable (steps : List Step) : Prop where
  plain : ∀ step ∈ steps, step.Plain
  stays : StaysWithin 0 steps
  depth : (run {} steps).depth = 0
  last : (run {} steps).lines.getLast? ≠ some ""

namespace Spliceable

variable {steps : List Step}

/-- Where steps are carried out has no part in the lines they add. -/
theorem run_eq (h : Spliceable steps) (listing : Listing) :
    listing.run steps =
      ⟨listing.depth, listing.lines ++ (run {} steps).lines.map (indented listing.depth)⟩ := by
  have hstart : (⟨listing.depth, []⟩ : Listing) = shifted listing.depth {} := by simp [shifted]
  have hrun := run_append_lines steps listing.depth listing.lines []
  rw [List.append_nil, hstart, run_shifted listing.depth h.stays] at hrun
  rw [hrun]
  simp [shifted, h.depth]

/-- Splicing their text in leaves a listing as writing them does. -/
theorem run_block (h : Spliceable steps) (listing : Listing) :
    listing.run [.block (listingText steps)] = listing.run steps := by
  obtain ⟨blanks, hlines⟩ := exists_lines_run_eq h.plain
  have hwritten : (run {} steps).lines = Lines.ofText (listingText steps) := by
    cases blanks with
    | zero => simpa using hlines
    | succ blanks =>
        have hlast := h.last
        rw [hlines, List.replicate_succ', ← List.append_assoc, List.getLast?_concat] at hlast
        exact absurd rfl hlast
  rw [h.run_eq, hwritten]
  rfl

theorem listingText_block (h : Spliceable steps) (before after : List Step) :
    listingText (before ++ [.block (listingText steps)] ++ after) =
      listingText (before ++ steps ++ after) := by
  have hrun : run {} (before ++ [.block (listingText steps)] ++ after) =
      run {} (before ++ steps ++ after) := by
    simp only [run_append, h.run_block]
  exact congrArg text hrun

/-- What braces around such steps write. -/
theorem run_braced (h : Spliceable steps) (opening : List String) :
    run {} (opening.map Step.line ++ [.indent] ++ steps) =
        ⟨1, opening ++ (run {} steps).lines.map (indented 1)⟩ ∧
      run {} (braced opening steps) =
        ⟨0, opening ++ (run {} steps).lines.map (indented 1) ++ ["\x7d"]⟩ := by
  have hlevel : ∀ step ∈ opening.map Step.line, step.Level := by
    intro step hstep
    obtain ⟨line, -, rfl⟩ := List.mem_map.mp hstep
    exact ⟨nofun, nofun⟩
  have hopening : run {} (opening.map Step.line) = ⟨0, opening⟩ := by
    rw [run_level hlevel]
    simp [writeLines, indented_zero, List.flatMap_map, Step.lines]
  have hinner : run {} (opening.map Step.line ++ [.indent] ++ steps) =
      ⟨1, opening ++ (run {} steps).lines.map (indented 1)⟩ := by
    rw [run_append, run_append, hopening, h.run_eq]
    rfl
  refine ⟨hinner, ?_⟩
  rw [braced, run_append, hinner]
  simp [write, writeLines, indented_zero]

/-- Braces around such steps make such steps again. -/
theorem braced (h : Spliceable steps) {opening : List String}
    (hopening : ∀ line ∈ opening, PlainLine line) : Spliceable (braced opening steps) := by
  obtain ⟨hinner, hwhole⟩ := h.run_braced opening
  have hbrace : PlainLine "\x7d" := by decide
  have hplain : ∀ step ∈ Listing.braced opening steps, step.Plain := by
    simp only [Listing.braced, List.forall_mem_append, List.forall_mem_cons, List.forall_mem_map]
    exact ⟨⟨⟨hopening, trivial, by simp⟩, h.plain⟩, trivial, hbrace, by simp⟩
  have hstays : StaysWithin (Listing.depth {}) (Listing.braced opening steps) := by
    refine .append (.append (.append ?_ ?_) ?_) ?_
    · exact .of_not_mem (by simp) _
    · exact .of_not_mem (by simp) _
    · exact h.stays.mono (Nat.zero_le _)
    · rw [hinner]
      exact (by decide : StaysWithin 1 [.dedent, .line "\x7d"])
  refine ⟨hplain, hstays, by rw [hwhole], ?_⟩
  rw [hwhole, List.getLast?_concat]
  decide

end Spliceable

end Listing

namespace Host

open Listing

/-- The first line of a class. -/
def classHeader : Host → ClassDeclaration → String
  | .kotlin => Kotlin.classHeader
  | .swift => Swift.classHeader

/-- A function around a finished body is its first lines with the body written in place. -/
theorem functionText_listingText (host : Host) (decl : FunctionDeclaration) {steps : List Step}
    (h : Spliceable steps) : host.functionText { decl with body := listingText steps } =
      listingText (braced (host.functionOpening decl) steps) := by
  rw [functionText_eq, functionOpening_withBody]
  exact h.listingText_block _ _

/-- A class around one finished member is its first line with the member written in place. -/
theorem classText_listingText (host : Host) (decl : ClassDeclaration) {steps : List Step}
    (h : Spliceable steps) : host.classText { decl with members := [listingText steps] } =
      listingText (braced [host.classHeader decl] steps) := by
  have hclass : host.classText { decl with members := [listingText steps] } =
      listingText (braced [host.classHeader decl] [.block (listingText steps)]) := by
    cases host with
    | kotlin => exact listingText_oneMember (Kotlin.classHeader decl) _
    | swift => exact listingText_oneMember (Swift.classHeader decl) _
  rw [hclass]
  exact h.listingText_block _ _

end Host

open Listing

/--
**Splicing text in is writing it in place.**  Take any steps without carriage returns and
without breaks inside a line that never go further out than they started.  Carried out at
any depth they come to the same text as their finished text that is spliced in there.  So
however often it is spliced in, only the sum of the depths shows.  And if they end where
they started and with a line that is not empty, a class with a function with their text
for a body is the same as if all of it had been written in place.
-/
theorem nested_in_place {steps : List Step} (hplain : ∀ step ∈ steps, step.Plain)
    (hstays : StaysWithin 0 steps) :
    (∀ depth, (Listing.run {} (List.replicate depth .indent ++ steps)).text =
      (Listing.run {} (List.replicate depth .indent ++ [.block (listingText steps)])).text) ∧
    (∀ depths, nested depths steps =
      (Listing.run {} (List.replicate depths.sum .indent ++ steps)).text) ∧
    ∀ (host : Host) (outer : ClassDeclaration) (inner : FunctionDeclaration),
      (∀ line ∈ host.functionOpening inner, PlainLine line) →
      (Listing.run {} steps).depth = 0 → (Listing.run {} steps).lines.getLast? ≠ some "" →
      host.classText { outer with
          members := [host.functionText { inner with body := listingText steps }] } =
        listingText (braced [host.classHeader outer]
          (braced (host.functionOpening inner) steps)) := by
  refine ⟨text_run_indents_block hplain hstays, nested_eq hplain hstays, ?_⟩
  intro host outer inner hopening hdepth hlast
  have hbody : Spliceable steps := ⟨hplain, hstays, hdepth, hlast⟩
  rw [host.functionText_listingText inner hbody,
    host.classText_listingText outer (hbody.braced hopening)]

/-- A body with a blank line, a brace and a text of several lines in it. -/
def attempting : List Step :=
  [.blank, .line "if (ready) \x7b", .indent, .block "first()\n\n  second()\n", .dedent,
    .line "\x7d", .blocks ["a", "b"]]

/-- The same body with blank lines at its end. -/
def retrying : List Step :=
  attempting ++ [.blank, .blank]

/-- A function that can have the first one for its body. -/
def attemptFunction : FunctionDeclaration where
  name := "attempt"
  throws := true
  params := ["at: Int"]
  body := ""

/-- Blank lines and nested lines come out alike, whether the text is spliced in or not, and so does
a class with the function. -/
theorem retrying_in_place :
    (Listing.run {} (List.replicate 2 .indent ++ retrying)).text =
        (Listing.run {} (List.replicate 2 .indent ++ [.block (listingText retrying)])).text ∧
      nested [1, 1] retrying = (Listing.run {} (List.replicate 2 .indent ++ retrying)).text ∧
      ∀ host : Host, host.classText { name := "Task", members := [
          host.functionText { attemptFunction with body := listingText attempting }] } =
        listingText (braced [host.classHeader { name := "Task" }]
          (braced (host.functionOpening attemptFunction) attempting)) := by
  obtain ⟨hspliced, hnested, -⟩ :=
    nested_in_place (by decide : ∀ step ∈ retrying, step.Plain) (by decide)
  obtain ⟨-, -, hfunction⟩ :=
    nested_in_place (by decide : ∀ step ∈ attempting, step.Plain) (by decide)
  refine ⟨hspliced 2, hnested [1, 1], fun host => ?_⟩
  refine hfunction host { name := "Task" } attemptFunction ?_ (by decide) (by decide)
  cases host <;> decide

end Interop
