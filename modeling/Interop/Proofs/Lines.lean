/-
The lines of a finished text are the lines that were written.

A finished text is cut into lines again wherever it is spliced into another one, so
the lines of a listing have to survive being joined and cut.  A line does if it has
no break of its own and does not end in a carriage return, which cutting would drop;
and the last line must not be empty, since breaks at the end of a text are dropped.
Then cutting undoes joining, and text that is spliced in moves to its depth line by
line.
-/
import Interop.Host.Phrasing
import Mathlib.Data.List.Basic

namespace Interop

/-- A list of texts has the characters of its texts and of what stands between them. -/
theorem mem_toList_intercalate {separator : String} {texts : List String} {c : Char}
    (h : c ∈ (separator.intercalate texts).toList) :
    c ∈ separator.toList ∨ ∃ text ∈ texts, c ∈ text.toList := by
  induction texts with
  | nil => cases h
  | cons first rest ih =>
      cases rest with
      | nil =>
          rw [String.intercalate_singleton] at h
          exact .inr ⟨first, List.mem_cons_self, h⟩
      | cons next others =>
          rw [String.intercalate_cons_of_ne_nil (List.cons_ne_nil _ _), String.toList_append,
            String.toList_append, List.mem_append, List.mem_append] at h
          rcases h with (hfirst | hseparator) | hrest
          · exact .inr ⟨first, List.mem_cons_self, hfirst⟩
          · exact .inl hseparator
          · rcases ih hrest with hseparator | ⟨text, htext, hmem⟩
            · exact .inl hseparator
            · exact .inr ⟨text, List.mem_cons_of_mem _ htext, hmem⟩

/-! ### Text on one line -/

/-- There is no line break in the text. -/
def OneLine (text : String) : Prop := '\n' ∉ text.toList

instance (text : String) : Decidable (OneLine text) :=
  inferInstanceAs (Decidable ('\n' ∉ text.toList))

namespace OneLine

/-- A literal is a list of characters, and looking at these is less work than looking at its
encoding. -/
theorem ofList {chars : List Char} (h : '\n' ∉ chars) : OneLine (String.ofList chars) := by
  rwa [OneLine, String.toList_ofList]

theorem append {first second : String} (h : OneLine first) (h' : OneLine second) :
    OneLine (first ++ second) := by
  unfold OneLine at *
  simp [h, h']

theorem intercalate {separator : String} {texts : List String} (hseparator : OneLine separator)
    (h : ∀ text ∈ texts, OneLine text) : OneLine (separator.intercalate texts) := by
  intro hmem
  rcases mem_toList_intercalate hmem with hin | ⟨text, htext, hin⟩
  · exact hseparator hin
  · exact h text htext hin

end OneLine

namespace Lines

/-- A line that cutting a text gives back. -/
structure Whole (line : String) : Prop where
  oneLine : OneLine line
  /-- A carriage return at the end would be taken for a part of the break. -/
  ending : line.toList.getLast? ≠ some '\r'

instance (line : String) : Decidable (Whole line) :=
  decidable_of_iff (OneLine line ∧ line.toList.getLast? ≠ some '\r')
    ⟨fun h => ⟨h.1, h.2⟩, fun h => ⟨h.1, h.2⟩⟩

theorem whole_empty : Whole "" := by decide

theorem Whole.ofList {chars : List Char} (h : '\n' ∉ chars ∧ chars.getLast? ≠ some '\r') :
    Whole (String.ofList chars) := by
  refine ⟨.ofList h.1, ?_⟩
  rw [String.toList_ofList]
  exact h.2

/-- A whole line with something on it. -/
structure Full (line : String) : Prop extends Whole line where
  ne_empty : line ≠ ""

instance (line : String) : Decidable (Full line) :=
  decidable_of_iff (Whole line ∧ line ≠ "") ⟨fun h => ⟨h.1, h.2⟩, fun h => ⟨h.1, h.2⟩⟩

theorem Full.ofList {chars : List Char}
    (h : ('\n' ∉ chars ∧ chars.getLast? ≠ some '\r') ∧ chars ≠ []) :
    Full (String.ofList chars) :=
  ⟨.ofList h.1, by simpa using h.2⟩

/-- The end of a line decides about carriage returns. -/
theorem Full.append {line ending : String} (hline : OneLine line) (h : Full ending) :
    Full (line ++ ending) := by
  have hnil : ending.toList ≠ [] := by simpa using h.ne_empty
  obtain ⟨last, hlast⟩ : ∃ last, ending.toList.getLast? = some last :=
    ⟨_, List.getLast?_eq_some_getLast hnil⟩
  refine ⟨⟨hline.append h.oneLine, ?_⟩, ?_⟩
  · rw [String.toList_append, List.getLast?_append, hlast, Option.some_or, ← hlast]
    exact h.ending
  · simp [h.ne_empty]

/-! ### Cutting -/

theorem pieces_of_unbroken {line : List Char} (h : '\n' ∉ line) : pieces line = [line] := by
  induction line with
  | nil => rfl
  | cons first rest ih =>
      have hfirst : first ≠ '\n' := fun heq => h (heq ▸ List.mem_cons_self)
      rw [pieces.eq_3 _ _ (by simpa using hfirst), ih fun hmem => h (List.mem_cons_of_mem _ hmem)]

/-- A text is cut at its first break. -/
theorem pieces_append_break {line : List Char} (h : '\n' ∉ line) (rest : List Char) :
    pieces (line ++ '\n' :: rest) = line :: pieces rest := by
  induction line with
  | nil => rfl
  | cons first others ih =>
      have hfirst : first ≠ '\n' := fun heq => h (heq ▸ List.mem_cons_self)
      rw [List.cons_append, pieces.eq_3 _ _ (by simpa using hfirst),
        ih fun hmem => h (List.mem_cons_of_mem _ hmem)]

theorem pieces_ne_nil (text : List Char) : pieces text ≠ [] := by
  fun_induction pieces text <;> simp_all

theorem ofPieces_cons {piece : List Char} {others : List (List Char)} (h : others ≠ []) :
    ofPieces (piece :: others) = dropReturn piece :: ofPieces others := by
  cases others with
  | nil => exact absurd rfl h
  | cons next rest => rfl

theorem dropReturn_of_whole {line : String} (h : Whole line) : dropReturn line.toList = line.toList :=
  if_neg h.ending

/-- Whole lines that were joined are cut apart again, up to a last one that is not empty. -/
theorem ofPieces_pieces {lines : List String} {last : String}
    (hlines : ∀ line ∈ lines, Whole line) (hlast : '\n' ∉ last.toList) (hne : last ≠ "") :
    ofPieces (pieces ((lines.flatMap fun line => line.toList ++ ['\n']) ++ last.toList)) =
      (lines ++ [last]).map String.toList := by
  induction lines with
  | nil =>
      have hfull : last.toList.isEmpty = false := by simpa using hne
      simp [pieces_of_unbroken hlast, ofPieces, hfull]
  | cons first rest ih =>
      have hfirst := hlines first List.mem_cons_self
      have hjoined : ((first :: rest).flatMap fun line => line.toList ++ ['\n']) ++ last.toList =
          first.toList ++
            '\n' :: ((rest.flatMap fun line => line.toList ++ ['\n']) ++ last.toList) := by
        simp
      rw [hjoined, pieces_append_break hfirst.oneLine, ofPieces_cons (pieces_ne_nil _),
        dropReturn_of_whole hfirst, ih fun line hline => hlines line (List.mem_cons_of_mem _ hline)]
      rfl

/-- A line with something on it is a text of one line. -/
theorem Full.ofText_eq {line : String} (h : Full line) : ofText line = [line] := by
  have hfull : line.toList.isEmpty = false := by simpa using h.ne_empty
  simp [ofText, pieces_of_unbroken h.oneLine, ofPieces, hfull]

/-- Nothing but the break behind the last line is dropped at the end of a text. -/
theorem dropTrailingBreaks_append {text last : List Char} (hlast : '\n' ∉ last)
    (hne : last ≠ []) : dropTrailingBreaks (text ++ (last ++ ['\n'])) = text ++ last := by
  cases hreverse : last.reverse with
  | nil => exact absurd (List.reverse_eq_nil_iff.mp hreverse) hne
  | cons final rest =>
      have hfinal : final ≠ '\n' := by
        rintro rfl
        exact hlast (List.mem_reverse.mp (hreverse ▸ List.mem_cons_self))
      have hall : (text ++ (last ++ ['\n'])).reverse.dropWhile (· == '\n') =
          last.reverse ++ text.reverse := by
        simp [hreverse, hfinal]
      rw [dropTrailingBreaks, hall, ← List.reverse_append, List.reverse_reverse]

end Lines

namespace Listing

/-! ### Finished listings -/

/-- **Cutting a finished text gives the lines that were written,** if all of them are whole and the
last one is not empty. -/
theorem ofText_text {listing : Listing} (hwhole : ∀ line ∈ listing.lines, Lines.Whole line)
    (hlast : listing.lines.getLast? ≠ some "") : Lines.ofText listing.text = listing.lines := by
  rcases List.eq_nil_or_concat listing.lines with hnil | ⟨lines, last, hlines⟩
  · rw [text, hnil]
    rfl
  · rw [List.concat_eq_append] at hlines
    rw [hlines, List.getLast?_concat, ne_eq, Option.some_inj] at hlast
    have hunbroken := (hwhole last (by simp [hlines])).oneLine
    have htext : listing.text.toList =
        (lines.flatMap fun line => line.toList ++ ['\n']) ++ last.toList := by
      rw [text, String.toList_ofList, hlines, List.flatMap_append, List.flatMap_singleton,
        Lines.dropTrailingBreaks_append hunbroken (by simpa using hlast)]
    rw [Lines.ofText, htext, Lines.ofPieces_pieces (fun line hline => hwhole line (by
      rw [hlines]; exact List.mem_append_left _ hline)) hunbroken hlast, hlines, List.map_map]
    simp

theorem indented_zero : indented 0 = id := by
  funext line
  unfold indented
  split
  · rename_i h
    exact (String.isEmpty_iff.mp h).symm
  · simp

/-- Depths add up. -/
theorem indented_indented (outer inner : Nat) (line : String) :
    indented outer (indented inner line) = indented (outer + inner) line := by
  by_cases hline : line = ""
  · simp [indented, hline]
  · have hblanks : List.replicate (4 * outer) ' ' ++ List.replicate (4 * inner) ' ' =
        List.replicate (4 * (outer + inner)) ' ' := by
      rw [← List.replicate_add, Nat.mul_add]
    simp only [indented, String.isEmpty_iff, hline, if_false, String.append_eq_empty_iff, and_false]
    rw [← String.append_assoc, ← String.ofList_append, hblanks]

theorem whole_indented {line : String} (h : Lines.Whole line) (depth : Nat) :
    Lines.Whole (indented depth line) := by
  unfold indented
  split
  · exact Lines.whole_empty
  · rename_i hne
    have hfull : Lines.Full line := ⟨h, by simpa using hne⟩
    refine (Lines.Full.append ?_ hfull).toWhole
    simp [OneLine]

/-! ### Steps that stay at one depth -/

/-- The lines that a step writes, before they are indented. -/
def Step.lines : Step → List String
  | .indent | .dedent => []
  | .blank => [""]
  | .line text => [text]
  | .block text => Lines.ofText text
  | .blocks texts => blockLines texts

/-- The step writes lines, if it does anything. -/
def Step.Level (step : Step) : Prop := step ≠ .indent ∧ step ≠ .dedent

theorem write_level {step : Step} (h : step.Level) (listing : Listing) :
    listing.write step = listing.writeLines step.lines := by
  cases step with
  | indent => exact absurd rfl h.1
  | dedent => exact absurd rfl h.2
  | blank | line | block | blocks => rfl

/-- Steps that stay at one depth write their lines there. -/
theorem run_level {steps : List Step} (h : ∀ step ∈ steps, step.Level) (listing : Listing) :
    listing.run steps = listing.writeLines (steps.flatMap Step.lines) := by
  induction steps generalizing listing with
  | nil => simp [writeLines]
  | cons first rest ih =>
      rw [run_cons, write_level (h first List.mem_cons_self),
        ih fun step hstep => h step (List.mem_cons_of_mem _ hstep)]
      simp [writeLines]

/-- The lines of steps that stay at one depth. -/
theorem ofText_listingText {steps : List Step} (hlevel : ∀ step ∈ steps, step.Level)
    (hwhole : ∀ line ∈ steps.flatMap Step.lines, Lines.Whole line)
    (hlast : (steps.flatMap Step.lines).getLast? ≠ some "") :
    Lines.ofText (listingText steps) = steps.flatMap Step.lines := by
  have hlines : (run {} steps).lines = steps.flatMap Step.lines := by
    rw [run_level hlevel]
    simp [writeLines, indented_zero]
  rw [listingText, ofText_text (hlines ▸ hwhole) (hlines ▸ hlast), hlines]

/-! ### Braces -/

/-- Lines with steps a depth further in, and a brace that closes them. -/
def braced (opening : List String) (inner : List Step) : List Step :=
  opening.map Step.line ++ [Step.indent] ++ inner ++ [Step.dedent, Step.line "\x7d"]

/-- The lines inside the braces are a depth further in. -/
theorem ofText_braced {opening : List String} {inner : List Step}
    (hlevel : ∀ step ∈ inner, step.Level) (hopening : ∀ line ∈ opening, Lines.Whole line)
    (hinner : ∀ line ∈ inner.flatMap Step.lines, Lines.Whole line) :
    Lines.ofText (listingText (braced opening inner)) =
      opening ++ (inner.flatMap Step.lines).map (indented 1) ++ ["\x7d"] := by
  have houter : ∀ step ∈ opening.map Step.line, step.Level := by
    intro step hstep
    obtain ⟨line, -, rfl⟩ := List.mem_map.mp hstep
    exact ⟨nofun, nofun⟩
  have hlines : (run {} (braced opening inner)).lines =
      opening ++ (inner.flatMap Step.lines).map (indented 1) ++ ["\x7d"] := by
    have hindented : (writeLines {} opening).run [.indent] = ⟨1, opening⟩ := by
      simp [write, writeLines, indented_zero]
    have hopened : (opening.map Step.line).flatMap Step.lines = opening := by
      simp [List.flatMap_map, Step.lines]
    rw [braced, run_append, run_append, run_append, run_level houter, hopened, hindented,
      run_level hlevel]
    simp [write, writeLines, indented_zero]
  have hclosing : Lines.Whole "\x7d" := by decide
  rw [listingText, ofText_text, hlines]
  · intro line hline
    rw [hlines, List.mem_append, List.mem_append, List.mem_singleton] at hline
    rcases hline with (hline | hline) | rfl
    · exact hopening line hline
    · obtain ⟨written, hwritten, rfl⟩ := List.mem_map.mp hline
      exact whole_indented (hinner written hwritten) 1
    · exact hclosing
  · rw [hlines, List.getLast?_concat]
    decide

end Listing

/-! ### What lines start with -/

namespace Lines

/-- The line starts with a text, behind its blanks. -/
def OpensWith (opening line : String) : Prop :=
  opening.toList <+: line.toList.dropWhile (· == ' ')

instance (opening line : String) : Decidable (OpensWith opening line) :=
  inferInstanceAs (Decidable (opening.toList <+: line.toList.dropWhile (· == ' ')))

/-- The two texts differ before either of them ends, and the second has no blank at its front. -/
def Apart (opening start : String) : Prop :=
  start.toList.head?.any (· != ' ') = true ∧
    (opening.toList.zip start.toList).any (fun (a, b) => a != b) = true

instance (opening start : String) : Decidable (Apart opening start) :=
  inferInstanceAs (Decidable (_ ∧ _))

theorem opensWith_ofList {opening line : List Char} :
    OpensWith (String.ofList opening) (String.ofList line) ↔
      opening <+: line.dropWhile (· == ' ') := by
  rw [OpensWith, String.toList_ofList, String.toList_ofList]

/-- What differs from a text at some place does not start with it. -/
theorem not_isPrefix_of_any_ne {opening start : List Char} (rest : List Char)
    (h : (opening.zip start).any (fun (a, b) => a != b) = true) :
    ¬opening <+: start ++ rest := by
  induction opening generalizing start with
  | nil => simp at h
  | cons first others ih =>
      cases start with
      | nil => simp at h
      | cons first' others' =>
          rw [List.cons_append, List.cons_prefix_cons]
          rintro ⟨rfl, hprefix⟩
          exact ih (by simpa using h) hprefix

/-- A blank at the front of a line is not looked at. -/
theorem dropWhile_append_of_head? {start : List Char} (rest : List Char)
    (h : start.head?.any (· != ' ') = true) :
    (start ++ rest).dropWhile (· == ' ') = start ++ rest := by
  cases start with
  | nil => cases h
  | cons first others =>
      have hfirst : (first == ' ') = false := by simpa using h
      rw [List.cons_append, List.dropWhile_cons_of_neg (by simp [hfirst])]

/-- What a line starts with decides, whatever follows. -/
theorem Apart.not_opensWith {opening start : String} (h : Apart opening start) (rest : String) :
    ¬OpensWith opening (start ++ rest) := by
  rw [OpensWith, String.toList_append, dropWhile_append_of_head? _ h.1]
  exact not_isPrefix_of_any_ne _ h.2

theorem opensWith_indented {opening line : String} (depth : Nat) :
    OpensWith opening (Listing.indented depth line) ↔ OpensWith opening line := by
  have hblanks : ∀ text : List Char, (List.replicate (4 * depth) ' ' ++ text).dropWhile (· == ' ') =
      text.dropWhile (· == ' ') := by
    intro text
    rw [List.dropWhile_append_of_pos (by simp)]
  unfold Listing.indented
  split
  · rename_i hempty
    rw [String.isEmpty_iff.mp hempty]
  · rw [OpensWith, String.toList_append, String.toList_ofList, hblanks, OpensWith]

/-- Where lines stand has no part in what they start with. -/
theorem filter_opensWith_indented (opening : String) (depth : Nat) (lines : List String) :
    (lines.map (Listing.indented depth)).filter (OpensWith opening ·) =
      (lines.filter (OpensWith opening ·)).map (Listing.indented depth) := by
  rw [List.filter_map]
  refine congrArg (List.map (Listing.indented depth)) (List.filter_congr fun line _ => ?_)
  rw [Function.comp_apply, decide_eq_decide]
  exact opensWith_indented depth

end Lines

/-! ### Functions -/

namespace Host

/-- What the first lines of a function start with. -/
def functionWords : List String :=
  ["@Throws(Throwable::class)", "fun ", "func ", "internal ", "private ", "public ", "open ", "override "]

/-- The lines that a function starts with. -/
def functionOpening : Host → FunctionDeclaration → List String
  | .kotlin, decl =>
    (if decl.throws then ["@Throws(Throwable::class)"] else []) ++ [Kotlin.functionHeader decl]
  | .swift, decl => [Swift.functionHeader decl]

/-- What a function does has no part in them. -/
theorem functionOpening_withBody (host : Host) (decl : FunctionDeclaration) (body : String) :
    host.functionOpening { decl with body } = host.functionOpening decl := by
  cases host <;> rfl

/-- Who can see a function and what it overrides is said first. -/
theorem exists_functionWord_kotlin (visibility : Visibility) (isOverride : Bool) (rest : String) :
    ∃ word ∈ functionWords, ∃ others, Kotlin.visibilityText visibility ++
      (Kotlin.overrideText isOverride ++ ("fun " ++ rest)) = word ++ others := by
  have hfun : ∃ word ∈ functionWords, ∃ others,
      "" ++ (Kotlin.overrideText isOverride ++ ("fun " ++ rest)) = word ++ others := by
    rw [String.empty_append]
    cases isOverride with
    | false => exact ⟨"fun ", by decide, rest, String.empty_append⟩
    | true => exact ⟨"override ", by decide, _, rfl⟩
  cases visibility with
  | unmarked | visible => exact hfun
  | internal => exact ⟨"internal ", by decide, _, rfl⟩
  | hidden => exact ⟨"private ", by decide, _, rfl⟩
  | overridable => exact ⟨"open ", by decide, _, rfl⟩

theorem exists_functionWord_swift (visibility : Visibility) (isOverride : Bool) (rest : String) :
    ∃ word ∈ functionWords, ∃ others, Swift.visibilityText visibility ++
      (Swift.overrideText isOverride ++ ("func " ++ rest)) = word ++ others := by
  cases visibility with
  | unmarked =>
      show ∃ word ∈ functionWords, ∃ others,
        "" ++ (Swift.overrideText isOverride ++ ("func " ++ rest)) = word ++ others
      rw [String.empty_append]
      cases isOverride with
      | false => exact ⟨"func ", by decide, rest, String.empty_append⟩
      | true => exact ⟨"override ", by decide, _, rfl⟩
  | visible => exact ⟨"public ", by decide, _, rfl⟩
  | internal => exact ⟨"internal ", by decide, _, rfl⟩
  | hidden => exact ⟨"private ", by decide, _, rfl⟩
  | overridable => exact ⟨"open ", by decide, _, rfl⟩

/-- The first lines of a function start with words of the host. -/
theorem not_opensWith_functionOpening {opening : String}
    (h : ∀ word ∈ functionWords, Lines.Apart opening word) (host : Host)
    (decl : FunctionDeclaration) :
    ∀ line ∈ host.functionOpening decl, ¬Lines.OpensWith opening line := by
  have hstart : ∀ line, (∃ word ∈ functionWords, ∃ rest, line = word ++ rest) →
      ¬Lines.OpensWith opening line := by
    rintro _ ⟨word, hword, rest, rfl⟩
    exact (h word hword).not_opensWith rest
  intro line hline
  refine hstart line ?_
  cases host with
  | kotlin =>
      rcases List.mem_append.mp hline with hthrows | hheader
      · split at hthrows
        · rw [List.mem_singleton.mp hthrows]
          exact ⟨_, List.mem_cons_self, "", String.append_empty.symm⟩
        · cases hthrows
      · rw [List.mem_singleton.mp hheader, Kotlin.functionHeader]
        simp only [String.append_assoc]
        exact exists_functionWord_kotlin _ _ _
  | swift =>
      rw [List.mem_singleton.mp hline, Swift.functionHeader]
      simp only [String.append_assoc]
      exact exists_functionWord_swift _ _ _

/-- The first lines of a function are whole, if all that the declaration says is on one line. -/
theorem whole_functionOpening (host : Host) {decl : FunctionDeclaration}
    (hname : OneLine decl.name) (hparams : ∀ param ∈ decl.params, OneLine param)
    (hreturn : ∀ name ∈ decl.returnType, OneLine name) :
    ∀ line ∈ host.functionOpening decl, Lines.Whole line := by
  have hlist : OneLine (", ".intercalate decl.params) := .intercalate (by decide) hparams
  have hresult (arrow : String) (harrow : OneLine arrow) :
      OneLine (decl.returnType.elim "" (arrow ++ ·)) := by
    cases htype : decl.returnType with
    | none => exact List.not_mem_nil
    | some name => exact harrow.append (hreturn name htype)
  cases host with
  | kotlin =>
      have hvisibility : OneLine (Kotlin.visibilityText decl.visibility) := by
        cases decl.visibility <;> exact .ofList (by decide)
      have hoverride : OneLine (Kotlin.overrideText decl.isOverride) := by
        cases decl.isOverride <;> exact .ofList (by decide)
      have hstart := (hvisibility.append hoverride).append (show OneLine "fun " by decide)
      intro line hline
      rcases List.mem_append.mp hline with hthrows | hheader
      · split at hthrows
        · rw [List.mem_singleton.mp hthrows]
          exact .ofList (by decide)
        · cases hthrows
      · rw [List.mem_singleton.mp hheader]
        exact (Lines.Full.append (((((hstart.append hname).append (by decide)).append
          hlist).append (by decide)).append (hresult ": " (by decide))) (by decide)).toWhole
  | swift =>
      have hvisibility : OneLine (Swift.visibilityText decl.visibility) := by
        cases decl.visibility <;> exact .ofList (by decide)
      have hoverride : OneLine (Swift.overrideText decl.isOverride) := by
        cases decl.isOverride <;> exact .ofList (by decide)
      have hstart := (hvisibility.append hoverride).append (show OneLine "func " by decide)
      have hthrows : OneLine (if decl.throws then " throws" else "") := by
        cases decl.throws <;> decide
      intro line hline
      rw [List.mem_singleton.mp hline]
      exact (Lines.Full.append ((((((hstart.append hname).append (by decide)).append
        hlist).append (by decide)).append hthrows).append (hresult " -> " (by decide)))
        (by decide)).toWhole

/-- A function is its first lines with its body in braces. -/
theorem functionText_eq (host : Host) (decl : FunctionDeclaration) :
    host.functionText decl =
      listingText (Listing.braced (host.functionOpening decl) [.block decl.body]) := by
  cases host with
  | kotlin =>
      simp only [functionText, functionOpening, Kotlin.functionText, Listing.braced]
      split <;> rfl
  | swift => rfl

/-- The lines of a function, given those of its body. -/
theorem ofText_functionText {host : Host} {decl : FunctionDeclaration} {lines : List String}
    (hopening : ∀ line ∈ host.functionOpening decl, Lines.Whole line)
    (hbody : Lines.ofText decl.body = lines) (hwhole : ∀ line ∈ lines, Lines.Whole line) :
    Lines.ofText (host.functionText decl) =
      host.functionOpening decl ++ lines.map (Listing.indented 1) ++ ["\x7d"] := by
  have hlines : [Listing.Step.block decl.body].flatMap Listing.Step.lines = lines := by
    simpa [Listing.Step.lines] using hbody
  rw [functionText_eq, Listing.ofText_braced (by simp [Listing.Step.Level]) hopening
    (hlines ▸ hwhole), hlines]

end Host

end Interop
