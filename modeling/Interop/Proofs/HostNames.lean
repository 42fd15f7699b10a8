/-
The grammar of host names.

A host's name of a type is put together from words and from the names of the type's
parts, and it is marked where a value may be absent.  There are three places that mark
one: the name of the whole marks its parts, an optional wrapper is always marked, and so
is a name in use.  They never mark the same name twice, because a mark is no part of a
base name, and even a wrapper of a wrapper passes the base name on without one.  What
comes about is a name of the grammar

    Name     ::= Word | Word<[Argument{, Argument}]>
    Argument ::= Name | Name?

whatever the types of a source are called, and whichever way silence about null is read.
In such a name brackets are balanced, and no mark follows another.
-/
import Interop.Proofs.Marks
import Interop.Proofs.Requests
import Interop.Proofs.SpelledNames

namespace Interop

/-! ### Words -/

namespace Reflection

/-- Some type's full name is empty. -/
def HasBlankName (types : Reflection) : Prop :=
  ∃ key type, types.get? key = some type ∧ type.fullName = some ""

/-- What names are put together from: ASCII letters, digits and underscores, and at least one of
them unless a full name has nothing to spell. -/
structure Word (types : Reflection) (text : String) : Prop where
  plain : ∀ c ∈ text.toList, c.isAlphanum = true ∨ c = '_'
  nonempty : text ≠ "" ∨ types.HasBlankName

namespace Word

variable {types : Reflection}

theorem of_isPlain {text : String} (h : ∀ c ∈ text.toList, Identifier.isPlain c = true)
    (hnonempty : text ≠ "" ∨ types.HasBlankName) : types.Word text where
  plain c hc := by simpa [Identifier.isPlain] using h c hc
  nonempty := hnonempty

/-- The names that the model gives itself. -/
theorem literal {text : String} (h : text.toList.all Identifier.isPlain = true)
    (hne : text ≠ "") : types.Word text :=
  of_isPlain (List.all_eq_true.mp h) (.inl hne)

theorem not_mem {text : String} (h : types.Word text) {c : Char}
    (hc : Identifier.isPlain c = false) : c ∉ text.toList := by
  intro hmem
  have hplain : Identifier.isPlain c = true := by simpa [Identifier.isPlain] using h.plain c hmem
  cases hc.symm.trans hplain

/-- The spelling of a type's full name. -/
theorem ofFullName {key : TypeKey} {type : ManagedType} {fullName : String}
    (htype : types.get? key = some type) (hname : type.fullName = some fullName) :
    types.Word (Identifier.ofFullName fullName) := by
  refine of_isPlain (fun c => Identifier.isPlain_of_mem_ofFullName) ?_
  by_cases hblank : fullName = ""
  · exact .inr ⟨key, type, htype, hblank ▸ hname⟩
  · exact .inl (Identifier.ofFullName_ne_empty hblank)

/-- A word with others behind it. -/
theorem join {head : String} {names : List String} (hhead : types.Word head)
    (h : ∀ name ∈ names, types.Word name) :
    types.Word (head ++ "_" ++ "_".intercalate names) where
  plain c hc := by
    have hmark : types.Word "_" := .literal (by decide) (by decide)
    rw [String.toList_append, String.toList_append, List.mem_append, List.mem_append] at hc
    rcases hc with (hin | hin) | hin
    · exact hhead.plain c hin
    · exact hmark.plain c hin
    · rcases mem_toList_intercalate hin with hin | ⟨name, hname, hin⟩
      · exact hmark.plain c hin
      · exact (h name hname).plain c hin
  nonempty := .inl (by simp)

end Word

end Reflection

/-! ### Names -/

/-- A name, and whether what it names may be absent. -/
structure MarkedName where
  name : String
  isOptional : Bool

/-- The name with its mark. -/
def MarkedName.text (marked : MarkedName) : String :=
  if marked.isOptional then marked.name ++ "?" else marked.name

/-- The names of the grammar. -/
inductive HostName (types : Reflection) : String → Prop where
  | word {text : String} (h : types.Word text) : HostName types text
  | applied {head : String} {arguments : List MarkedName} (hhead : types.Word head)
      (harguments : ∀ argument ∈ arguments, HostName types argument.name) :
      HostName types (head ++ "<" ++ ", ".intercalate (arguments.map MarkedName.text) ++ ">")

/-! ### Brackets -/

/-- The depth of brackets behind a character, unless it closes one that was not opened. -/
def bracketStep (depth : Nat) : Char → Option Nat
  | '<' => some (depth + 1)
  | '>' => if depth = 0 then none else some (depth - 1)
  | _ => some depth

/-- Every bracket that is opened is closed behind it, and no other one is. -/
def Balanced (text : String) : Prop := text.toList.foldlM bracketStep 0 = some 0

instance (text : String) : Decidable (Balanced text) :=
  inferInstanceAs (Decidable (text.toList.foldlM bracketStep 0 = some 0))

/-- A text that leaves every depth as it is. -/
def KeepsDepth (text : String) : Prop :=
  ∀ depth, text.toList.foldlM bracketStep depth = some depth

namespace KeepsDepth

theorem append {first second : String} (h : KeepsDepth first) (h' : KeepsDepth second) :
    KeepsDepth (first ++ second) := by
  intro depth
  rw [String.toList_append, List.foldlM_append, h depth]
  exact h' depth

theorem of_not_mem {text : String} (hopen : '<' ∉ text.toList) (hclose : '>' ∉ text.toList) :
    KeepsDepth text := by
  intro depth
  revert hopen hclose
  generalize text.toList = chars
  induction chars with
  | nil => exact fun _ _ => rfl
  | cons first rest ih =>
      intro hopen hclose
      rw [List.mem_cons, not_or] at hopen hclose
      have hstep : bracketStep depth first = some depth :=
        bracketStep.eq_3 depth first (fun heq => hopen.1 heq.symm) fun heq => hclose.1 heq.symm
      rw [List.foldlM_cons, hstep]
      exact ih hopen.2 hclose.2

theorem intercalate {separator : String} {texts : List String} (hseparator : KeepsDepth separator)
    (h : ∀ text ∈ texts, KeepsDepth text) : KeepsDepth (separator.intercalate texts) := by
  induction texts with
  | nil => exact fun _ => rfl
  | cons first rest ih =>
      cases rest with
      | nil =>
          rw [String.intercalate_singleton]
          exact h first List.mem_cons_self
      | cons next others =>
          rw [String.intercalate_cons_of_ne_nil (List.cons_ne_nil _ _)]
          exact .append (.append (h first List.mem_cons_self) hseparator)
            (ih fun text htext => h text (List.mem_cons_of_mem _ htext))

/-- Inside brackets the depth is one more. -/
theorem bracketed {inner : String} (h : KeepsDepth inner) : KeepsDepth ("<" ++ inner ++ ">") := by
  intro depth
  have hopen : "<".toList.foldlM bracketStep depth = some (depth + 1) := rfl
  have hclose : ">".toList.foldlM bracketStep (depth + 1) = some depth := rfl
  rw [String.toList_append, String.toList_append, List.foldlM_append, List.foldlM_append, hopen]
  dsimp only [Option.bind_eq_bind, Option.bind_some]
  rw [h (depth + 1)]
  exact hclose

end KeepsDepth

theorem MarkedName.keepsDepth {marked : MarkedName} (h : KeepsDepth marked.name) :
    KeepsDepth marked.text := by
  unfold text
  split
  · exact h.append (.of_not_mem (by decide) (by decide))
  · exact h

/-! ### Marks -/

/-- A name has one mark at most. -/
theorem MarkedName.notAdjacent {marked : MarkedName} (h : KeepsApart '?' '?' marked.name) :
    NotAdjacent '?' '?' marked.text := by
  unfold text
  split
  · exact h.notAdjacent_append (by decide)
  · exact h.within

/-- What stands behind the mark of an argument, a comma or the bracket, is no mark. -/
theorem keepsApart_arguments {arguments : List String}
    (h : ∀ argument ∈ arguments, NotAdjacent '?' '?' argument) :
    KeepsApart '?' '?' (", ".intercalate arguments ++ ">") := by
  induction arguments with
  | nil => exact (by decide : KeepsApart '?' '?' ">")
  | cons first rest ih =>
      have hfirst := h first List.mem_cons_self
      cases rest with
      | nil =>
          rw [String.intercalate_singleton]
          exact .of_notAdjacent hfirst (by decide) (by decide)
      | cons next others =>
          have hcomma : KeepsApart '?' '?' (first ++ ", ") :=
            .of_notAdjacent hfirst (by decide) (by decide)
          rw [String.intercalate_cons_of_ne_nil (List.cons_ne_nil _ _), String.append_assoc]
          exact hcomma.append (ih fun argument hmem => h argument (List.mem_cons_of_mem _ hmem))

/-! ### What is read off the grammar -/

namespace HostName

variable {types : Reflection} {text : String}

/-- Brackets come in pairs, around the arguments. -/
theorem keepsDepth (h : HostName types text) : KeepsDepth text := by
  induction h with
  | word hword => exact .of_not_mem (hword.not_mem (by decide)) (hword.not_mem (by decide))
  | @applied head arguments hhead _ ih =>
      have hinner : KeepsDepth (", ".intercalate (arguments.map MarkedName.text)) := by
        refine .intercalate (.of_not_mem (by decide) (by decide)) fun argument hargument => ?_
        obtain ⟨marked, hmarked, rfl⟩ := List.mem_map.mp hargument
        exact marked.keepsDepth (ih marked hmarked)
      have hword : KeepsDepth head :=
        .of_not_mem (hhead.not_mem (by decide)) (hhead.not_mem (by decide))
      have hname := hword.append hinner.bracketed
      rwa [← String.append_assoc, ← String.append_assoc] at hname

/-- A name does not end in a mark. -/
theorem keepsApart (h : HostName types text) : KeepsApart '?' '?' text := by
  induction h with
  | word hword => exact .of_not_mem (hword.not_mem (by decide))
  | @applied head arguments hhead _ ih =>
      have hinner :
          KeepsApart '?' '?' (", ".intercalate (arguments.map MarkedName.text) ++ ">") := by
        refine keepsApart_arguments fun argument hargument => ?_
        obtain ⟨marked, hmarked, rfl⟩ := List.mem_map.mp hargument
        exact marked.notAdjacent (ih marked hmarked)
      have hopen : KeepsApart '?' '?' (head ++ "<") :=
        .append (.of_not_mem (hhead.not_mem (by decide))) (by decide)
      rw [String.append_assoc]
      exact hopen.append hinner

end HostName

namespace Description

/-! ### Names in use -/

/-- The host's name of a value that may or may not be absent. -/
def marked (d : Description) (host : Host) (nullness : Nullness) : MarkedName where
  name := d.baseName host.language
  isOptional := d.category.valueKind?.any fun kind =>
    kind.isReferenceLike && (nullness.isNullable || kind == .optionalWrapper)

theorem text_marked (d : Description) (host : Host) (nullness : Nullness) :
    (d.marked host nullness).text = d.nameWithNullness host.language nullness := by
  unfold MarkedName.text marked nameWithNullness
  cases d.category.valueKind? with
  | none => rfl
  | some kind =>
      rw [Option.any_some]
      dsimp only
      cases kind.isReferenceLike with
      | false => rfl
      | true => cases host <;> rfl

/-- The name of a value that is not passed by reference. -/
theorem exists_marked_of_byValue (d : Description) {host : Host} {request : NameRequest}
    (hlanguage : request.language = host.language)
    (hvalue : request.position = .result ∨ request.modifiers = .none) :
    ∃ nullness, d.name request = (d.marked host nullness).text := by
  simp only [text_marked, ← hlanguage]
  unfold name
  split
  · exact ⟨_, rfl⟩
  · rename_i hposition
    have hnone := hvalue.resolve_left (by simp [hposition])
    rw [if_pos hnone]
    exact ⟨_, rfl⟩

/-- The parts of a type are marked names inside the name of the whole. -/
theorem map_nestedName (unspecified : Nullness) (host : Host) (parts : List Description) :
    parts.map (nestedName unspecified host.language) =
      (parts.map fun part =>
        part.marked host (part.defaultNullability.settle unspecified)).map MarkedName.text := by
  rw [List.map_map]
  refine List.map_congr_left fun part _ => ?_
  rw [Function.comp_apply, text_marked]
  rfl

/-! ### Building -/

/-- A description whose names are in the grammar. -/
structure InGrammar (types : Reflection) (d : Description) : Prop where
  cTypeName : types.Word d.cTypeName
  baseName (host : Host) : HostName types (d.baseName host.language)

namespace InGrammar

variable {types : Reflection}

theorem word_keyword (primitive : Primitive) (host : Host) :
    types.Word (primitive.keyword host.language) := by
  refine .literal ?_ ?_
  all_goals cases host <;> cases primitive <;> decide

/-- An array's name has one argument. -/
theorem headD_eq_intercalate (names : List String) :
    names.headD "" = ", ".intercalate (names.take 1) := by
  cases names with
  | nil => rfl
  | cons first rest => exact String.intercalate_singleton.symm

section

variable {p : NameParts} (hname : types.Word p.cTypeName)
  (hparts : ∀ part ∈ p.parts, part.InGrammar types)

include hname hparts

theorem hostName_unwrappedName (host : Host) : HostName types (unwrappedName p host.language) := by
  unfold unwrappedName
  split
  · rename_i inner hinner
    exact (hparts inner (List.mem_of_head? hinner)).baseName host
  · exact .word hname

variable (hdeclared : types.Word (Identifier.ofFullName p.declaredName))

include hdeclared

theorem hostName_wrapperName (host : Host) : HostName types (wrapperName p host.language) := by
  have harguments : ∀ argument ∈ p.parts.map fun part =>
      part.marked host (part.defaultNullability.settle p.unspecified),
      HostName types argument.name := by
    intro argument hargument
    obtain ⟨part, hpart, rfl⟩ := List.mem_map.mp hargument
    exact (hparts part hpart).baseName host
  unfold wrapperName
  rw [map_nestedName]
  split
  · have harray : "DNArray<" = "DNArray" ++ "<" := by decide
    dsimp only
    rw [headD_eq_intercalate, ← List.map_take, harray]
    exact .applied (.literal (by decide) (by decide)) fun argument hargument =>
      harguments argument (List.mem_of_mem_take hargument)
  · exact .applied hdeclared harguments
  · exact .word hname

theorem hostName_valueBaseName (kind : ValueKind) (host : Host) :
    HostName types (valueBaseName p kind host.language) := by
  have hwrapper := hostName_wrapperName hname hparts hdeclared host
  have hunwrapped := hostName_unwrappedName hname hparts host
  cases kind with
  | primitive primitive => exact .word (word_keyword primitive host)
  | enumeration => cases host <;> exact .word hname
  | string | byteSpan =>
      cases host <;>
        (simp only [valueBaseName, Host.language]; exact .word (.literal (by decide) (by decide)))
  | optionalWrapper => cases host <;> exact hunwrapped
  | referenceObject | byRef => cases host <;> exact hwrapper

theorem hostName_buildBaseName (host : Host) : HostName types (buildBaseName p host.language) := by
  unfold buildBaseName
  split
  · cases host <;> exact .word (.literal (by decide) (by decide))
  · cases host <;> exact .word (.literal (by decide) (by decide))
  · exact hostName_valueBaseName hname hparts hdeclared _ host

end

/-- **Building stays in the grammar.** -/
theorem build {unspecified : Nullness} {key : TypeKey} {type : ManagedType} {declaredName : String}
    {parts : List Description} (htype : types.get? key = some type)
    (hname : type.fullName = some declaredName) (hparts : ∀ part ∈ parts, part.InGrammar types) :
    (Description.build unspecified key type declaredName parts).InGrammar types := by
  have hdeclared := Reflection.Word.ofFullName htype hname
  have hc : types.Word (buildCTypeName declaredName type.shape parts) := by
    unfold buildCTypeName
    split
    · refine .join hdeclared fun name hmem => ?_
      obtain ⟨part, hpart, rfl⟩ := List.mem_map.mp hmem
      exact (hparts part hpart).cTypeName
    · exact hdeclared
  refine ⟨hc, fun host => ?_⟩
  rw [baseName_build]
  refine hostName_buildBaseName ?_ ?_ ?_ host
  · exact hc
  · exact hparts
  · exact hdeclared

end InGrammar

end Description

/-- The names of everything that can be described are in the grammar. -/
theorem inGrammar_of_describeAlong {types : Reflection} {unspecified : Nullness}
    {path : List TypeKey} {key : TypeKey} {description : Description}
    (h : describeAlong types unspecified path key = .ok description) :
    description.InGrammar types :=
  describeAlong_induction (fun _ _ _ _ htype hname hparts => .build htype hname hparts) h

/--
**Names stay in their grammar.**  Whatever the types of a source are called, and whichever
way silence about null is read, for every description that a request is answered with:
the identifier is a word, and the base names of both hosts are in the grammar.  Where a
value is returned or passed by value, it is named by the base name with one mark at most,
the brackets of that name are balanced, and nowhere in it does a mark follow another.
-/
theorem describe_names_inGrammar {types : Reflection} {unspecified : Nullness}
    {requests : List TypeKey} {key : TypeKey} {description : Description}
    (h : ((describe types unspecified key).on
      (.afterRequests types unspecified requests)).1 = .ok description) :
    types.Word description.cTypeName ∧
    (∀ host : Host, HostName types (description.baseName host.language)) ∧
    ∀ (host : Host) (request : NameRequest), request.language = host.language →
      request.position = .result ∨ request.modifiers = .none →
      (∃ isOptional, description.name request =
        MarkedName.text ⟨description.baseName host.language, isOptional⟩) ∧
      Balanced (description.name request) ∧ occurrences "??" (description.name request) = 0 := by
  have hnames : description.InGrammar types :=
    inGrammar_of_describeAlong ((fst_on_describe types unspecified requests key).symm.trans h)
  refine ⟨hnames.cTypeName, hnames.baseName, fun host request hlanguage hvalue => ?_⟩
  obtain ⟨nullness, hname⟩ := description.exists_marked_of_byValue hlanguage hvalue
  have hmarked : HostName types (description.marked host nullness).name := hnames.baseName host
  rw [hname]
  exact ⟨⟨_, rfl⟩, MarkedName.keepsDepth hmarked.keepsDepth 0,
    (MarkedName.notAdjacent hmarked.keepsApart).occurrences_eq_zero (by decide)⟩

/-- A wrapper of a wrapper, in an array and beside other arguments. -/
def wrappedTwice : Reflection where
  entries := [
    (⟨40⟩, { name := "Point", fullName := some "App.Point", shape := .structType }),
    (⟨41⟩, { name := "Point?", fullName := some "App.Point?", shape := .nullable ⟨40⟩ }),
    (⟨42⟩, { name := "Point??", fullName := some "App.Point??", shape := .nullable ⟨41⟩ }),
    (⟨43⟩, { name := "Point??[]", fullName := some "App.Point??[]", shape := .array ⟨42⟩ }),
    (⟨44⟩, .namedClass "App.<Odd>??"),
    (⟨45⟩, { name := "Map`3", fullName := some "App.Map`3", shape := .generic [⟨43⟩, ⟨41⟩, ⟨44⟩] })]

/-- Every name in it is marked once, also where silence says that values may be absent. -/
theorem describe_wrappedTwice :
    ∃ description,
      ((describe wrappedTwice .nullable ⟨45⟩).on
        (.afterRequests wrappedTwice .nullable [⟨99⟩])).1 = .ok description ∧
      description.name (.result .kotlin .nullable) =
        "App_Map_A3<DNArray<App_Point?>?, App_Point?, App__Odd___?>?" ∧
      wrappedTwice.Word description.cTypeName ∧
      HostName wrappedTwice (description.baseName .kotlin) ∧
      Balanced (description.name (.result .kotlin .nullable)) ∧
      occurrences "??" (description.name (.result .kotlin .nullable)) = 0 := by
  have hnamed : ((describe wrappedTwice .nullable ⟨45⟩).on
      (.afterRequests wrappedTwice .nullable [⟨99⟩])).1.map (·.name (.result .kotlin .nullable)) =
      .ok "App_Map_A3<DNArray<App_Point?>?, App_Point?, App__Odd___?>?" := by
    decide +kernel
  obtain ⟨description, houtcome, hname⟩ := map_eq_ok hnamed
  obtain ⟨hword, hnames, hinUse⟩ := describe_names_inGrammar houtcome
  obtain ⟨-, hbalanced, honce⟩ := hinUse .kotlin (.result .kotlin .nullable) rfl (.inl rfl)
  exact ⟨description, houtcome, hname, hword, hnames .kotlin, hbalanced, honce⟩

end Interop
