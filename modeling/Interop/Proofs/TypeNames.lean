/-
How much of the parts of a name can be read off the name.

Arrays, nullables and generic types are looked up under names that are put together
from the names of their parts, with brackets and commas between them.  Declared
names have none of these marks.  So a name that was put together tells how: what
it ends with, where its first bracket opens, and where its commas are.

Two things are needed of the names of the parts.  A comma in one of them would be
taken for one between them, and a bracket left open at the end of the last would
make an argument list look like the brackets of an array.
-/
import Interop.Managed.TypeStore

namespace Interop

/-! ### Names without marks -/

/-- The characters that names of constructed types are put together with. -/
def nameMarks : List Char := ['[', ']', ',', '<', '>']

/-- A name without marks, such as those that types are declared under. -/
def PlainName (name : String) : Prop :=
  name ≠ "" ∧ ∀ mark ∈ nameMarks, mark ∉ name.toList

-- The marks are gone through, and not all characters there are.
instance (name : String) : Decidable (PlainName name) :=
  decidable_of_iff (name ≠ "" ∧ nameMarks.all (fun mark => decide (mark ∉ name.toList)) = true)
    (by simp [PlainName])

/-- A name that can stand in a list of names. -/
structure ListableName (name : String) : Prop where
  nonempty : name ≠ ""
  noComma : ',' ∉ name.toList
  /-- It does not end where a bracket has just opened. -/
  closed : name.toList.getLast? ≠ some '['

/-- A name that is not put together like that of an array, a generic type or a nullable. -/
structure OwnName (name : String) : Prop where
  noBracket : '[' ∉ name.toList
  notNullable : ¬ "System.Nullable<".toList <+: name.toList

instance (name : String) : Decidable (ListableName name) :=
  decidable_of_iff (name ≠ "" ∧ ',' ∉ name.toList ∧ name.toList.getLast? ≠ some '[')
    ⟨fun h => ⟨h.1, h.2.1, h.2.2⟩, fun h => ⟨h.1, h.2, h.3⟩⟩

instance (name : String) : Decidable (OwnName name) :=
  decidable_of_iff ('[' ∉ name.toList ∧ ¬ "System.Nullable<".toList <+: name.toList)
    ⟨fun h => ⟨h.1, h.2⟩, fun h => ⟨h.1, h.2⟩⟩

theorem PlainName.listable {name : String} (h : PlainName name) : ListableName name where
  nonempty := h.1
  noComma := h.2 ',' (by decide)
  closed := fun hlast => h.2 '[' (by decide) (List.mem_of_getLast? hlast)

theorem PlainName.ownName {name : String} (h : PlainName name) : OwnName name where
  noBracket := h.2 '[' (by decide)
  notNullable := fun hstart => h.2 '<' (by decide) (hstart.subset (by decide))

/-! ### Names of constructed types -/

/-- The full name of an array of elements with a full name. -/
def arrayName (name : String) : String := name ++ "[]"

/-- The full name of a nullable over a type with a full name. -/
def nullableName (name : String) : String := "System.Nullable<" ++ name ++ ">"

theorem nullableName_eq (name : String) :
    nullableName name = "System.Nullable<" ++ name ++ ">" := rfl

theorem arrayName_inj {name other : String} (h : arrayName name = arrayName other) : name = other :=
  (String.append_left_inj "[]").mp h

theorem nullableName_inj {name other : String} (h : nullableName name = nullableName other) :
    name = other :=
  (String.append_right_inj "System.Nullable<").mp ((String.append_left_inj ">").mp h)

theorem getLast?_append_mark (name : String) {mark : String} {last : Char}
    (h : mark.toList = [last]) : (name ++ mark).toList.getLast? = some last := by
  rw [String.toList_append, h, List.getLast?_concat]

theorem arrayName_eq (name : String) : arrayName name = name ++ "[" ++ "]" := by
  rw [String.append_assoc]
  rfl

theorem getLast?_arrayName (name : String) : (arrayName name).toList.getLast? = some ']' := by
  rw [arrayName_eq]
  exact getLast?_append_mark _ rfl

theorem getLast?_nullableName (name : String) : (nullableName name).toList.getLast? = some '>' :=
  getLast?_append_mark _ rfl

theorem getLast?_genericIndexName (definition : String) (names : List String) :
    (TypeStore.genericIndexName definition names).toList.getLast? = some ']' :=
  getLast?_append_mark _ rfl

theorem ListableName.array {name : String} (h : ListableName name) :
    ListableName (arrayName name) where
  nonempty := by simp [arrayName]
  noComma := by simp [arrayName, h.noComma]
  closed := by simp [getLast?_arrayName]

theorem ListableName.nullable {name : String} (h : ListableName name) :
    ListableName (nullableName name) where
  nonempty := by simp [nullableName_eq]
  noComma := by simp [nullableName_eq, h.noComma]
  closed := by simp [getLast?_nullableName]

theorem not_ownName_arrayName (name : String) : ¬ OwnName (arrayName name) :=
  fun h => h.noBracket (by simp [arrayName])

theorem not_ownName_nullableName (name : String) : ¬ OwnName (nullableName name) :=
  fun h => h.notNullable (by simp [nullableName_eq])

theorem not_ownName_genericIndexName (definition : String) (names : List String) :
    ¬ OwnName (TypeStore.genericIndexName definition names) :=
  fun h => h.noBracket (by simp [TypeStore.genericIndexName])

/-! ### Argument lists -/

section

variable {definition other : String} {names others : List String}

/-- Names without commas are the ones between the commas. -/
theorem intercalate_comma_inj (hnames : ∀ name ∈ names, ListableName name)
    (hothers : ∀ name ∈ others, ListableName name) (hne : names ≠ []) (hne' : others ≠ [])
    (h : ",".intercalate names = ",".intercalate others) : names = others := by
  have hsplit : ∀ list : List String, (∀ name ∈ list, ListableName name) → list ≠ [] →
      (",".intercalate list).toList.splitOn ',' = list.map String.toList := by
    intro list hlist hlistne
    rw [String.toList_intercalate]
    refine List.splitOn_intercalate ',' ?_ (by simpa using hlistne)
    intro chars hchars
    obtain ⟨name, hname, rfl⟩ := List.mem_map.mp hchars
    exact (hlist name hname).noComma
  have hmap : names.map String.toList = others.map String.toList := by
    rw [← hsplit names hnames hne, h, hsplit others hothers hne']
  exact (List.map_inj_right fun _ _ => String.toList_injective).mp hmap

/-- Two lists that go on at the same first mark are the same before it and after it. -/
theorem append_mark_inj {mark : Char} {before before' after after' : List Char}
    (hbefore : mark ∉ before) (hbefore' : mark ∉ before')
    (h : before ++ mark :: after = before' ++ mark :: after') :
    before = before' ∧ after = after' := by
  induction before generalizing before' with
  | nil =>
      cases before' with
      | nil => simpa using h
      | cons first rest =>
          simp only [List.nil_append, List.cons_append, List.cons.injEq] at h
          exact absurd (h.1 ▸ List.mem_cons_self) hbefore'
  | cons first rest ih =>
      cases before' with
      | nil =>
          simp only [List.nil_append, List.cons_append, List.cons.injEq] at h
          exact absurd (h.1 ▸ List.mem_cons_self) hbefore
      | cons first' rest' =>
          simp only [List.cons_append, List.cons.injEq] at h
          obtain ⟨rfl, hrest⟩ := h
          obtain ⟨rfl, hafter⟩ := ih (fun hmem => hbefore (List.mem_cons_of_mem _ hmem))
            (fun hmem => hbefore' (List.mem_cons_of_mem _ hmem)) hrest
          exact ⟨rfl, hafter⟩

/-- A list of names is not empty, and does not end where a bracket has just opened. -/
theorem getLast?_intercalate (hnames : ∀ name ∈ names, ListableName name) (hne : names ≠ []) :
    ∃ last, (",".intercalate names).toList.getLast? = some last ∧ last ≠ '[' := by
  induction names with
  | nil => exact absurd rfl hne
  | cons name rest ih =>
      have hname := hnames name List.mem_cons_self
      by_cases hrest : rest = []
      · have hsome : name.toList.getLast? ≠ none := by simpa using hname.nonempty
        obtain ⟨last, hlast⟩ := Option.ne_none_iff_exists'.mp hsome
        refine ⟨last, ?_, ?_⟩
        · rw [hrest, String.intercalate_singleton, hlast]
        · rintro rfl
          exact hname.closed hlast
      · obtain ⟨last, hlast, hopen⟩ :=
          ih (fun other hother => hnames other (List.mem_cons_of_mem _ hother)) hrest
        refine ⟨last, ?_, hopen⟩
        rw [String.intercalate_cons_of_ne_nil hrest, String.toList_append, List.getLast?_append,
          hlast, Option.some_or]

theorem intercalate_ne_empty (hnames : ∀ name ∈ names, ListableName name) (hne : names ≠ []) :
    ",".intercalate names ≠ "" := by
  intro hempty
  obtain ⟨last, hlast, -⟩ := getLast?_intercalate hnames hne
  rw [hempty] at hlast
  cases hlast

/-- The brackets of an argument list are not those of an array. -/
theorem genericIndexName_ne_arrayName (hnames : ∀ name ∈ names, ListableName name)
    (hne : names ≠ []) : TypeStore.genericIndexName definition names ≠ arrayName other := by
  intro h
  obtain ⟨last, hlast, hopen⟩ := getLast?_intercalate hnames hne
  rw [TypeStore.genericIndexName, arrayName_eq] at h
  have hcut := congrArg (fun name => name.toList.getLast?) ((String.append_left_inj "]").mp h)
  simp only [String.toList_append, List.getLast?_append, hlast, Option.some_or] at hcut
  exact hopen (Option.some.inj hcut)

/-- The definition and the argument names can be read off the name of a generic type. -/
theorem genericIndexName_inj (hdefinition : PlainName definition) (hother : PlainName other)
    (hnames : ∀ name ∈ names, ListableName name) (hothers : ∀ name ∈ others, ListableName name)
    (hne : names ≠ [])
    (h : TypeStore.genericIndexName definition names = TypeStore.genericIndexName other others) :
    definition = other ∧ names = others := by
  have hcut := congrArg String.toList ((String.append_left_inj "]").mp h)
  simp only [String.toList_append, List.append_assoc] at hcut
  obtain ⟨hdefinitions, hlists⟩ :=
    append_mark_inj (hdefinition.2 '[' (by decide)) (hother.2 '[' (by decide)) hcut
  have hjoined : ",".intercalate names = ",".intercalate others := String.toList_injective hlists
  refine ⟨String.toList_injective hdefinitions, ?_⟩
  by_cases hne' : others = []
  · -- Then the other list is written as nothing, which names never are.
    rw [hne', String.intercalate_nil] at hjoined
    exact absurd hjoined (intercalate_ne_empty hnames hne)
  · exact intercalate_comma_inj hnames hothers hne hne' hjoined

/-- Without arguments a generic type is looked up as an array of its definition would be. -/
theorem genericIndexName_nil (definition : String) :
    TypeStore.genericIndexName definition [] = arrayName definition := by
  rw [TypeStore.genericIndexName, String.intercalate_nil, String.append_empty, arrayName_eq]

end

end Interop
