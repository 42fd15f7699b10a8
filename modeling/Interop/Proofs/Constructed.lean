/-
When two constructed types are one.

An array, a nullable or a generic type is made once for each name that is spelled
from the names of its components.  From the spelling it can be told how the type
was made and which names its components have.  What cannot be told is which types
these are: generic types carry the names of their definitions, so a list of
integers and a list of strings are called the same, and whatever is made of the
one is answered with what was made of the other.

So the keys of two constructed types agree exactly if the types are made in the
same way of components that are alike, and the type at the key is made of alike
components as well.  There is one more confusion.  A generic type without arguments
is spelled like the array of what it is called.
-/
import Interop.Proofs.NameIndex

namespace Interop

namespace TypeStore

/-! ### Types that names cannot tell apart -/

/-- There is a generic type at a key. -/
def IsGeneric (store : TypeStore) (key : TypeKey) : Prop :=
  ∃ type arguments, store.get? key = some type ∧ type.shape = .generic arguments

/-- Two types are one, or they share a full name, and a generic type is among them. -/
def Alike (store : TypeStore) (key other : TypeKey) : Prop :=
  key = other ∨
    ∃ name, store.fullNameOf key = some name ∧ store.fullNameOf other = some name ∧
      (store.IsGeneric key ∨ store.IsGeneric other)

/-- The types that a store may take one for the other. -/
inductive Resembles (store : TypeStore) : Construction → Construction → Prop
  /-- They are made in the same way of components that are alike. -/
  | alike {made asked : Construction} (hformer : made.former = asked.former)
      (hcomponents : List.Forall₂ store.Alike made.components asked.components) :
      Resembles store made asked
  /-- One is made of nothing, and the other is an array of what it is called. -/
  | bare {definition : String} {element : TypeKey}
      (hname : store.fullNameOf element = some definition) :
      Resembles store (.generic definition []) (.array element)

/-- A construction leads to a type that may be taken for it, and to itself where the key is new. -/
def Yields (store : TypeStore) (asked : Construction) : Prop :=
  ∃ made : Construction,
    (asked.run store).2.get? (asked.run store).1 = some (made.type (asked.run store).2) ∧
      (asked.run store).2.Resembles made asked ∧
      (store.get? (asked.run store).1 = none → made = asked)

/-- All components have full names, and there is one at least. -/
def Names (store : TypeStore) (construction : Construction) : Prop :=
  construction.components ≠ [] ∧
    ∀ component ∈ construction.components, (store.fullNameOf component).isSome = true

section

variable {store : TypeStore} {key other : TypeKey} {name otherName : String}

theorem Indexed.find?_or_isGeneric (h : store.Indexed) (hname : store.fullNameOf key = some name) :
    store.find? name = some key ∨ store.IsGeneric key := by
  obtain ⟨type, htype, hfull⟩ := Option.bind_eq_some_iff.mp hname
  rcases h.owned htype hfull with hfind | ⟨arguments, hshape⟩
  · exact .inl hfind
  · exact .inr ⟨type, arguments, htype, hshape⟩

/-- Types with full names are alike exactly if these are the same. -/
theorem Indexed.alike_iff (h : store.Indexed) (hname : store.fullNameOf key = some name)
    (hother : store.fullNameOf other = some otherName) :
    store.Alike key other ↔ name = otherName := by
  constructor
  · rintro (rfl | ⟨shared, hkey, hshared, -⟩)
    · exact Option.some.inj (hname.symm.trans hother)
    · have hleft := Option.some.inj (hname.symm.trans hkey)
      have hright := Option.some.inj (hother.symm.trans hshared)
      exact hleft.trans hright.symm
  · rintro rfl
    rcases h.find?_or_isGeneric hname with hfind | hgeneric
    · rcases h.find?_or_isGeneric hother with hfind' | hgeneric
      · exact .inl (Option.some.inj (hfind.symm.trans hfind'))
      · exact .inr ⟨name, hname, hother, .inr hgeneric⟩
    · exact .inr ⟨name, hname, hother, .inl hgeneric⟩

/-- Lists of types with the same full names are alike one by one. -/
theorem Indexed.forall₂_alike (h : store.Indexed) {keys others : List TypeKey}
    {names : List String} (hkeys : store.Called keys names) (hothers : store.Called others names) :
    List.Forall₂ store.Alike keys others := by
  induction hkeys generalizing others with
  | nil =>
      cases hothers
      exact .nil
  | cons hname _ ih =>
      cases hothers with
      | cons hother hrest => exact .cons ((h.alike_iff hname hother).mpr rfl) (ih hrest)

/-- Types that are alike one by one have the same full names. -/
theorem Indexed.called_of_alike (h : store.Indexed) {keys others : List TypeKey}
    {names : List String} (hkeys : store.Called keys names)
    (halike : List.Forall₂ store.Alike keys others) (hnamed : ∀ key ∈ others,
      (store.fullNameOf key).isSome = true) : store.Called others names := by
  induction hkeys generalizing others with
  | nil =>
      cases halike
      exact .nil
  | cons hname _ ih =>
      cases halike with
      | cons hfirst hrest =>
          obtain ⟨otherName, hother⟩ := Option.isSome_iff_exists.mp (hnamed _ List.mem_cons_self)
          obtain rfl := (h.alike_iff hname hother).mp hfirst
          exact .cons hother (ih hrest fun key hkey => hnamed key (List.mem_cons_of_mem _ hkey))

theorem Called.eq_singleton {names : List String} (h : store.Called [key] names) :
    ∃ name, store.fullNameOf key = some name ∧ names = [name] := by
  cases h with
  | cons hname hrest =>
      cases hrest
      exact ⟨_, hname, rfl⟩

theorem exists_called {keys : List TypeKey}
    (hnamed : ∀ key ∈ keys, (store.fullNameOf key).isSome = true) :
    ∃ names, store.Called keys names := by
  induction keys with
  | nil => exact ⟨[], .nil⟩
  | cons first rest ih =>
      obtain ⟨name, hname⟩ := Option.isSome_iff_exists.mp (hnamed first List.mem_cons_self)
      obtain ⟨names, hnames⟩ := ih fun key hkey => hnamed key (List.mem_cons_of_mem _ hkey)
      exact ⟨name :: names, .cons hname hnames⟩

theorem Indexed.listable_called (h : store.Indexed) {keys : List TypeKey} {names : List String}
    (hkeys : store.Called keys names) : ∀ name ∈ names, ListableName name := by
  induction hkeys with
  | nil => simp
  | cons hname _ ih =>
      intro name hmem
      rcases List.mem_cons.mp hmem with rfl | hrest
      · exact h.listable_fullName hname
      · exact ih name hrest

end

/-! ### What is read off a spelling -/

/-- A spelling does not look like a name that a type was declared under. -/
theorem not_ownName_spell (former : Former) (names : List String) :
    ¬ OwnName (former.spell names) := by
  cases former with
  | array => exact not_ownName_arrayName _
  | nullable => exact not_ownName_nullableName _
  | generic definition => exact not_ownName_genericIndexName definition names

/-- Only nullables are spelled with an angle bracket at the end. -/
theorem getLast?_spell (former : Former) (names : List String) :
    (former.spell names).toList.getLast? = some (if former = .nullable then '>' else ']') := by
  cases former with
  | array => exact getLast?_arrayName _
  | nullable => exact getLast?_nullableName _
  | generic definition => exact getLast?_genericIndexName definition names

theorem eq_nullable_iff_of_spell {former other : Former} {names others : List String}
    (h : former.spell names = other.spell others) :
    former = .nullable ↔ other = .nullable := by
  have hlast := getLast?_spell former names
  rw [h, getLast?_spell] at hlast
  by_cases hleft : former = .nullable
  · by_cases hright : other = .nullable
    · exact iff_of_true hleft hright
    · rw [if_pos hleft, if_neg hright] at hlast
      cases hlast
  · by_cases hright : other = .nullable
    · rw [if_neg hleft, if_pos hright] at hlast
      cases hlast
    · exact iff_of_false hleft hright

section

variable {store : TypeStore} {made asked : Construction} {name : String}

theorem Names.exists_indexName (h : store.Names asked) :
    ∃ names, store.Called asked.components names ∧
      asked.indexName store = some (asked.former.spell names) := by
  obtain ⟨names, hnames⟩ := exists_called h.2
  exact ⟨names, hnames, indexName_eq_some.mpr ⟨names, hnames, rfl⟩⟩

/-- What is looked up under one name may be taken for one another. -/
theorem Indexed.resembles (h : store.Indexed) (hplain : (Call.construct made).IsPlain)
    (hplain' : (Call.construct asked).IsPlain) (hne : asked.components ≠ [])
    (hmade : made.indexName store = some name) (hasked : asked.indexName store = some name) :
    store.Resembles made asked := by
  obtain ⟨names, hnames, hspell⟩ := indexName_eq_some.mp hmade
  obtain ⟨others, hothers, rfl⟩ := indexName_eq_some.mp hasked
  have hnullable := eq_nullable_iff_of_spell hspell
  have hne' : others ≠ [] := by
    rintro rfl
    exact hne (List.forall₂_nil_right_iff.mp hothers)
  cases made with
  | array element =>
      cases asked with
      | array other =>
          obtain ⟨own, -, rfl⟩ := Called.eq_singleton hnames
          obtain ⟨otherOwn, -, rfl⟩ := Called.eq_singleton hothers
          obtain rfl : own = otherOwn := arrayName_inj hspell
          exact .alike rfl (h.forall₂_alike hnames hothers)
      | nullable inner => cases hnullable.mpr rfl
      | generic definition arguments =>
          exact absurd hspell.symm
            (genericIndexName_ne_arrayName (h.listable_called hothers) hne')
  | nullable inner =>
      cases asked with
      | array element => cases hnullable.mp rfl
      | nullable other =>
          obtain ⟨own, -, rfl⟩ := Called.eq_singleton hnames
          obtain ⟨otherOwn, -, rfl⟩ := Called.eq_singleton hothers
          obtain rfl : own = otherOwn := nullableName_inj hspell
          exact .alike rfl (h.forall₂_alike hnames hothers)
      | generic definition arguments => cases hnullable.mp rfl
  | generic definition arguments =>
      cases asked with
      | array element =>
          obtain ⟨own, hown, rfl⟩ := Called.eq_singleton hothers
          by_cases hnil : names = []
          · subst hnil
            obtain rfl : arguments = [] := List.forall₂_nil_right_iff.mp hnames
            have hname : definition = own :=
              arrayName_inj ((genericIndexName_nil definition).symm.trans hspell)
            exact .bare (hname ▸ hown)
          · exact absurd hspell (genericIndexName_ne_arrayName (h.listable_called hnames) hnil)
      | nullable inner => cases hnullable.mpr rfl
      | generic other others' =>
          obtain ⟨rfl, rfl⟩ := genericIndexName_inj hplain' hplain (h.listable_called hothers)
            (h.listable_called hnames) hne' hspell.symm
          exact .alike rfl (h.forall₂_alike hnames hothers)

/-- Two constructions are looked up under one name exactly if they are made in the same way of
components that are alike. -/
theorem Indexed.indexName_eq_iff (h : store.Indexed) (hplain : (Call.construct made).IsPlain)
    (hplain' : (Call.construct asked).IsPlain) (hmade : store.Names made)
    (hasked : store.Names asked) :
    made.indexName store = asked.indexName store ↔
      made.former = asked.former ∧
        List.Forall₂ store.Alike made.components asked.components := by
  obtain ⟨names, hnames, hname⟩ := hmade.exists_indexName
  constructor
  · intro hsame
    cases h.resembles hplain hplain' hasked.1 hname (hsame ▸ hname) with
    | alike hformer hcomponents => exact ⟨hformer, hcomponents⟩
    | bare _ => exact absurd rfl hmade.1
  · rintro ⟨hformer, hcomponents⟩
    have hcalled := h.called_of_alike hnames hcomponents hasked.2
    rw [hname, hformer]
    exact (indexName_eq_some.mpr ⟨names, hcalled, rfl⟩).symm

/-! ### What a construction leads to -/

theorem run_eq_addUnder (hname : asked.indexName store = some name) :
    asked.run store = store.addUnder name (asked.type store) := by
  show (Call.construct asked).run store = _
  rw [Call.run_eq, Call.indexName, hname]
  rfl

/-- A construction is indexed under its name once it is there. -/
theorem find?_run (hname : asked.indexName store = some name) :
    (asked.run store).2.find? name = some (asked.run store).1 :=
  find?_run_of_indexName store (.construct asked) hname

theorem Names.mono {next : TypeStore} (h : store.Names asked) (hgrows : store.Grows next) :
    next.Names asked := by
  refine ⟨h.1, ?_⟩
  intro component hmem
  obtain ⟨own, hown⟩ := Option.isSome_iff_exists.mp (h.2 component hmem)
  exact Option.isSome_iff_exists.mpr ⟨own, hgrows.fullNameOf hown⟩

/-- Under a known name there is what was spelled by it before, and under a new one what is put
there. -/
theorem Indexed.yields (h : store.Indexed) (hplain : (Call.construct asked).IsPlain)
    (hnames : store.Names asked) (hroom : (asked.run store).2.HasRoom) : store.Yields asked := by
  obtain ⟨names, -, hname⟩ := hnames.exists_indexName
  have htype := (grows_run store (.construct asked)).type hname
  change asked.type (asked.run store).2 = asked.type store at htype
  unfold Yields
  cases hfind : store.find? (asked.former.spell names) with
  | some key =>
      rw [run_eq_addUnder hname, addUnder_of_known hfind]
      obtain ⟨type, hfound, hspelled⟩ := h.found hfind
      cases hspelled with
      | own _ hown => exact absurd hown (not_ownName_spell _ _)
      | made hplain' hmade =>
          refine ⟨_, hfound, h.resembles hplain' hplain hnames.1 hmade hname, ?_⟩
          intro hnew
          cases hfound.symm.trans hnew
  | none =>
      refine ⟨asked, ?_, .alike rfl (List.forall₂_same.mpr fun _ _ => .inl rfl), fun _ => rfl⟩
      rw [htype]
      rw [run_eq_addUnder hname, addUnder_of_new hfind] at hroom ⊢
      rw [get?_push, if_pos (toNat_keyAt hroom.next_lt)]

end

/--
**Two constructions lead to one key exactly if they are the same but for components
that are alike.**  The calls before and between them may be any, as long as the names
in them are plain and there are keys for all types.  What is found at either key is
the construction that was asked for, if the key is new, or else one that resembles it.
-/
theorem run_key_eq_iff {store next : TypeStore} {first second : Construction}
    (hstore : TypeStore.empty.Reaches store) (hplain : (Call.construct first).IsPlain)
    (hnames : store.Names first) (hnext : (first.run store).2.Reaches next)
    (hplain' : (Call.construct second).IsPlain) (hnames' : next.Names second)
    (hroom : (second.run next).2.HasRoom) :
    ((first.run store).1 = (second.run next).1 ↔
        first.former = second.former ∧
          List.Forall₂ next.Alike first.components second.components) ∧
      store.Yields first ∧ next.Yields second := by
  have hgrowsFirst : store.Grows (first.run store).2 := grows_run store (.construct first)
  have hgrowsSecond : next.Grows (second.run next).2 := grows_run next (.construct second)
  have hroomNext : next.HasRoom := hgrowsSecond.hasRoom hroom
  have hroomFirst : (first.run store).2.HasRoom := hnext.grows.hasRoom hroomNext
  have hindexed : store.Indexed := hstore.indexed indexed_empty (hgrowsFirst.hasRoom hroomFirst)
  have hindexedFirst : (first.run store).2.Indexed := hindexed.run hplain hroomFirst
  have hindexedNext : next.Indexed := hnext.indexed hindexedFirst hroomNext
  have hindexedSecond : (second.run next).2.Indexed := hindexedNext.run hplain' hroom
  refine ⟨?_, hindexed.yields hplain hnames hroomFirst,
    hindexedNext.yields hplain' hnames' hroom⟩
  obtain ⟨called, -, hname⟩ := hnames.exists_indexName
  obtain ⟨called', -, hname'⟩ := hnames'.exists_indexName
  have hgrows : store.Grows next := hgrowsFirst.trans hnext.grows
  rw [← hindexedNext.indexName_eq_iff hplain hplain' (hnames.mono hgrows) hnames',
    hgrows.indexName hname, hname', Option.some.injEq]
  -- Both names are in the last store, where a name has one key and a key has one name.
  have hfind := hgrowsSecond.names (hnext.grows.names (find?_run hname))
  have hfind' := find?_run hname'
  constructor
  · intro hkey
    rw [hkey] at hfind
    exact hindexedSecond.apart hfind hfind'
  · intro hspell
    rw [hspell] at hfind
    exact Option.some.inj (hfind.symm.trans hfind')

/-- A task of a list of integers and one of a list of strings are one type. -/
theorem run_key_eq_of_lists :
    let lists := TypeStore.empty.afterCalls
      [.construct (.generic "List`1" [.int32]), .construct (.generic "List`1" [.string])]
    let ofIntegers := Construction.generic "Task`1" [⟨32⟩]
    let ofStrings := Construction.generic "Task`1" [⟨33⟩]
    ofIntegers ≠ ofStrings ∧
      (ofIntegers.run lists).1 = (ofStrings.run (ofIntegers.run lists).2).1 := by
  intro lists ofIntegers ofStrings
  refine ⟨by decide, ?_⟩
  have hlists : TypeStore.empty.Reaches lists := ⟨_, by decide +kernel, rfl⟩
  have hgeneric : (ofIntegers.run lists).2.IsGeneric ⟨32⟩ :=
    ⟨(Construction.generic "List`1" [.int32]).type .empty, [.int32], by decide +kernel, rfl⟩
  have halike : (ofIntegers.run lists).2.Alike ⟨32⟩ ⟨33⟩ :=
    .inr ⟨"List`1", by decide +kernel, by decide +kernel, .inl hgeneric⟩
  exact (run_key_eq_iff hlists (by decide +kernel) ⟨by decide, by decide +kernel⟩ ⟨[], by simp, rfl⟩
    (by decide +kernel) ⟨by decide, by decide +kernel⟩ (by decide +kernel)).1.mpr
    ⟨rfl, .cons halike .nil⟩

end TypeStore

end Interop
