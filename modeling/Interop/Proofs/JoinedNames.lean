/-
How a name is spelled that is put together from others.

A name is spelled character by character, and the one thing that is longer than a
character is an empty pair of brackets.  So a name may be cut anywhere and its pieces
spelled one by one, as long as no such pair is cut apart.  Where one is, it is missed:
each bracket alone becomes an underscore.

An opening bracket at the end of a name is not yet one of a pair, whatever stands before
it.  So brackets that are put behind a name are spelled as a pair of their own, also
behind a name that ends in brackets itself, and an array is called in C like its elements
with this spelling behind.
-/
import Interop.Proofs.FoundNames
import Interop.Proofs.Requests
import Interop.Proofs.SpelledNames
import Interop.Proofs.StoreKeys

namespace Interop

namespace Identifier

/-! ### Pieces of a name -/

/-- An empty pair of brackets stands across the border of two pieces. -/
def CutsBrackets (first second : List Char) : Prop :=
  first.getLast? = some '[' ∧ second.head? = some ']'

/-- A pair that is cut apart behind the first character is cut apart behind all of them. -/
theorem CutsBrackets.cons {first : Char} {rest second : List Char} (h : CutsBrackets rest second) :
    CutsBrackets (first :: rest) second := by
  obtain ⟨before, hrest⟩ := List.getLast?_eq_some_iff.mp h.1
  exact ⟨List.getLast?_eq_some_iff.mpr ⟨first :: before, congrArg (first :: ·) hrest⟩, h.2⟩

/-- A character that no pair of brackets starts with is spelled alone. -/
theorem spell_cons {first : Char} {rest : List Char} (h : ¬CutsBrackets [first] rest) :
    spell (first :: rest) = spellChar first ++ spell rest := by
  refine spell.eq_3 first rest ?_
  rintro others rfl rfl
  exact h ⟨rfl, rfl⟩

/-- **Pieces are spelled one by one** unless a pair of brackets is cut apart. -/
theorem spell_append {first second : List Char} (h : ¬CutsBrackets first second) :
    spell (first ++ second) = spell first ++ spell second := by
  fun_induction spell first with
  | case1 => rfl
  | case2 rest ih =>
      have hrest : ¬CutsBrackets rest second := fun hcut => h hcut.cons.cons
      rw [List.cons_append, List.cons_append, spell, ih hrest, List.append_assoc]
  | case3 c rest hne ih =>
      have hrest : ¬CutsBrackets rest second := fun hcut => h hcut.cons
      have hfirst : ¬CutsBrackets [c] (rest ++ second) := by
        rintro ⟨hlast, hhead⟩
        obtain rfl : c = '[' := by simpa using hlast
        cases rest with
        | nil => exact h ⟨rfl, hhead⟩
        | cons next others =>
            obtain rfl : next = ']' := by simpa using hhead
            exact hne others rfl rfl
      rw [List.cons_append, spell_cons hfirst, ih hrest, List.append_assoc]

/-- A pair of brackets is spelled as one, whatever stands around it. -/
theorem spell_append_brackets (before after : List Char) :
    spell (before ++ '[' :: ']' :: after) =
      spell before ++ ['_', 'A', 'r', 'r', 'a', 'y'] ++ spell after := by
  have hclear : ¬CutsBrackets before ('[' :: ']' :: after) := by
    rintro ⟨-, hhead⟩
    cases hhead
  rw [spell_append hclear, spell, List.append_assoc]

/-- Plain characters are left as they are. -/
theorem spell_of_isPlain {name : List Char} (h : ∀ c ∈ name, isPlain c = true) :
    spell name = name := by
  induction name with
  | nil => rfl
  | cons first rest ih =>
      obtain ⟨hfirst, hrest⟩ := List.forall_mem_cons.mp h
      have hbracket : ¬CutsBrackets [first] rest := by
        rintro ⟨hlast, -⟩
        obtain rfl : first = '[' := by simpa using hlast
        cases hfirst
      have hbacktick : first ≠ '\x60' := by
        rintro rfl
        cases hfirst
      rw [spell_cons hbracket, ih hrest, spellChar, if_neg hbacktick, if_pos hfirst,
        List.singleton_append]

/-! ### Names -/

theorem isPlain_iff {c : Char} : isPlain c = true ↔ c.isAlphanum = true ∨ c = '_' := by
  simp [isPlain]

theorem ofFullName_append_brackets (before after : String) :
    ofFullName (before ++ "[" ++ ("]" ++ after)) =
      ofFullName before ++ "_Array" ++ ofFullName after := by
  apply String.toList_injective
  simp [ofFullName, spell_append_brackets]

theorem ofFullName_arrayName (name : String) :
    ofFullName (arrayName name) = ofFullName name ++ "_Array" := by
  have hspell := ofFullName_append_brackets name ""
  rwa [String.append_empty, ← arrayName_eq, show ofFullName "" = "" from rfl,
    String.append_empty] at hspell

/-- Names are spelled one by one exactly if no pair of brackets is cut apart. -/
theorem ofFullName_append_iff (first second : String) :
    ofFullName (first ++ second) = ofFullName first ++ ofFullName second ↔
      ¬CutsBrackets first.toList second.toList := by
  constructor
  · rintro h ⟨hlast, hhead⟩
    obtain ⟨before, hfirst⟩ := List.getLast?_eq_some_iff.mp hlast
    obtain ⟨after, hsecond⟩ := List.head?_eq_some_iff.mp hhead
    -- One mark of six characters would have to be as long as two underscores.
    have hlength := congrArg (fun name => name.toList.length) h
    have hopening : ¬CutsBrackets before ['['] := fun hcut => by cases hcut.2
    have hclosing : spell (']' :: after) = '_' :: spell after := rfl
    simp only [ofFullName, String.toList_append, String.toList_ofList, hfirst, hsecond,
      List.append_assoc, List.singleton_append, spell_append_brackets, spell_append hopening,
      hclosing, List.length_append, List.length_cons, List.length_nil] at hlength
    have hone : (spell ['[']).length = 1 := rfl
    omega
  · intro h
    apply String.toList_injective
    simp [ofFullName, spell_append h]

end Identifier

namespace TypeStore

/-! ### Arrays -/

/-- The name of an array leads to its key, then and later. -/
theorem find?_registerArray {store next : TypeStore} {element : TypeKey} {name : String}
    (hgrows : (store.registerArray element).2.Grows next)
    (hname : store.fullNameOf element = some name) :
    next.find? (arrayName name) = some (store.registerArray element).1 := by
  have hindex : (Call.construct (.array element)).indexName store = some (arrayName name) := by
    rw [Call.indexName, Construction.indexName_array, hname]
    rfl
  exact hgrows.names (find?_run_of_indexName store (.construct (.array element)) hindex)

/-- An array that is described is called in C like its elements, with the spelling of brackets
behind, unless a generic type is taken for it. -/
theorem cTypeName_of_registerArray {store next : TypeStore} {element : TypeKey} {name : String}
    {type : ManagedType} {unspecified : Nullness} {description : Description}
    (hleads : next.LeadsTo GoesBy) (hgrows : (store.registerArray element).2.Grows next)
    (hname : store.fullNameOf element = some name)
    (htype : next.get? (store.registerArray element).1 = some type)
    (hshape : ∀ arguments, type.shape ≠ .generic arguments)
    (hdescribed : describeAfresh next.reflection unspecified (store.registerArray element).1 =
      .ok description) :
    description.cTypeName = Identifier.ofFullName name ++ "_Array" := by
  obtain ⟨found, hfound, hgoesBy⟩ := hleads (find?_registerArray hgrows hname)
  obtain rfl : found = type := Option.some.inj (hfound.symm.trans htype)
  obtain ⟨other, declaredName, parts, hother, -, hdeclared, -, rfl⟩ :=
    describeAlong_eq_ok hdescribed
  obtain rfl : other = found := Option.some.inj ((get?_of_reflection hother).symm.trans htype)
  have hfull : declaredName = arrayName name := by
    cases hgoesBy with
    | own hown => exact Option.some.inj (hdeclared.symm.trans hown)
    | applied _ hgeneric => exact absurd hgeneric (hshape _)
  have hplain : Description.buildCTypeName declaredName other.shape parts =
      Identifier.ofFullName declaredName := by
    unfold Description.buildCTypeName
    split
    · rename_i arguments hgeneric
      exact absurd hgeneric (hshape arguments)
    · rfl
  rw [Description.cTypeName_build, hplain, hfull, Identifier.ofFullName_arrayName]

/--
**Names are spelled piece by piece.**  A name is spelled with letters, digits and
underscores, and one that is made of these is left as it is, so spelling twice changes
nothing.  Two pieces are spelled one by one exactly if no empty pair of brackets is cut
apart between them, and where one is, it is spelled out in the whole.  So whatever a type
is called, and whatever was called before and after, the array over it has the C name of
the type with this spelling behind, unless the key that is found for the array is that of
a generic type.
-/
theorem names_spelled_by_pieces :
    (∀ name : String, ∀ c ∈ (Identifier.ofFullName name).toList,
      c.isAlphanum = true ∨ c = '_') ∧
    (∀ name : String, (∀ c ∈ name.toList, c.isAlphanum = true ∨ c = '_') →
      Identifier.ofFullName name = name) ∧
    (∀ name : String, Identifier.ofFullName (Identifier.ofFullName name) =
      Identifier.ofFullName name) ∧
    (∀ first second : String, Identifier.ofFullName (first ++ second) =
        Identifier.ofFullName first ++ Identifier.ofFullName second ↔
      ¬(first.toList.getLast? = some '[' ∧ second.toList.head? = some ']')) ∧
    (∀ before after : String, Identifier.ofFullName (before ++ "[" ++ ("]" ++ after)) =
      Identifier.ofFullName before ++ "_Array" ++ Identifier.ofFullName after) ∧
    ∀ (earlier later : List Call) (element : TypeKey) (name : String),
      let store := TypeStore.empty.afterCalls earlier
      let key := (store.registerArray element).1
      let last := (store.registerArray element).2.afterCalls later
      store.fullNameOf element = some name → last.HasRoom →
        ∃ type, last.get? key = some type ∧
          ((∀ arguments, type.shape ≠ .generic arguments) →
            ∀ unspecified requests description,
              ((describe last.reflection unspecified key).on
                (.afterRequests last.reflection unspecified requests)).1 = .ok description →
              description.cTypeName = Identifier.ofFullName name ++ "_Array") := by
  have hplain : ∀ name : String, ∀ c ∈ (Identifier.ofFullName name).toList,
      c.isAlphanum = true ∨ c = '_' := fun name c hc =>
    Identifier.isPlain_iff.mp (Identifier.isPlain_of_mem_ofFullName hc)
  have hkept : ∀ name : String, (∀ c ∈ name.toList, c.isAlphanum = true ∨ c = '_') →
      Identifier.ofFullName name = name := by
    intro name hname
    rw [Identifier.ofFullName,
      Identifier.spell_of_isPlain fun c hc => Identifier.isPlain_iff.mpr (hname c hc),
      String.ofList_toList]
  refine ⟨hplain, hkept, fun name => hkept _ (hplain name), Identifier.ofFullName_append_iff,
    Identifier.ofFullName_append_brackets, ?_⟩
  intro earlier later element name store key last hname hroom
  have hlast : last = TypeStore.empty.afterCalls
      (earlier ++ .construct (.array element) :: later) := by
    rw [afterCalls_append]
    rfl
  have hleads : last.LeadsTo GoesBy := by
    rw [hlast] at hroom ⊢
    exact leadsTo_empty.afterCalls _ hroom
  have hgrows : (store.registerArray element).2.Grows last := grows_afterCalls later _
  obtain ⟨type, htype, -⟩ := hleads (find?_registerArray hgrows hname)
  refine ⟨type, htype, fun hshape unspecified requests description hdescribed => ?_⟩
  rw [fst_on_describe] at hdescribed
  exact cTypeName_of_registerArray hleads hgrows hname htype hshape hdescribed

/-- A class is called by half a pair of brackets, and there are arrays over arrays of it. -/
theorem names_spelled_by_pieces_of_halves :
    let odd := ManagedType.namedClass "App.Odd["
    let store := TypeStore.empty.afterCalls [.declare odd, .construct (.array ⟨32⟩)]
    let last := (store.registerArray ⟨33⟩).2.afterCalls [.declare (.namedClass "App.Even]")]
    let described := ((describe last.reflection .nullable ⟨34⟩).on
      (.afterRequests last.reflection .nullable [⟨33⟩])).1
    Identifier.ofFullName "App_Odd__Array" = "App_Odd__Array" ∧
      Identifier.ofFullName ("App.Odd[" ++ "[]") =
        Identifier.ofFullName "App.Odd[" ++ Identifier.ofFullName "[]" ∧
      ¬(Identifier.ofFullName ("App.Odd[" ++ "]") =
        Identifier.ofFullName "App.Odd[" ++ Identifier.ofFullName "]") ∧
      store.fullNameOf ⟨33⟩ = some "App.Odd[[]" ∧ (store.registerArray ⟨33⟩).1 = ⟨34⟩ ∧
      described.toOption.isSome = true ∧
      ∀ description, described = .ok description →
        description.cTypeName = "App_Odd__Array_Array" := by
  intro odd store last described
  have hname : store.fullNameOf ⟨33⟩ = some "App.Odd[[]" := by decide +kernel
  have hkey : (store.registerArray ⟨33⟩).1 = ⟨34⟩ := by decide +kernel
  have hplain : "App_Odd__Array".toList.all Identifier.isPlain = true := by decide +kernel
  obtain ⟨-, hkept, -, hpieces, -, harray⟩ := names_spelled_by_pieces
  refine ⟨hkept _ fun c hc => Identifier.isPlain_iff.mp (List.all_eq_true.mp hplain c hc),
    (hpieces _ _).mpr (by decide),
    fun h => (hpieces _ _).mp h (by decide), hname, hkey, by decide +kernel, ?_⟩
  intro description hdescribed
  obtain ⟨type, htype, hcName⟩ :=
    harray [.declare odd, .construct (.array ⟨32⟩)] [.declare (.namedClass "App.Even]")] ⟨33⟩ _
      hname (by decide +kernel)
  have harrayType : last.get? ⟨34⟩ = some
      { name := "Odd[[][]", fullName := some "App.Odd[[][]", shape := .array ⟨33⟩ } := by
    decide +kernel
  rw [hkey] at htype hcName
  obtain rfl := Option.some.inj (harrayType.symm.trans htype)
  refine (hcName (fun _ => nofun) .nullable [⟨33⟩] description hdescribed).trans ?_
  decide +kernel

end TypeStore

end Interop
