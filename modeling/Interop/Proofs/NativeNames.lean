/-
Which delegates share their native declarations.

The declarations of a type are found by a C identifier that is spelled after its full
name.  Two delegates never have the same full name, but spelling forgets which
character stood where an underscore stands now, so two names can be spelled alike.
Then the bindings of both call the same native function.

That is also the only way: what bindings mention of the native layer differs exactly
if the identifiers do, and names that need no more than letters, digits and dots are
spelled apart.
-/
import Interop.Proofs.Accounting
import Interop.Proofs.Written

namespace Interop

/-! ### Spelling -/

namespace Identifier

/-- The name is made of ASCII letters, digits and dots. -/
def IsDotted (name : String) : Prop := ∀ c ∈ name.toList, c.isAlphanum = true ∨ c = '.'

instance (name : String) : Decidable (IsDotted name) :=
  decidable_of_iff (name.toList.all (fun c => c.isAlphanum || c == '.') = true)
    (by simp [IsDotted])

/-- What an underscore stands for in the spelling of such a name. -/
def unspell (c : Char) : Char := if c = '_' then '.' else c

/-- Such a character is spelled by one that tells it. -/
theorem exists_spellChar {c : Char} (h : c.isAlphanum = true ∨ c = '.') :
    c ≠ '[' ∧ ∃ spelled, spellChar c = [spelled] ∧ unspell spelled = c := by
  rcases h with h | rfl
  · have hbracket : c ≠ '[' := by rintro rfl; cases h
    have hbacktick : c ≠ '\x60' := by rintro rfl; cases h
    have hunderscore : c ≠ '_' := by rintro rfl; cases h
    refine ⟨hbracket, c, ?_, ?_⟩
    · simp [spellChar, isPlain, h, hbacktick]
    · simp [unspell, hunderscore]
  · exact ⟨by decide, '_', by decide, by decide⟩

/-- The spelling of such a name can be undone. -/
theorem map_unspell_spell {name : List Char} (h : ∀ c ∈ name, c.isAlphanum = true ∨ c = '.') :
    (spell name).map unspell = name := by
  induction name with
  | nil => rfl
  | cons first rest ih =>
      obtain ⟨hfirst, hrest⟩ := List.forall_mem_cons.mp h
      obtain ⟨hbracket, spelled, hspelled, hundone⟩ := exists_spellChar hfirst
      have hspell : spell (first :: rest) = spellChar first ++ spell rest := by
        simp [spell, hbracket]
      rw [hspell, hspelled, List.singleton_append, List.map_cons, hundone, ih hrest]

/-- **Names of letters, digits and dots are spelled apart.** -/
theorem ofFullName_inj_of_dotted {name other : String} (hname : IsDotted name)
    (hother : IsDotted other) (h : ofFullName name = ofFullName other) : name = other := by
  have hspell : spell name.toList = spell other.toList := String.ofList_injective h
  apply String.toList_injective
  rw [← map_unspell_spell hname, hspell, map_unspell_spell hother]

end Identifier

/-! ### The native layer -/

namespace NativeLayer

/-- All declarations of the layer follow from the names of the types. -/
def FollowsNames (layer : NativeLayer) (types : Reflection) : Prop :=
  ∀ ⦃key symbols⦄, layer.get? key = some symbols → conventionalSymbols? types key = some symbols

/-- The declarations of the conventional layer are those that follow from the names of its types. -/
theorem get?_conventional (types : Reflection) (keys : List TypeKey) (key : TypeKey) :
    (conventional types keys).get? key =
      if key ∈ keys then conventionalSymbols? types key else none := by
  have hempty : (if key ∈ keys then conventionalSymbols? types key else none) =
      if key ∈ keys then (conventionalSymbols? types key).or (empty.get? key)
      else empty.get? key := by
    rw [show empty.get? key = none from rfl, Option.or_none]
  -- what is already in the layer comes second to what follows from the names
  rw [hempty]
  clear hempty
  unfold conventional
  generalize empty = layer
  induction keys generalizing layer with
  | nil => rfl
  | cons first rest ih =>
      rw [List.foldl_cons, ih]
      by_cases hfirst : key = first
      · subst hfirst
        cases hsymbols : conventionalSymbols? types key <;> simp [get?_record]
      · cases conventionalSymbols? types first <;> simp [get?_record, hfirst]

/-- The conventional layer does, whichever types it is for. -/
theorem followsNames_conventional (types : Reflection) (keys : List TypeKey) :
    (conventional types keys).FollowsNames types := by
  intro key symbols hsymbols
  rw [get?_conventional] at hsymbols
  split at hsymbols
  · exact hsymbols
  · cases hsymbols

end NativeLayer

/-! ### Bindings -/

section

variable {types : Reflection} {settings : Settings} {native : NativeLayer} {key : TypeKey}

/-- What bindings mention of the native layer: the type of the destructor, the type of the
callback, and the function that is called. -/
def Wrapper.symbols : List (Wrapper → String) :=
  [(·.createDestructor.returnType), (·.createCallable.returnType), (·.invoke.nativeFunction)]

/-- Over a conventional layer bindings are those of a delegate under its own name, and all that they
mention of the layer is spelled after it. -/
theorem wrapAfresh_conventional {wrapper : Wrapper} (hnative : native.FollowsNames types)
    (h : wrapAfresh types settings native key = some (.ok wrapper)) :
    wrapper.key = key ∧
    (∃ type, types.get? key = some type ∧ type.fullName = some wrapper.fullTypeName ∧
      type.shape = .delegate) ∧
    wrapper.createDestructor.returnType =
      Identifier.ofFullName wrapper.fullTypeName ++ "_CDestructorFunction_t" ∧
    wrapper.createCallable.returnType =
      Identifier.ofFullName wrapper.fullTypeName ++ "_CFunction_t" ∧
    wrapper.invoke.nativeFunction =
      Identifier.ofFullName wrapper.fullTypeName ++ "_Invoke" := by
  obtain ⟨type, fullName, symbols, delegate, hnamed, hsymbols, -, -, hkey, hfull, hwritten⟩ :=
    wrapAfresh_eq_ok h
  obtain ⟨htype, hname, hshape⟩ := namedDelegateAt_eq_ok hnamed
  have hconventional : symbols = .conventional (Identifier.ofFullName fullName) := by
    have hfollows := hnative hsymbols
    rw [NativeLayer.conventionalSymbols?, htype, Option.bind_some, hname] at hfollows
    exact (Option.some.inj hfollows).symm
  obtain ⟨hcallable, hdestructor, hinvoke⟩ := hwritten.symbols_eq
  rw [hcallable, hdestructor, hinvoke, hconventional, hfull]
  exact ⟨hkey, ⟨type, htype, hname, hshape⟩, rfl, rfl, rfl⟩

/-- The bindings of a harvest are those of its trials. -/
theorem Harvest.mem_wrappers_ofTrials {trials : List Trial} {wrapper : Wrapper}
    (h : wrapper ∈ (ofTrials trials).wrappers) : ∃ trial ∈ trials, trial.outcome = .ok wrapper := by
  obtain ⟨artifact, hartifact, hwrapper⟩ := List.mem_filterMap.mp h
  obtain ⟨trial, htrial, rfl⟩ := List.mem_map.mp hartifact
  refine ⟨trial, htrial, ?_⟩
  cases hout : trial.outcome with
  | ok found =>
      simp only [Artifact.wrapper?, Trial.artifact, hout, Option.some.injEq] at hwrapper
      rw [hwrapper]
  | error refusal =>
      simp only [Artifact.wrapper?, Trial.artifact, hout] at hwrapper
      cases hfatal : refusal.isFatal <;> simp [hfatal] at hwrapper

end

namespace Batch

variable {batch : Batch}

/--
**Delegates share native declarations exactly if their names are spelled alike.**
Over any store and a conventional native layer, and for either host, bindings of
two delegates are for two full names.  They mention the same destructor type, the
same callback type or the same native function exactly if both names are spelled as
one identifier, and names of letters, digits and dots never are.
-/
theorem generate_symbol_eq_iff {calls : List Call}
    (htypes : batch.types = (TypeStore.empty.afterCalls calls).reflection)
    (hnative : batch.native = .conventional batch.types batch.types.keys)
    {keys : List TypeKey} {harvest : Harvest} {catalogue after : Catalogue}
    (hreached : catalogue.Reached batch.types batch.settings.unspecified)
    (hrun : (batch.generate keys).run catalogue = some (harvest, after))
    {first second : Wrapper} (hfirst : first ∈ harvest.wrappers)
    (hsecond : second ∈ harvest.wrappers) (hkeys : first.key ≠ second.key) :
    first.fullTypeName ≠ second.fullTypeName ∧
    ∀ symbol ∈ Wrapper.symbols,
      (symbol first = symbol second ↔
        Identifier.ofFullName first.fullTypeName = Identifier.ofFullName second.fullTypeName) ∧
      (Identifier.IsDotted first.fullTypeName → Identifier.IsDotted second.fullTypeName →
        symbol first ≠ symbol second) := by
  obtain ⟨trials, rfl, -, houtcomes⟩ := generate_eq_some hreached hrun
  have hfollows : batch.native.FollowsNames batch.types :=
    hnative ▸ NativeLayer.followsNames_conventional _ _
  have hwritten : ∀ wrapper ∈ (Harvest.ofTrials trials).wrappers,
      wrapAfresh batch.types batch.settings batch.native wrapper.key = some (.ok wrapper) := by
    intro wrapper hwrapper
    obtain ⟨trial, htrial, hout⟩ := Harvest.mem_wrappers_ofTrials hwrapper
    have hafresh := houtcomes trial htrial
    rw [hout] at hafresh
    rwa [(wrapAfresh_conventional hfollows hafresh).1]
  obtain ⟨-, ⟨type, htype, hname, hshape⟩, hdestructor, hcallback, hinvoke⟩ :=
    wrapAfresh_conventional hfollows (hwritten first hfirst)
  obtain ⟨-, ⟨type', htype', hname', hshape'⟩, hdestructor', hcallback', hinvoke'⟩ :=
    wrapAfresh_conventional hfollows (hwritten second hsecond)
  have hnames : first.fullTypeName ≠ second.fullTypeName := by
    intro hsame
    rw [htypes] at htype htype'
    refine hkeys ((TypeStore.namesLead_afterCalls calls TypeStore.namesLead_empty).key_eq
      (TypeStore.get?_of_reflection htype) (TypeStore.get?_of_reflection htype')
      (hsame ▸ hname) hname' ?_ ?_)
    · simp [hshape]
    · simp [hshape']
  have hiff : ∀ symbol ∈ Wrapper.symbols, symbol first = symbol second ↔
      Identifier.ofFullName first.fullTypeName = Identifier.ofFullName second.fullTypeName := by
    simp only [Wrapper.symbols, List.forall_mem_cons, hdestructor, hdestructor', hcallback,
      hcallback', hinvoke, hinvoke', String.append_left_inj]
    simp
  refine ⟨hnames, fun symbol hsymbol => ⟨hiff symbol hsymbol, ?_⟩⟩
  intro hdotted hdotted' hsame
  have hspelled := (hiff symbol hsymbol).mp hsame
  exact hnames (Identifier.ofFullName_inj_of_dotted hdotted hdotted' hspelled)

/-- Three delegates without parameters; two of them have names that are spelled alike. -/
def clashing : Batch :=
  let done : Signature := { params := [], returnType := .void }
  let types := (TypeStore.empty.afterCalls
    [.declare (.namedDelegate "A.B" done), .declare (.namedDelegate "A_B" done),
      .declare (.namedDelegate "A.C" done)]).reflection
  { types, native := .conventional types types.keys }

/-- The bindings of two delegates call the same native function, and those of a third call another
one. -/
theorem generateAll_clashing :
    ∃ (harvest : Harvest) (after : Catalogue) (first second third : Wrapper),
      clashing.generateAll.run .empty = some (harvest, after) ∧
      harvest.wrappers = [first, second, third] ∧
      [first.key, second.key, third.key] = [⟨32⟩, ⟨33⟩, ⟨34⟩] ∧
      [first.fullTypeName, second.fullTypeName, third.fullTypeName] = ["A.B", "A_B", "A.C"] ∧
      ∀ symbol ∈ Wrapper.symbols, symbol first = symbol second ∧ symbol first ≠ symbol third := by
  have hnames : (clashing.generateAll.run .empty).map (fun (harvest, _) =>
      harvest.wrappers.map fun wrapper => (wrapper.key, wrapper.fullTypeName)) =
      some [(⟨32⟩, "A.B"), (⟨33⟩, "A_B"), (⟨34⟩, "A.C")] := by decide +kernel
  obtain ⟨⟨harvest, after⟩, hrun, hwrappers⟩ := Option.map_eq_some_iff.mp hnames
  obtain ⟨first, rest, hfirsts, hfirst, hrest⟩ := List.map_eq_cons_iff.mp hwrappers
  obtain ⟨second, rest, rfl, hsecond, hrest⟩ := List.map_eq_cons_iff.mp hrest
  obtain ⟨third, rest, rfl, hthird, hrest⟩ := List.map_eq_cons_iff.mp hrest
  obtain rfl := List.map_eq_nil_iff.mp hrest
  obtain ⟨hkey, hname⟩ := Prod.mk.inj hfirst
  obtain ⟨hkey', hname'⟩ := Prod.mk.inj hsecond
  obtain ⟨hkey'', hname''⟩ := Prod.mk.inj hthird
  change harvest.wrappers = _ at hfirsts
  have hnative : clashing.native = .conventional clashing.types clashing.types.keys := by
    dsimp only [clashing]
  have hclash := generate_symbol_eq_iff rfl hnative Catalogue.reached_empty hrun
    (show first ∈ harvest.wrappers by simp [hfirsts])
    (show second ∈ harvest.wrappers by simp [hfirsts]) (by rw [hkey, hkey']; decide)
  have happart := generate_symbol_eq_iff rfl hnative Catalogue.reached_empty hrun
    (show first ∈ harvest.wrappers by simp [hfirsts])
    (show third ∈ harvest.wrappers by simp [hfirsts]) (by rw [hkey, hkey'']; decide)
  refine ⟨harvest, after, first, second, third, hrun, hfirsts, by rw [hkey, hkey', hkey''],
    by rw [hname, hname', hname''], fun symbol hsymbol => ⟨?_, ?_⟩⟩
  · refine (hclash.2 symbol hsymbol).1.mpr ?_
    rw [hname, hname']
    decide +kernel
  · refine (happart.2 symbol hsymbol).2 ?_ ?_
    · rw [hname]
      decide +kernel
    · rw [hname'']
      decide +kernel

end Batch

end Interop
