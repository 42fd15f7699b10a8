/-
Managed types that are written down and read back.

A managed type is declared as a record, and so are its parts but for the keys and the
plain choices.  Under a lawful scheme each part is read back as it was written, from the
keys up to the type.  So a document says everything about the type it was written for,
and no two types have the same one.

A type is read from six fields that are found by their names.  Three of them may be
missing, and a missing one is read like null.  So the fields of a document can be told
in other ways: one that may be missing is left out where it is null, and fields with
names that nobody asks for stand among the others.  Nothing else is read from such a
document, and so it registers the same type.
-/
import Interop.Form.TypeForm
import Interop.Managed.TypeStore
import Interop.Proofs.LawfulSchemes

namespace Interop

namespace Scheme.Lawful

/-! ### Reading the parts of a type -/

section

variable {scheme : Scheme} (h : scheme.Lawful)

include h

theorem faithful_primitive : scheme.primitive.Faithful := h.faithful_ofNames

theorem faithful_nullability : scheme.nullability.Faithful := h.faithful_ofNames

theorem faithful_passing : scheme.passing.Faithful := h.faithful_ofNames

theorem faithful_key : scheme.key.Faithful := h.faithful_wrapped h.faithful_number fun _ => rfl

theorem faithful_shape : scheme.shape.Faithful := by
  refine h.faithful_choice fun alternative hmem => ?_
  obtain ⟨shape, -, rfl⟩ := List.mem_map.mp hmem
  have hprimitive := h.faithful_primitive
  have hkey := h.faithful_key
  cases shape with
  | void | string | classType | interfaceType | structType | delegate | byteSpan
  | genericParameter => trivial
  | primitive p => exact hprimitive
  | enumeration underlying => exact ⟨trivial, hprimitive⟩
  | array element => exact ⟨trivial, hkey⟩
  | generic arguments => exact ⟨trivial, h.faithful_list hkey⟩
  | nullable inner => exact ⟨trivial, hkey⟩
  | pointer pointee => exact ⟨trivial, hkey⟩

theorem faithful_param : scheme.param.Faithful :=
  h.faithful_record
    ⟨⟨⟨⟨trivial, h.faithful_text⟩, h.faithful_key⟩, h.faithful_passing⟩, h.faithful_nullability⟩

theorem faithful_signature : scheme.signature.Faithful :=
  h.faithful_record
    ⟨⟨⟨⟨trivial, h.faithful_list h.faithful_param⟩, h.faithful_key⟩, h.faithful_nullability⟩,
      h.faithful_flag⟩

theorem neverNull_text : scheme.text.NeverNull := fun value => by
  rw [h.write_text]
  nofun

theorem neverNull_key : scheme.key.NeverNull := fun value => by
  rw [key, h.write_wrapped, h.write_number]
  nofun

theorem neverNull_signature : scheme.signature.NeverNull := fun value => by
  rw [signature, h.write_record]
  nofun

/-- **A type is read back from its document.** -/
theorem faithful_managedType : scheme.managedType.Faithful := by
  have hfullName := h.faithful_optional h.faithful_text h.neverNull_text
  have hbase := h.faithful_optional h.faithful_key h.neverNull_key
  have hinvoke := h.faithful_optional h.faithful_signature h.neverNull_signature
  exact h.faithful_record
    ⟨⟨⟨⟨⟨⟨trivial, h.faithful_text⟩, hfullName⟩, h.faithful_shape⟩, hbase⟩,
      h.faithful_nullability⟩, hinvoke⟩

end

end Scheme.Lawful

/-! ### Telling a document in other ways -/

/-- Where one of the named fields is missing, it is read like null. -/
def Fields.MayLack (optional : List String) {α β : Type} : Fields α β → Prop
  | build _ => True
  | field earlier name _ codec =>
    earlier.MayLack optional ∧ (name ∈ optional → codec.missing? = codec.read? .null)

namespace Document

/-- The fields of a type. -/
def typeFields : List String := ["name", "full_name", "kind", "base", "nullability", "invoke"]

theorem names_typeRecord (scheme : Scheme) : scheme.typeRecord.fields.names = typeFields := rfl

/-- The fields of a type that may be missing. -/
def optionalFields : List String := ["full_name", "base", "invoke"]

/-- The fields of a document for a type, told in another way: an optional field that is null may
be left out, and fields that no type has may stand anywhere. -/
inductive Retold : List (String × Document) → List (String × Document) → Prop
  | nil : Retold [] []
  | keep {written told : List (String × Document)} (field : String × Document)
      (h : Retold written told) : Retold (field :: written) (field :: told)
  | leaveOut {written told : List (String × Document)} {name : String}
      (hname : name ∈ optionalFields) (h : Retold written told) :
      Retold ((name, .null) :: written) told
  | add {written told : List (String × Document)} {name : String} (content : Document)
      (hname : name ∉ typeFields) (h : Retold written told) :
      Retold written ((name, content) :: told)

namespace Retold

variable {written told : List (String × Document)} {name : String}

/-- A field that has to be there is told as it was written. -/
theorem lookup_eq (h : Retold written told) (hfield : name ∈ typeFields)
    (hrequired : name ∉ optionalFields) : told.lookup name = written.lookup name := by
  induction h with
  | nil => rfl
  | keep field _ ih => rw [List.lookup_cons, List.lookup_cons, ih]
  | leaveOut hname _ ih =>
      have hne := (ne_of_mem_of_not_mem hname hrequired).symm
      rw [List.lookup_cons, beq_false_of_ne hne, ih]
  | add content hname _ ih =>
      have hne := ne_of_mem_of_not_mem hfield hname
      rw [List.lookup_cons, beq_false_of_ne hne, ih]

/-- Any field is told as it was written, if a missing one is taken for null. -/
theorem getD_lookup_eq (h : Retold written told) (hfield : name ∈ typeFields)
    (hdistinct : (written.map Prod.fst).Nodup) :
    (told.lookup name).getD .null = (written.lookup name).getD .null := by
  induction h with
  | nil => rfl
  | keep field _ ih =>
      have ih := ih (List.nodup_cons.mp hdistinct).2
      rw [List.lookup_cons, List.lookup_cons]
      split
      · rfl
      · exact ih
  | @leaveOut rest told missing _ _ ih =>
      obtain ⟨hnew, hrest⟩ := List.nodup_cons.mp hdistinct
      rw [ih hrest, List.lookup_cons]
      by_cases hname : name = missing
      · subst hname
        have hnone : rest.lookup name = none := by
          rw [List.lookup_eq_none_iff]
          intro field hfield
          exact bne_iff_ne.mpr fun heq => hnew (List.mem_map.mpr ⟨field, hfield, heq.symm⟩)
        rw [hnone, beq_self_eq_true]
        rfl
      · rw [beq_false_of_ne hname]
  | add content hname _ ih =>
      have hne := ne_of_mem_of_not_mem hfield hname
      rw [List.lookup_cons, beq_false_of_ne hne, ih hdistinct]

/-- No field of a type is told twice if none was written twice. -/
theorem sublist (h : Retold written told) :
    ((told.map Prod.fst).filter (· ∈ typeFields)).Sublist (written.map Prod.fst) := by
  induction h with
  | nil => exact .slnil
  | keep field _ ih =>
      rw [List.map_cons, List.map_cons, List.filter_cons]
      split
      · exact ih.cons_cons _
      · exact ih.cons _
  | leaveOut _ _ ih => exact ih.cons _
  | add content hname _ ih =>
      rw [List.map_cons, List.filter_cons, if_neg (by simpa using hname)]
      exact ih

theorem readField?_eq {α : Type} {codec : Codec α} (h : Retold written told)
    (hfield : name ∈ typeFields) (hdistinct : (written.map Prod.fst).Nodup)
    (hmissing : name ∈ optionalFields → codec.missing? = codec.read? .null) :
    codec.readField? (told.lookup name) = codec.readField? (written.lookup name) := by
  by_cases hoptional : name ∈ optionalFields
  · have hnull (found : Option Document) :
        codec.readField? found = codec.read? (found.getD .null) := by
      cases found with
      | none => exact hmissing hoptional
      | some document => rfl
    rw [hnull, hnull, h.getD_lookup_eq hfield hdistinct]
  · rw [h.lookup_eq hfield hoptional]

/-- However the fields of a type are told, the same is read from them. -/
theorem readFrom_eq {α β : Type} {fields : Fields α β} (h : Retold written told)
    (hnames : fields.names ⊆ typeFields) (hdistinct : (written.map Prod.fst).Nodup)
    (hlack : fields.MayLack optionalFields) :
    fields.readFrom told = fields.readFrom written := by
  induction fields with
  | build _ => rfl
  | field earlier name get codec ih =>
      have hearlier := ih (fun other hother => hnames (List.mem_append_left _ hother)) hlack.1
      have hlast := h.readField?_eq (hnames (by simp [Fields.names])) hdistinct hlack.2
      rw [Fields.readFrom, Fields.readFrom, hearlier, hlast]

end Retold

end Document

namespace Scheme.Lawful

open Document

variable {scheme : Scheme} (h : scheme.Lawful)

include h

/-- The fields of a type that may be missing hold values that may be absent. -/
theorem mayLack_typeRecord : scheme.typeRecord.fields.MayLack optionalFields := by
  have hoptional {α : Type} (codec : Codec α) :
      (scheme.optional codec).missing? = (scheme.optional codec).read? .null := by
    rw [h.missing_optional, h.read_null]
  refine ⟨⟨⟨⟨⟨⟨trivial, ?_⟩, fun _ => hoptional _⟩, ?_⟩, fun _ => hoptional _⟩, ?_⟩,
    fun _ => hoptional _⟩
  all_goals exact fun hname => absurd hname (by decide)

/-- **What a document tells is read alike, however its fields are told.** -/
theorem read?_retold {type : ManagedType} {told : List (String × Document)}
    (htold : Retold (scheme.typeRecord.fields.entries type) told) :
    scheme.managedType.read? (.object told) = some type := by
  have hdistinct : ((scheme.typeRecord.fields.entries type).map Prod.fst).Nodup := by
    rw [Fields.map_fst_entries]
    exact scheme.typeRecord.distinct
  have honce : scheme.typeRecord.GivenOnce told := hdistinct.sublist htold.sublist
  have hwritten := h.read_record scheme.typeRecord (scheme.typeRecord.givenOnce_entries type)
  rw [managedType, h.read_record _ honce,
    htold.readFrom_eq (List.Subset.refl _) hdistinct h.mayLack_typeRecord, ← hwritten,
    ← h.write_record]
  exact h.faithful_managedType type

/--
**Types are read back as they were written.**  Under any lawful scheme the document of a
type is read as this type, so two types never share a document, and what it registers in
a store is the type.  The document is an object with the fields of a type, and however
these fields are told, with optional ones left out where they are null and with any
others added, the same type is read and registered.
-/
theorem types_read_back :
    Function.Injective scheme.managedType.write ∧
    ∀ (type : ManagedType) (store : TypeStore),
      scheme.managedType.read? (scheme.managedType.write type) = some type ∧
      (scheme.managedType.read? (scheme.managedType.write type)).map store.register =
        some (store.register type) ∧
      ∃ written, scheme.managedType.write type = .object written ∧
        written.map Prod.fst = typeFields ∧
        ∀ told, Retold written told →
          scheme.managedType.read? (.object told) = some type ∧
          (scheme.managedType.read? (.object told)).map store.register =
            some (store.register type) := by
  have hread := h.faithful_managedType
  refine ⟨fun type other heq => ?_, fun type store => ⟨hread type, ?_,
    scheme.typeRecord.fields.entries type, h.write_record _ type, ?_, ?_⟩⟩
  · have hsame : some type = some other := by rw [← hread type, ← hread other, heq]
    exact Option.some.inj hsame
  · rw [hread, Option.map_some]
  · rw [Fields.map_fst_entries, names_typeRecord]
  · intro told htold
    have htype := h.read?_retold htold
    exact ⟨htype, by rw [htype, Option.map_some]⟩

end Scheme.Lawful

namespace Document

/-- A delegate that is derived from nothing. -/
def rootless : ManagedType where
  name := "Callback"
  fullName := some "App.Callback"
  shape := .delegate
  invoke := some { params := [{ name := "x", type := .int32, passing := .output }],
                   returnType := .void }

/-- Its document without a base, and with fields that no type has. -/
def retoldRootless : List (String × Document) :=
  [("version", .integer 2), ("name", .string "Callback"), ("full_name", .string "App.Callback"),
    ("kind", .string "Delegate"), ("Base", .bool true), ("nullability", .string "NotSpecified"),
    ("invoke", .object
      [("params", .array [.object
          [("name", .string "x"), ("ty", .integer 7), ("mode", .string "Out"),
            ("nullability", .string "NotSpecified")]]),
        ("return_type", .integer 0), ("return_nullability", .string "NotSpecified"),
        ("returns_by_ref", .bool false)]),
    ("version", .null)]

/-- From these fields the delegate is read. -/
theorem types_read_back_rootless :
    Scheme.json.Lawful ∧
    ∃ written, Scheme.json.managedType.write rootless = .object written ∧
      Retold written retoldRootless ∧
      Scheme.json.managedType.read? (.object retoldRootless) = some rootless := by
  obtain ⟨written, hwritten, -, htold⟩ :=
    (Scheme.json_lawful.types_read_back.2 rootless .empty).2.2
  have hretold : Retold written retoldRootless := by
    cases hwritten
    exact .add _ (by decide) <| .keep _ <| .keep _ <| .keep _ <| .leaveOut (by decide) <|
      .add _ (by decide) <| .keep _ <| .keep _ <| .add _ (by decide) .nil
  exact ⟨Scheme.json_lawful, written, hwritten, hretold, (htold _ hretold).1⟩

end Document

end Interop
