/-
What is relied on of a scheme.

A scheme comes from another program, so it is known only by its laws.  They say of each
of its codecs, and of each way to make one, what is written and what is read from it:
an absent value is null, a record is an object with its fields, and an alternative is
told by its name.  They say nothing about documents that are never written, except that
the fields of an object are found by their names, whatever stands among them.

No law says that anything is read back.  For plain values that is seen at once.  For all
others it follows along the declarations, from the codecs that these are made of.
-/
import Interop.Form.JsonScheme
import Interop.Proofs.FirstFailure
import Mathlib.Data.List.Nodup

namespace Interop

/-! ### The laws -/

/-- What a scheme writes, and what it reads from that. -/
structure Scheme.Lawful (scheme : Scheme) : Prop where
  write_text (value : String) : scheme.text.write value = .string value
  read_text (value : String) : scheme.text.read? (.string value) = some value
  write_flag (value : Bool) : scheme.flag.write value = .bool value
  read_flag (value : Bool) : scheme.flag.read? (.bool value) = some value
  write_number (value : UInt32) : scheme.number.write value = .integer (.ofNat value.toNat)
  read_number (value : UInt32) :
    scheme.number.read? (.integer (.ofNat value.toNat)) = some value
  write_list {α : Type} (codec : Codec α) (values : List α) :
    (scheme.list codec).write values = .array (values.map codec.write)
  read_list {α : Type} (codec : Codec α) (items : List Document) :
    (scheme.list codec).read? (.array items) = items.mapM codec.read?
  write_none {α : Type} (codec : Codec α) : (scheme.optional codec).write none = .null
  write_some {α : Type} (codec : Codec α) (value : α) :
    (scheme.optional codec).write (some value) = codec.write value
  read_null {α : Type} (codec : Codec α) : (scheme.optional codec).read? .null = some none
  read_some {α : Type} (codec : Codec α) {document : Document} (h : document ≠ .null) :
    (scheme.optional codec).read? document = (codec.read? document).map some
  /-- An absent value may be left out of a record. -/
  missing_optional {α : Type} (codec : Codec α) :
    (scheme.optional codec).missing? = some none
  write_wrapped {α β : Type} (make : β → α) (get : α → β) (codec : Codec β) (value : α) :
    (scheme.wrapped make get codec).write value = codec.write (get value)
  read_wrapped {α β : Type} (make : β → α) (get : α → β) (codec : Codec β)
    (document : Document) :
    (scheme.wrapped make get codec).read? document = (codec.read? document).map make
  write_record {α : Type} (record : Record α) (value : α) :
    (scheme.record record).write value = .object (record.fields.entries value)
  /-- The fields of an object are found by their names, and others are passed over. -/
  read_record {α : Type} (record : Record α) {given : List (String × Document)}
    (h : record.GivenOnce given) :
    (scheme.record record).read? (.object given) = record.fields.readFrom given
  write_choice {α : Type} (choice : Choice α) (value : α) :
    (scheme.choice choice).write value = (choice.tell value).1.document (choice.tell value).2
  read_plain {α : Type} (choice : Choice α) {name : String} {value : α}
    (h : .plain name value ∈ choice.alternatives) :
    (scheme.choice choice).read? (.string name) = some value
  read_holding {α β : Type} (choice : Choice α) {name : String} {codec : Codec β}
    {make : β → α} (h : .holding name codec make ∈ choice.alternatives) (content : Document) :
    (scheme.choice choice).read? (.object [(name, content)]) = (codec.read? content).map make
  read_withFields {α β : Type} (choice : Choice α) {name : String} {record : Record β}
    {make : β → α} (h : .withFields name record make ∈ choice.alternatives)
    {given : List (String × Document)} (hgiven : record.GivenOnce given) :
    (scheme.choice choice).read? (.object [(name, .object given)]) =
      (record.fields.readFrom given).map make

/-! ### The scheme of the documents -/

/-- An alternative is found by its name. -/
theorem Choice.find?_alternatives {α : Type} (choice : Choice α) {alternative : Alternative α}
    (h : alternative ∈ choice.alternatives) (name : String) (hname : alternative.name = name) :
    choice.alternatives.find? (·.name == name) = some alternative := by
  subst hname
  cases hfind : choice.alternatives.find? (·.name == alternative.name) with
  | none => simpa using List.find?_eq_none.mp hfind alternative h
  | some found =>
      have hname : found.name = alternative.name := by simpa using List.find?_some hfind
      rw [List.inj_on_of_nodup_map choice.distinct (List.mem_of_find?_eq_some hfind) h hname]

/-- **Documents are exchanged under a lawful scheme.** -/
theorem Scheme.json_lawful : json.Lawful where
  write_text _ := rfl
  read_text _ := rfl
  write_flag _ := rfl
  read_flag _ := rfl
  write_number _ := rfl
  read_number value := by
    show (if value.toNat < UInt32.size then some _ else none) = _
    rw [if_pos value.toNat_lt_size, UInt32.ofNat_toNat]
  write_list _ _ := rfl
  read_list _ _ := rfl
  write_none _ := rfl
  write_some _ _ := rfl
  read_null _ := rfl
  read_some _ document h := by
    cases document with
    | null => exact absurd rfl h
    | bool | integer | fraction | string | array | object => rfl
  missing_optional _ := rfl
  write_wrapped _ _ _ _ := rfl
  read_wrapped _ _ _ _ := rfl
  write_record _ _ := rfl
  read_record _ _ h := if_pos h
  write_choice _ _ := rfl
  read_plain choice name value h := by
    show Document.choice? choice (.string name) = _
    rw [Document.choice?, choice.find?_alternatives h name rfl]
  read_holding choice name codec make h content := by
    show (choice.alternatives.find? (·.name == name)).bind _ = _
    rw [choice.find?_alternatives h name rfl]
    rfl
  read_withFields choice name record make h given hgiven := by
    show (choice.alternatives.find? (·.name == name)).bind _ = _
    rw [choice.find?_alternatives h name rfl]
    show (if record.GivenOnce given then _ else none).map make = _
    rw [if_pos hgiven]

/-! ### Reading back -/

/-- What is written is read back. -/
def Codec.Faithful {α : Type} (codec : Codec α) : Prop :=
  ∀ value, codec.read? (codec.write value) = some value

/-- Null is never written. -/
def Codec.NeverNull {α : Type} (codec : Codec α) : Prop :=
  ∀ value, codec.write value ≠ .null

namespace Fields

variable {α : Type}

def Faithful {β : Type} : Fields α β → Prop
  | build _ => True
  | field earlier _ _ codec => earlier.Faithful ∧ codec.Faithful

theorem map_fst_entries {β : Type} (fields : Fields α β) (value : α) :
    (fields.entries value).map Prod.fst = fields.names := by
  induction fields with
  | build _ => rfl
  | field earlier name get codec ih => rw [entries, List.map_append, ih]; rfl

/-- A record is built again of its fields, where they are found by their names. -/
theorem readFrom_of_lookup {β : Type} {fields : Fields α β} (h : fields.Faithful)
    {given : List (String × Document)} {value : α}
    (hgiven : ∀ entry ∈ fields.entries value, given.lookup entry.1 = some entry.2) :
    fields.readFrom given = some (fields.rebuild value) := by
  induction fields with
  | build _ => rfl
  | field earlier name get codec ih =>
      rw [entries] at hgiven
      have hlast := hgiven (name, codec.write (get value)) (by simp)
      rw [readFrom, ih h.1 fun entry hentry => hgiven entry (List.mem_append_left _ hentry), hlast]
      simp [Codec.readField?, h.2 (get value), rebuild]

end Fields

/-- Among distinct names each is found with what stands next to it. -/
theorem lookup_of_mem {given : List (String × Document)} (hdistinct : (given.map Prod.fst).Nodup)
    {entry : String × Document} (hmem : entry ∈ given) :
    given.lookup entry.1 = some entry.2 := by
  obtain ⟨before, after, rfl⟩ := List.append_of_mem hmem
  refine List.lookup_eq_some_iff.mpr ⟨before, after, rfl, fun other hother => ?_⟩
  rw [List.map_append, List.nodup_append] at hdistinct
  have hne := hdistinct.2.2 other.1 (List.mem_map_of_mem hother) entry.1 (by simp)
  exact bne_iff_ne.mpr hne.symm

namespace Record

variable {α : Type} (record : Record α)

theorem givenOnce_entries (value : α) : record.GivenOnce (record.fields.entries value) := by
  rw [GivenOnce, record.fields.map_fst_entries]
  exact record.distinct.filter _

theorem readFrom_entries (h : record.fields.Faithful) (value : α) :
    record.fields.readFrom (record.fields.entries value) = some value := by
  have hdistinct : ((record.fields.entries value).map Prod.fst).Nodup := by
    rw [record.fields.map_fst_entries]
    exact record.distinct
  rw [Fields.readFrom_of_lookup h fun entry hentry => lookup_of_mem hdistinct hentry,
    record.rebuild]

end Record

def Alternative.Faithful {α : Type} : Alternative α → Prop
  | .plain _ _ => True
  | .holding _ codec _ => codec.Faithful
  | .withFields _ record _ => record.fields.Faithful

namespace Scheme.Lawful

variable {scheme : Scheme} {α β : Type}

section

variable (h : scheme.Lawful)

include h

theorem faithful_text : scheme.text.Faithful := fun value => by
  rw [h.write_text, h.read_text]

theorem faithful_flag : scheme.flag.Faithful := fun value => by
  rw [h.write_flag, h.read_flag]

theorem faithful_number : scheme.number.Faithful := fun value => by
  rw [h.write_number, h.read_number]

theorem faithful_list {codec : Codec α} (hcodec : codec.Faithful) :
    (scheme.list codec).Faithful := by
  intro values
  rw [h.write_list, h.read_list, mapM_eq_some_iff, List.forall₂_map_left_iff, List.forall₂_same]
  exact fun value _ => hcodec value

/-- Where no value is written as null, null says that there is none. -/
theorem faithful_optional {codec : Codec α} (hcodec : codec.Faithful) (hnull : codec.NeverNull) :
    (scheme.optional codec).Faithful := by
  intro value
  cases value with
  | none => rw [h.write_none, h.read_null]
  | some value => rw [h.write_some, h.read_some codec (hnull value), hcodec, Option.map_some]

theorem faithful_wrapped {make : β → α} {get : α → β} {codec : Codec β}
    (hcodec : codec.Faithful) (hmake : ∀ value, make (get value) = value) :
    (scheme.wrapped make get codec).Faithful := by
  intro value
  rw [h.write_wrapped, h.read_wrapped, hcodec, Option.map_some, hmake]

/-- **A record is read back if its fields are.** -/
theorem faithful_record {record : Record α} (hfields : record.fields.Faithful) :
    (scheme.record record).Faithful := by
  intro value
  rw [h.write_record, h.read_record record (record.givenOnce_entries value),
    record.readFrom_entries hfields]

/-- An alternative is read back if what it holds is. -/
theorem read_document {choice : Choice α} {alternative : Alternative α}
    (hmem : alternative ∈ choice.alternatives) (hfaithful : alternative.Faithful)
    (content : alternative.Content) :
    (scheme.choice choice).read? (alternative.document content) =
      some (alternative.value content) := by
  cases alternative with
  | plain name value => exact h.read_plain choice hmem
  | holding name codec make =>
      exact (h.read_holding choice hmem _).trans (congrArg (Option.map make) (hfaithful content))
  | withFields name record make =>
      refine (h.read_withFields choice hmem (record.givenOnce_entries content)).trans ?_
      exact congrArg (Option.map make) (record.readFrom_entries hfaithful content)

/-- **A choice is read back if all its alternatives are.** -/
theorem faithful_choice {choice : Choice α}
    (hall : ∀ alternative ∈ choice.alternatives, alternative.Faithful) :
    (scheme.choice choice).Faithful := by
  intro value
  have hmem := choice.mem_alternatives value
  rw [h.write_choice, h.read_document hmem (hall _ hmem), choice.value_tell]

/-- Names alone are read back. -/
theorem faithful_ofNames {all : List α} {name : α → String} {mem_all : ∀ value, value ∈ all}
    {distinct : (all.map name).Nodup} :
    (scheme.choice (.ofNames all name mem_all distinct)).Faithful := by
  refine h.faithful_choice fun alternative hmem => ?_
  obtain ⟨value, -, rfl⟩ := List.mem_map.mp hmem
  trivial

end

end Scheme.Lawful

end Interop
