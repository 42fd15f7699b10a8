/-
What is known about one type once it has been described: its names, and how its
values are converted.

A description is built from what reflection tells about the type and from the
descriptions of its parts, and never changes.  The names of the parts are already
inside its own names.  Every conversion is worked out while the description is
built and kept in a table, so asking for one is a look-up and asking twice gives
the same answer.

A name in use says more than the base name: whether the value may be absent, and
whether it is passed by reference.  `Description.name` adds both.
-/
import Interop.Conversion.Rule
import Interop.Text.Identifier

namespace Interop

/-- Two results are compared as far as their values and their errors can be. -/
instance decidableEqExcept {ε α : Type} [DecidableEq ε] [DecidableEq α] :
    DecidableEq (Except ε α)
  | .ok a, .ok b => decidable_of_iff (a = b) (by simp)
  | .error a, .error b => decidable_of_iff (a = b) (by simp)
  | .ok _, .error _ => isFalse nofun
  | .error _, .ok _ => isFalse nofun

/-- What a conversion comes to: an error, a template, or nothing to do. -/
abbrev Outcome := Except ConversionError (Option Template)

/-- A conversion of values: the two languages and whether the value may be absent. -/
structure Route where
  source : Language
  target : Language
  nullness : Nullness
  deriving DecidableEq, Repr, Inhabited

/-- Every conversion of values. -/
def Route.all : List Route :=
  Language.all.flatMap fun source => Language.all.flatMap fun target =>
    Nullness.all.map fun nullness => ⟨source, target, nullness⟩

theorem Route.mem_all (route : Route) : route ∈ all := by
  obtain ⟨source, target, nullness⟩ := route
  simp [all, Language.mem_all, Nullness.mem_all]

/-- Every pair of languages. -/
def Language.pairs : List (Language × Language) :=
  Language.all.flatMap fun source => Language.all.map fun target => (source, target)

theorem Language.mem_pairs (pair : Language × Language) : pair ∈ pairs := by
  obtain ⟨source, target⟩ := pair
  simp [pairs, mem_all]

/-- The names of a type and the conversions of its values. -/
structure Description where
  key : TypeKey
  /-- The managed name, with the names of generic arguments. -/
  fullName : String
  /-- The identifier used for C symbols and for the host's wrapper class. -/
  cTypeName : String
  category : Category
  /-- What holds for a member that says nothing itself. -/
  defaultNullability : Nullability
  /-- The name in each language, without marks for null and references. -/
  baseNames : PerLanguage String
  conversions : List (Route × Outcome)
  byRefConversions : List ((Language × Language) × Outcome)
  deriving DecidableEq

/-! ### Names in use -/

/-- Where a name is used. -/
inductive Position where
  | parameter
  | result
  deriving DecidableEq, Repr, Inhabited

/-- The ways of passing by reference that a name has to show. -/
structure Modifiers where
  byRef : Bool := false
  output : Bool := false
  readOnly : Bool := false
  deriving DecidableEq, Repr, Inhabited

namespace Modifiers

def none : Modifiers := {}

/-- The modifiers of either. -/
def union (a b : Modifiers) : Modifiers where
  byRef := a.byRef || b.byRef
  output := a.output || b.output
  readOnly := a.readOnly || b.readOnly

/-- The modifier of a way of passing. -/
def ofPassing : Passing → Modifiers
  | .byValue => none
  | .byRef => { byRef := true }
  | .readOnly => { readOnly := true }
  | .output => { output := true }

end Modifiers

/-- Everything the name of a type in use depends on. -/
structure NameRequest where
  language : Language
  position : Position
  /-- Whether a value that flows in may be absent. -/
  inward : Nullness
  /-- Whether a value that flows out may be absent. -/
  outward : Nullness
  /-- Without effect on a result. -/
  modifiers : Modifiers := .none
  deriving DecidableEq, Repr, Inhabited

namespace NameRequest

def parameter (language : Language) (nullness : Nullness) (modifiers : Modifiers := .none) :
    NameRequest :=
  ⟨language, .parameter, nullness, nullness, modifiers⟩

def result (language : Language) (nullness : Nullness) : NameRequest :=
  ⟨language, .result, nullness, nullness, .none⟩

end NameRequest

namespace Description

/-- The name in a language, without marks. -/
def baseName (d : Description) (language : Language) : String := d.baseNames.get language

def isVoid (d : Description) : Bool := d.category.isVoid

/-- Marks a base name for a value that may be absent, or in C also for one that may not.
Only names of handles carry a mark, and an optional wrapper is optional in every host. -/
def markNullness (base : String) (kind : ValueKind) (nullness : Nullness) : Language → String
  | .c => if nullness.isNullable then base ++ " _Nullable" else base ++ " _Nonnull"
  | .kotlinJna => if nullness.isNullable then base ++ "?" else base
  | .kotlin | .swift =>
    if nullness.isNullable || kind == .optionalWrapper then base ++ "?" else base

/-- The name of a value that may or may not be absent. -/
def nameWithNullness (d : Description) (language : Language) (nullness : Nullness) : String :=
  match d.category.valueKind? with
  | some kind =>
    if kind.isReferenceLike then markNullness (d.baseName language) kind nullness language
    else d.baseName language
  | none => d.baseName language

/-- The name of a place that holds a value with the given name. -/
def nameOfPlace (inner : String) : Language → String
  | .c => inner ++ "*"
  | .kotlinJna => "Pointer"
  | .kotlin => "DNRef<" ++ inner ++ ">"
  | .swift => "inout " ++ inner

/-- The name of the type in use. -/
def name (d : Description) (request : NameRequest) : String :=
  match request.position with
  | .result => d.nameWithNullness request.language request.outward
  | .parameter =>
    if request.modifiers = .none then
      d.nameWithNullness request.language request.inward
    else
      let nullness :=
        if request.modifiers.byRef || request.modifiers.output then request.outward
        else request.inward
      nameOfPlace (d.nameWithNullness request.language nullness) request.language

/-! ### Base names -/

/-- The name of a part inside the name of the whole. -/
def nestedName (unspecified : Nullness) (language : Language) (part : Description) : String :=
  part.name (.parameter language (part.defaultNullability.settle unspecified))

/-- What a base name is made from. -/
structure NameParts where
  unspecified : Nullness
  shape : Shape
  declaredName : String
  cTypeName : String
  parts : List Description

/-- A host's name of the wrapper class of a reference type. -/
def wrapperName (p : NameParts) (language : Language) : String :=
  let nested := p.parts.map (nestedName p.unspecified language)
  match p.shape with
  | .array _ => "DNArray<" ++ nested.headD "" ++ ">"
  | .generic _ => Identifier.ofFullName p.declaredName ++ "<" ++ ", ".intercalate nested ++ ">"
  | _ => p.cTypeName

/-- A host's name of the value inside an optional wrapper. -/
def unwrappedName (p : NameParts) (language : Language) : String :=
  match p.parts.head? with
  | some inner => inner.baseName language
  | none => p.cTypeName

/-- The base name of a type whose values travel in a given way. -/
def valueBaseName (p : NameParts) : ValueKind → Language → String
  | .primitive primitive, language => primitive.keyword language
  | .enumeration, language =>
    match language, p.shape with
    | .kotlinJna, .enumeration underlying => underlying.keyword .kotlinJna
    | _, _ => p.cTypeName
  | .string, .c => "System_String_t"
  | .string, .kotlinJna => "Pointer"
  | .string, .kotlin | .string, .swift => "String"
  | .optionalWrapper, .c => "System_Object_t"
  | .optionalWrapper, .kotlinJna => "Pointer"
  | .optionalWrapper, .kotlin => unwrappedName p .kotlin
  | .optionalWrapper, .swift => unwrappedName p .swift
  | .byteSpan, .c => "DNReadOnlySpanOfByte"
  | .byteSpan, .kotlinJna => "DNReadOnlySpanOfByte.ByValue"
  | .byteSpan, .kotlin => "ByteArray"
  | .byteSpan, .swift => "Data"
  | .referenceObject, .c | .byRef, .c => p.cTypeName ++ "_t"
  | .referenceObject, .kotlinJna | .byRef, .kotlinJna => "Pointer"
  | .referenceObject, .kotlin | .byRef, .kotlin => wrapperName p .kotlin
  | .referenceObject, .swift | .byRef, .swift => wrapperName p .swift

def voidName : Language → String
  | .c => "void"
  | .kotlinJna | .kotlin => "Unit"
  | .swift => "Void"

def unrecognizedName : Language → String
  | .c => "void*"
  | .kotlinJna | .kotlin => "Pointer"
  | .swift => "OpaquePointer"

/-- The base name of a type in a language. -/
def buildBaseName (p : NameParts) (language : Language) : String :=
  match Category.ofShape p.shape with
  | .void => voidName language
  | .unrecognized _ => unrecognizedName language
  | .value kind => valueBaseName p kind language

/-- The full name with the arguments of a generic type. -/
def buildFullName (declaredName : String) (shape : Shape) (parts : List Description) : String :=
  match shape with
  | .generic _ => declaredName ++ "<" ++ ", ".intercalate (parts.map fullName) ++ ">"
  | _ => declaredName

/-- The identifier, with those of the arguments of a generic type. -/
def buildCTypeName (declaredName : String) (shape : Shape) (parts : List Description) : String :=
  match shape with
  | .generic _ =>
    Identifier.ofFullName declaredName ++ "_" ++ "_".intercalate (parts.map cTypeName)
  | _ => Identifier.ofFullName declaredName

/-! ### Conversions -/

/-- The language of a pair whose type name a template mentions: the host's. -/
def hostSide (source target : Language) : Language :=
  if source.isHost then source else target

/-- The conversion of a value, worked out from the rules. -/
def workOutConversion (category : Category) (fullName : String) (baseNames : PerLanguage String)
    (route : Route) : Outcome :=
  match category with
  | .void => .error (.unrecognizedKind fullName "void has no value")
  | .unrecognized why => .error (.unrecognizedKind fullName why.text)
  | .value kind => do
    let rule ← Rule.find kind route.source route.target
    rule.specialize kind route.source route.target route.nullness
      (baseNames.get (hostSide route.source route.target))

/-- The conversion of a place that holds a value, worked out from the rules. -/
def workOutByRef (category : Category) (fullName : String) (baseNames : PerLanguage String)
    (source target : Language) : Outcome :=
  match category with
  | .unrecognized why => .error (.unrecognizedKind fullName why.text)
  | .void | .value _ => do
    let rule ← Rule.find .byRef source target
    rule.specialize .byRef source target .nonNull (baseNames.get (hostSide source target))

/-- The conversion of a value, read from the table. -/
def convert (d : Description) (source target : Language) (nullness : Nullness) : Outcome :=
  match d.conversions.lookup ⟨source, target, nullness⟩ with
  | some outcome => outcome
  | none => .error (.unsupportedPair source target)

/-- The conversion of a place that holds a value, read from the table. -/
def convertByRef (d : Description) (source target : Language) : Outcome :=
  match d.byRefConversions.lookup (source, target) with
  | some outcome => outcome
  | none => .error (.unsupportedPair source target)

/-! ### Describing -/

/-- What a member holds that says nothing itself.  Primitives, enumerations and spans are never
absent and optional wrappers always may be; other types say so themselves. -/
def buildDefault (category : Category) (stated : Nullability) : Nullability :=
  match category with
  | .void => .nonNull
  | .value .optionalWrapper => .nullable
  | .value (.primitive _) | .value .enumeration | .value .byteSpan => .nonNull
  | .value _ | .unrecognized _ => stated

/-- Describes a type by its declared full name and the descriptions of its parts, which stand in
the order of `Shape.parts`. -/
def build (unspecified : Nullness) (key : TypeKey) (type : ManagedType) (declaredName : String)
    (parts : List Description) : Description :=
  let category := Category.ofShape type.shape
  let full := buildFullName declaredName type.shape parts
  let cName := buildCTypeName declaredName type.shape parts
  let names : PerLanguage String :=
    .ofFn (buildBaseName ⟨unspecified, type.shape, declaredName, cName, parts⟩)
  { key
    fullName := full
    cTypeName := cName
    category
    defaultNullability := buildDefault category type.nullability
    baseNames := names
    conversions := Route.all.map fun route => (route, workOutConversion category full names route)
    byRefConversions := Language.pairs.map fun pair =>
      (pair, workOutByRef category full names pair.1 pair.2) }

section

variable (unspecified : Nullness) (key : TypeKey) (type : ManagedType) (declaredName : String)
  (parts : List Description)

@[simp] theorem key_build : (build unspecified key type declaredName parts).key = key := rfl

@[simp] theorem fullName_build :
    (build unspecified key type declaredName parts).fullName =
      buildFullName declaredName type.shape parts := rfl

@[simp] theorem cTypeName_build :
    (build unspecified key type declaredName parts).cTypeName =
      buildCTypeName declaredName type.shape parts := rfl

@[simp] theorem category_build :
    (build unspecified key type declaredName parts).category = .ofShape type.shape := rfl

@[simp] theorem baseName_build (language : Language) :
    (build unspecified key type declaredName parts).baseName language =
      buildBaseName
        ⟨unspecified, type.shape, declaredName, buildCTypeName declaredName type.shape parts,
          parts⟩ language := by
  cases language <;> rfl

end

end Description

end Interop
