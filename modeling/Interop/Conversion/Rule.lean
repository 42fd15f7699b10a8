/-
The rules by which values pass between a host and its native layer.

There are four passages: each host to its native language and back.  For each
passage and each kind of value there is one rule.  Most values either pass as they
are or pass through an expression, which may name the host's type and may have a
form of its own for values that can be absent.  A conversion between a language
and itself leaves the value alone, and any other pair of languages has no rule.
-/
import Interop.Conversion.Template
import Interop.Nullness

namespace Interop

/-! ### Passages -/

/-- Which way a value passes. -/
inductive Direction where
  | toNative
  | toHost
  deriving DecidableEq, Repr, Inhabited

/-- A host and the way a value passes between it and its native layer. -/
structure Passage where
  host : Host
  direction : Direction
  deriving DecidableEq, Repr, Inhabited

namespace Passage

def source : Passage → Language
  | ⟨host, .toNative⟩ => host.language
  | ⟨host, .toHost⟩ => host.nativeLanguage

def target : Passage → Language
  | ⟨host, .toNative⟩ => host.nativeLanguage
  | ⟨host, .toHost⟩ => host.language

/-- The passage from one language to another, if there is one. -/
def between? : Language → Language → Option Passage
  | .kotlin, .kotlinJna => some ⟨.kotlin, .toNative⟩
  | .kotlinJna, .kotlin => some ⟨.kotlin, .toHost⟩
  | .swift, .c => some ⟨.swift, .toNative⟩
  | .c, .swift => some ⟨.swift, .toHost⟩
  | _, _ => none

theorem between?_source_target (p : Passage) : between? p.source p.target = some p := by
  obtain ⟨host, direction⟩ := p
  cases host <;> cases direction <;> rfl

end Passage

/-! ### Patterns -/

/-- A piece of a rule's expression. -/
inductive Piece where
  /-- The converted expression. -/
  | value
  /-- The host's name of the value's type. -/
  | hostType
  | text (literal : String)
  deriving DecidableEq, Repr, Inhabited

namespace Piece

/-- How the place of the host's type name is written. -/
def hostTypeMark : String := "\x7bT\x7d"

/-- The piece with `name` for the host's type; the place of the value stays open. -/
def fill (name : String) : Piece → String
  | .value => Template.hole
  | .hostType => name
  | .text literal => literal

end Piece

/-- The expression of a rule, before the host's type is known. -/
abbrev Pattern := List Piece

namespace Pattern

/-- The pattern's text with `name` for the host's type. -/
def fill (pattern : Pattern) (name : String) : String :=
  String.join (pattern.map (Piece.fill name))

/-- The pattern as it is written, with a mark for the host's type. -/
def text (pattern : Pattern) : String := pattern.fill Piece.hostTypeMark

end Pattern

/-! ### Rules -/

/-- What happens to a value on a passage. -/
inductive Rule where
  /-- The value can be used as it is. -/
  | identity
  /-- The value goes through an expression, with a form of its own for values that may be absent
  where one is given. -/
  | convert (plain : Pattern) (forNullable : Option Pattern)
  /-- The value does not pass. -/
  | unsupported
  deriving DecidableEq, Repr, Inhabited

namespace Rule

/-- A rule with one expression for all values. -/
def always (pattern : Pattern) : Rule := .convert pattern none

/-- A rule with an expression of its own for values that may be absent. -/
def either (plain forNullable : Pattern) : Rule := .convert plain (some forNullable)

/-- A member of the value. -/
def member (name : String) : Rule := always [.value, .text ("." ++ name)]

/-- A member of the value, read safely where the value may be absent. -/
def safeMember (name : String) : Rule :=
  either [.value, .text ("." ++ name)] [.value, .text ("?." ++ name)]

/-- JNA has no unsigned integers, so their bits are read as signed ones and back. -/
def kotlinPrimitive : Primitive → Direction → Rule
  | .byte, .toNative => member "toByte()"
  | .uint16, .toNative => member "toShort()"
  | .uint32, .toNative => member "toInt()"
  | .uint64, .toNative | .uintPtr, .toNative => member "toLong()"
  | .byte, .toHost => member "toUByte()"
  | .uint16, .toHost => member "toUShort()"
  | .uint32, .toHost => member "toUInt()"
  | .uint64, .toHost | .uintPtr, .toHost => member "toULong()"
  | _, _ => identity

/-- A code unit has a wrapper in Swift; every other primitive is the same in C. -/
def swiftPrimitive : Primitive → Direction → Rule
  | .char, .toNative => member "cValue"
  | .char, .toHost => always [.text "DNChar(cValue: ", .value, .text ")"]
  | _, _ => identity

/-- The rules between Kotlin and JNA. -/
def kotlin : ValueKind → Direction → Rule
  | .primitive p, direction => kotlinPrimitive p direction
  | .enumeration, .toNative => member "value"
  | .enumeration, .toHost => always [.hostType, .text ".fromValue(", .value, .text ")"]
  | .string, .toNative => safeMember "toDotNETString()"
  | .string, .toHost => safeMember "toKString()"
  | .referenceObject, .toNative => safeMember "__handle"
  | .referenceObject, .toHost =>
    either [.hostType, .text "(", .value, .text ")"]
      [.value, .text "?.let \x7b ", .hostType, .text "(it) \x7d"]
  | .optionalWrapper, .toNative => always [.text "DNNullable.box(", .value, .text ")"]
  | .optionalWrapper, .toHost =>
    always [.text "DNNullable.unbox<", .hostType, .text ">(", .value, .text ")"]
  | .byteSpan, .toNative => member "toDNReadOnlySpanOfByte()"
  | .byteSpan, .toHost => member "toByteArray()"
  | .byRef, .toNative => member "__pointer"
  | .byRef, .toHost => always [.text "DNRef<", .hostType, .text ">(", .value, .text ")"]

/-- The rules between Swift and C.  Nothing is passed by reference: the place an `inout`
parameter stands for cannot be bound to a name. -/
def swift : ValueKind → Direction → Rule
  | .primitive p, direction => swiftPrimitive p direction
  | .enumeration, .toNative => member "cValue"
  | .enumeration, .toHost => always [.hostType, .text "(cValue: ", .value, .text ")"]
  | .string, .toNative => safeMember "dotNETString()"
  | .string, .toHost =>
    either [.text "String(dotNETString: ", .value, .text ")"]
      [.value, .text ".map \x7b String(dotNETString: $0) \x7d"]
  | .referenceObject, .toNative => safeMember "__handle"
  | .referenceObject, .toHost =>
    either [.hostType, .text "(handle: ", .value, .text ")"]
      [.value, .text ".map \x7b ", .hostType, .text "(handle: $0) \x7d"]
  | .optionalWrapper, .toNative => always [.text "DNNullable.box(", .value, .text ")"]
  | .optionalWrapper, .toHost =>
    always [.text "DNNullable<", .hostType, .text ">.unbox(", .value, .text ")"]
  | .byteSpan, .toNative => member "cDNReadOnlySpanOfByte"
  | .byteSpan, .toHost => member "data()"
  | .byRef, _ => unsupported

/-- The rule for a kind of value on a passage. -/
def onPassage (kind : ValueKind) (passage : Passage) : Rule :=
  match passage.host with
  | .kotlin => kotlin kind passage.direction
  | .swift => swift kind passage.direction

/-- The rule for a kind of value from one language to another. -/
def find (kind : ValueKind) (source target : Language) : Except ConversionError Rule :=
  if source = target then
    .ok .identity
  else
    match Passage.between? source target with
    | some passage => .ok (onPassage kind passage)
    | none => .error (.unsupportedPair source target)

/-- The pattern used for a value: the one for nullable values where the value may be absent and
there is one, the plain one otherwise. -/
def choose (plain : Pattern) (forNullable : Option Pattern) : Nullness → Pattern
  | .nonNull => plain
  | .nullable => forNullable.getD plain

/-- The template a rule gives for one type; none where the value stays as it is.

The type's name becomes part of the pattern before the pattern is read, so a name that holds
a hole is refused. -/
def specialize (rule : Rule) (kind : ValueKind) (source target : Language) (nullness : Nullness)
    (hostTypeName : String) : Except ConversionError (Option Template) :=
  match rule with
  | .identity => .ok none
  | .unsupported => .error (.unsupported kind source target)
  | .convert plain forNullable =>
    (Template.read ((choose plain forNullable nullness).fill hostTypeName)).map some

end Rule

end Interop
