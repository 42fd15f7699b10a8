/-
How a managed name becomes an identifier.

In C every name has to be spelled with ASCII letters, digits and underscores, so a
full name is respelled character by character.  The one thing longer than a
character is an empty pair of brackets, which marks an array and is spelled out.

In the hosts a name is used as it is, between backticks where the host would take
it for a keyword.
-/
import Interop.Language

namespace Interop

namespace Identifier

/-! ### C identifiers -/

/-- Whether a character may stand in a C identifier as it is. -/
def isPlain (c : Char) : Bool := c.isAlphanum || c == '_'

/-- The spelling of one character: a backtick announces a number of parameters, a plain
character stays, and everything else becomes an underscore. -/
def spellChar (c : Char) : List Char :=
  if c = '\x60' then ['_', 'A'] else if isPlain c then [c] else ['_']

/-- The spelling of a managed name. -/
def spell : List Char → List Char
  | [] => []
  | '[' :: ']' :: rest => ['_', 'A', 'r', 'r', 'a', 'y'] ++ spell rest
  | c :: rest => spellChar c ++ spell rest

/-- The C identifier of a managed full name. -/
def ofFullName (fullName : String) : String := String.ofList (spell fullName.toList)

/-! ### Host identifiers -/

def kotlinKeywords : List String :=
  ["as", "break", "class", "continue", "do", "else", "false", "for", "fun", "if", "in",
    "interface", "is", "null", "object", "package", "return", "super", "this", "throw", "true",
    "try", "typealias", "typeof", "val", "var", "when", "while"]

def swiftKeywords : List String :=
  ["Any", "Self", "as", "associatedtype", "break", "case", "catch", "class", "continue",
    "default", "defer", "deinit", "do", "else", "enum", "extension", "fallthrough", "false",
    "fileprivate", "for", "func", "guard", "if", "import", "in", "init", "inout", "internal",
    "is", "let", "nil", "open", "operator", "private", "protocol", "public", "repeat",
    "rethrows", "return", "self", "static", "struct", "subscript", "super", "switch", "throw",
    "throws", "true", "try", "typealias", "var", "where", "while"]

/-- The words a language keeps for itself.  C is left alone: no name is declared in it. -/
def keywords : Language → List String
  | .c => []
  | .kotlinJna | .kotlin => kotlinKeywords
  | .swift => swiftKeywords

/-- The name as an identifier of a language. -/
def escape (language : Language) (name : String) : String :=
  if name ∈ keywords language then "`" ++ name ++ "`" else name

end Identifier

end Interop
