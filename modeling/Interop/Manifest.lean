/-
The types of a run that got no bindings, in the order in which they were met.
-/
import Interop.Refusal

namespace Interop

/-- A type that got no bindings. -/
structure ManifestEntry where
  typeName : String
  code : RefusalCode
  severity : Severity
  reason : String
  deriving DecidableEq, Repr, Inhabited

namespace ManifestEntry

def ofRefusal (typeName : String) (refusal : Refusal) : ManifestEntry where
  typeName := typeName
  code := refusal.code
  severity := refusal.severity
  reason := refusal.message

/-- The entry's line in a report. -/
def text (entry : ManifestEntry) : String :=
  "[" ++ entry.code.text ++ "] " ++ entry.severity.inColumn { width := 7 } ++ " "
    ++ entry.typeName ++ ": " ++ entry.reason

end ManifestEntry

/-- Every type that got no bindings. -/
structure Manifest where
  entries : List ManifestEntry := []
  deriving DecidableEq, Repr, Inhabited

namespace Manifest

def empty : Manifest := {}

/-- Adds a type at the end. -/
def record (manifest : Manifest) (typeName : String) (refusal : Refusal) : Manifest :=
  ⟨manifest.entries ++ [.ofRefusal typeName refusal]⟩

/-- The first entry of a type. -/
def get? (manifest : Manifest) (typeName : String) : Option ManifestEntry :=
  manifest.entries.find? (·.typeName == typeName)

def contains (manifest : Manifest) (typeName : String) : Bool :=
  (manifest.get? typeName).isSome

def skipped (manifest : Manifest) : List ManifestEntry :=
  manifest.entries.filter (·.severity == .skipped)

def fatal (manifest : Manifest) : List ManifestEntry :=
  manifest.entries.filter (·.severity == .fatal)

def hasFatal (manifest : Manifest) : Bool := !manifest.fatal.isEmpty

def size (manifest : Manifest) : Nat := manifest.entries.length

def isEmpty (manifest : Manifest) : Bool := manifest.entries.isEmpty

/-- The first line of a report, with the counts. -/
def header (manifest : Manifest) : String :=
  let fatal := manifest.fatal.length
  toString manifest.size ++ " type(s) without bindings ("
    ++ toString (manifest.size - fatal) ++ " skipped, " ++ toString fatal ++ " fatal)"

/-- The report on a run: its counts, then a line for each entry. -/
def report (manifest : Manifest) : String :=
  manifest.header ++ String.join (manifest.entries.map fun entry => "\n" ++ entry.text)

end Manifest

end Interop
