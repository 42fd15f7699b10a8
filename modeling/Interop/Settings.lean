/-
The choices of one run.
-/
import Interop.Language
import Interop.Nullness

namespace Interop

/-- What a run may do beyond the ordinary. -/
structure Features where
  /-- Delegates with `ref` parameters get bindings.  Those with `in` or `out` parameters never
  do. -/
  byRefParameters : Bool := false
  deriving DecidableEq, Repr, Inhabited

namespace Features

def none : Features := {}

/-- The name that turns on `ref` parameters. -/
def byRefParametersName : String := "BY_REF_DELEGATE_PARAMETERS"

/-- The names of the features that are on. -/
def names (features : Features) : List String :=
  if features.byRefParameters then [byRefParametersName] else []

/-- The features as a number with one bit for each. -/
def bits (features : Features) : Nat := if features.byRefParameters then 1 else 0

end Features

/-- The choices of one run; what is not chosen is Kotlin, no features, and values that are
always there. -/
structure Settings where
  host : Host := .kotlin
  features : Features := .none
  /-- What is written about a value that no declaration says anything about. -/
  unspecified : Nullness := .nonNull
  deriving DecidableEq, Repr, Inhabited

end Interop
