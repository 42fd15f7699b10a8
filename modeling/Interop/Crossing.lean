/-
Parameters on their way across the native boundary.

Calls cross the boundary in both directions, and both directions convert parameters
in the same way.  A parameter whose value needs no conversion arrives under its own
name.  Any other is converted first, and the converted value gets a name: one made
from the parameter's, and changed until it is neither a parameter's, nor a name the
surrounding code uses, nor that of an earlier converted value.
-/
import Interop.Description
import Interop.Host.Phrasing

namespace Interop

/-- A parameter with everything it takes to name and to convert it. -/
structure Crossing where
  /-- The name it is declared under. -/
  name : String
  description : Description
  passing : Passing
  nullness : Nullness
  deriving DecidableEq

namespace Crossing

/-- The parameter's name as an identifier of a language. -/
def identifier (param : Crossing) (language : Language) : String :=
  Identifier.escape language param.name

/-- The name of the parameter's type in a language. -/
def typeName (param : Crossing) (language : Language) : String :=
  param.description.name (.parameter language param.nullness (.ofPassing param.passing))

/-- The conversion of the parameter: of its value, or of the place it stands for. -/
def conversion (param : Crossing) (source target : Language) : Outcome :=
  match param.passing with
  | .byValue => param.description.convert source target param.nullness
  | .byRef | .readOnly | .output => param.description.convertByRef source target

/-- The declaration of the parameter. -/
def declaration (param : Crossing) (host : Host) (language : Language) : String :=
  host.parameterText (param.identifier language) (param.typeName language)

/-! ### Names for converted values -/

/-- The end of the name of a value in a language. -/
def valueMark : Language → String
  | .c | .kotlinJna => "C"
  | .kotlin => "Kotlin"
  | .swift => "Swift"

/-- The names a converted value may get, the plainest first. -/
def candidate (name mark : String) : Nat → String
  | 0 => "__" ++ name ++ mark
  | 1 => "__p_" ++ name ++ mark
  | n + 2 => "__p" ++ toString (n + 1) ++ "_" ++ name ++ mark

/-- The first candidate that is not taken.  No two candidates are alike, so one more than there
are taken names is enough to look at. -/
def freshName (name mark : String) (taken : List String) : String :=
  candidate name mark <|
    ((List.range (taken.length + 1)).find? fun n => candidate name mark n ∉ taken).getD
      taken.length

/-! ### Converting -/

/-- How a parameter arrives. -/
inductive Arrival where
  /-- Under its own name, as it is. -/
  | unchanged (name : String)
  /-- As the value of an expression, under a name given to it. -/
  | converted (name expression : String)
  deriving DecidableEq, Repr, Inhabited

namespace Arrival

/-- The name under which the parameter arrives. -/
def argument : Arrival → String
  | .unchanged name => name
  | .converted name _ => name

/-- The statement that gives a converted value its name. -/
def statement? (host : Host) : Arrival → Option String
  | .unchanged _ => none
  | .converted name expression => some (host.bind name expression)

end Arrival

/-- How the parameters arrive, given the names that are taken.  `written` is the language their
identifiers are written in. -/
def arriveAmong (source target written : Language) :
    List String → List Crossing → Except ConversionError (List Arrival)
  | _, [] => .ok []
  | taken, param :: rest => do
    match ← param.conversion source target with
    | none =>
      let others ← arriveAmong source target written taken rest
      return .unchanged (param.identifier written) :: others
    | some template =>
      let name := freshName param.name (valueMark target) taken
      let others ← arriveAmong source target written (name :: taken) rest
      return .converted name (template.apply (param.identifier written)) :: others

/-- How parameters arrive where some names are reserved, or the first conversion that fails. -/
def arrive (source target written : Language) (reserved : List String) (params : List Crossing) :
    Except ConversionError (List Arrival) :=
  arriveAmong source target written (reserved ++ params.map (·.identifier written)) params

/-- The statements that convert parameters. -/
def statements (host : Host) (arrivals : List Arrival) : List String :=
  arrivals.filterMap (Arrival.statement? host)

/-- The steps that write those statements, with an empty line after them if there are any. -/
def conversionSteps (host : Host) (arrivals : List Arrival) : List Listing.Step :=
  match statements host arrivals with
  | [] => []
  | written => written.map .block ++ [.blank]

/-- The arguments that parameters arrive as. -/
def arguments (arrivals : List Arrival) : List String := arrivals.map Arrival.argument

end Crossing

end Interop
