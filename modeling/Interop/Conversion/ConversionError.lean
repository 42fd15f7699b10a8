/-
Why a value cannot be converted.
-/
import Interop.Conversion.ValueKind

namespace Interop

/-- The reason a conversion is refused. -/
inductive ConversionError where
  /-- Values never pass directly between the two languages. -/
  | unsupportedPair (source target : Language)
  /-- Values of the kind pass between the languages, but not in this direction. -/
  | unsupported (kind : ValueKind) (source target : Language)
  /-- The type's values have no rules at all. -/
  | unrecognizedKind (typeName : String) (what : String)
  /-- The pattern does not have exactly one hole. -/
  | malformedTemplate (pattern : String)
  deriving DecidableEq, Repr, Inhabited

namespace ConversionError

def message : ConversionError → String
  | .unsupportedPair source target =>
    "no conversion path from " ++ source.text ++ " to " ++ target.text
  | .unsupported kind source target =>
    kind.text ++ " values cannot be converted from " ++ source.text ++ " to " ++ target.text
  | .unrecognizedKind typeName what =>
    "type `" ++ typeName ++ "` has an unrecognized value kind (" ++ what ++ ")"
  | .malformedTemplate pattern =>
    "conversion template `" ++ pattern ++ "` must contain exactly one `\x7b0\x7d` placeholder"

end ConversionError

end Interop
