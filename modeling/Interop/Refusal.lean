/-
Why a type gets no bindings.

Most refusals concern the type alone: it is something bindings are not written for,
and it is skipped.  Two of them concern the native layer, which has to be there
before the bindings are: nothing is written for such a type, and the refusal is
fatal.  Neither kind stops the run.
-/
import Interop.Catalogue
import Interop.Text.Column

namespace Interop

/-- How bad a refusal is. -/
inductive Severity where
  | skipped
  | fatal
  deriving DecidableEq, Repr, Inhabited

namespace Severity

def text : Severity → String
  | .skipped => "skipped"
  | .fatal => "fatal"

/-- The severity as it stands in a column. -/
def inColumn (severity : Severity) (layout : Column.Layout) : String :=
  Column.pad layout severity.text

end Severity

/-- The code of a refusal.  The sevens are skips and the eights are fatal. -/
inductive RefusalCode where
  | e7001
  | e7002
  | e7003
  | e7004
  | e7005
  | e7006
  | e7007
  | e8001
  | e8002
  deriving DecidableEq, Repr, Inhabited

namespace RefusalCode

def text : RefusalCode → String
  | .e7001 => "E7001"
  | .e7002 => "E7002"
  | .e7003 => "E7003"
  | .e7004 => "E7004"
  | .e7005 => "E7005"
  | .e7006 => "E7006"
  | .e7007 => "E7007"
  | .e8001 => "E8001"
  | .e8002 => "E8002"

end RefusalCode

/-- Why a type gets no bindings. -/
inductive Refusal where
  | noFullName
  | notADelegate
  | unsupportedParameter (host : Host) (passing : Passing)
  | byRefReturn (host : Host)
  | missingInvoke (host : Host)
  | unresolvableType (error : DescriptionError)
  | conversion (error : ConversionError)
  /-- The native layer has nothing for the type. -/
  | missingNativeLayer (typeName : String)
  /-- What the native layer has is for another type. -/
  | nativeLayerMismatch (typeName expected found : String)
  deriving DecidableEq, Repr, Inhabited

namespace Refusal

/-- The refusal that an error of description leads to. -/
def ofDescription : DescriptionError → Refusal
  | .noFullName _ => .noFullName
  | error => .unresolvableType error

/-- What messages call parameters passed in a way that is refused. -/
def passingText : Passing → String
  | .byRef | .byValue => "by ref"
  | .readOnly => "in"
  | .output => "out"

/-- The beginning of a message about a delegate that a host does not support. -/
def unsupportedText (host : Host) : String :=
  "Unsupported delegate type (" ++ host.text ++ "): has "

/-- The reason, in words. -/
def message : Refusal → String
  | .noFullName => "It has no full name."
  | .notADelegate => "It is not a delegate type."
  | .unsupportedParameter host passing =>
    unsupportedText host ++ passingText passing ++ " parameters"
  | .byRefReturn host => unsupportedText host ++ "by ref return type"
  | .missingInvoke host => unsupportedText host ++ "no invoke method"
  | .unresolvableType error => "Unresolvable type in signature: " ++ error.message
  | .conversion error => "Unsupported conversion: " ++ error.message
  | .missingNativeLayer typeName =>
    "No native layer result for `" ++ typeName ++ "`; the native layer must be generated first"
  | .nativeLayerMismatch typeName expected found =>
    "Native layer result for `" ++ typeName ++ "` names `" ++ found ++ "`, expected `" ++ expected
      ++ "`"

def code : Refusal → RefusalCode
  | .noFullName => .e7001
  | .notADelegate => .e7002
  | .unsupportedParameter .. => .e7003
  | .byRefReturn _ => .e7004
  | .missingInvoke _ => .e7005
  | .unresolvableType _ => .e7006
  | .conversion _ => .e7007
  | .missingNativeLayer _ => .e8001
  | .nativeLayerMismatch .. => .e8002

def severity : Refusal → Severity
  | .missingNativeLayer _ | .nativeLayerMismatch .. => .fatal
  | _ => .skipped

def isFatal (refusal : Refusal) : Bool := refusal.severity == .fatal

/-- The comment that stands where the bindings of a skipped type would. -/
def skipComment (refusal : Refusal) (typeName : String) : String :=
  "// Type \"" ++ typeName ++ "\" was skipped. Reason: " ++ refusal.message

end Refusal

end Interop
