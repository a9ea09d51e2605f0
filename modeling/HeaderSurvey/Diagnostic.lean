import HeaderSurvey.Declaration.Kind
import HeaderSurvey.Declaration.Location

/-! What a survey reports without stopping. -/
namespace HeaderSurvey

inductive Severity where
  | error
  | warning
  | info
deriving DecidableEq, Repr

namespace Severity

def key : Severity → String
  | error => "error"
  | warning => "warning"
  | info => "info"

def label : Severity → String
  | error => "ERROR"
  | warning => "WARN"
  | info => "INFO"

end Severity

inductive Diagnostic where
  /-- A macro is defined again with other tokens. -/
  | macroExists (name : String) (location : Location)
  | redeclared (kind : Kind) (name : String) (location : Location)
  /-- A finished node has the name of another one of its category. -/
  | duplicateNode (kind : Kind) (name : String) (location : Location)
deriving DecidableEq, Repr

namespace Diagnostic

def severity : Diagnostic → Severity
  | macroExists .. | duplicateNode .. => .warning
  | redeclared .. => .info

def summary : Diagnostic → String
  | macroExists name location =>
    "The object-like macro '" ++ name ++ "' at " ++ location.position location.filePath ++
      " already previously exists."
  | redeclared kind name location =>
    "The " ++ kind.label ++ " '" ++ name ++ "' at " ++ location.describe ++
      " was already declared; ignoring."
  | duplicateNode kind name location =>
    "The " ++ kind.label ++ " '" ++ name ++ "' at " ++ location.describe ++
      " collides with an existing node of the same name; keeping the first."

def describe (d : Diagnostic) : String := "[" ++ d.severity.label ++ "] " ++ d.summary

end Diagnostic
end HeaderSurvey
