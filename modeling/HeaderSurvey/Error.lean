import HeaderSurvey.Target.Platform
import HeaderSurvey.Unit.Vocabulary

/-! What can go wrong in reading a dump or settings, and in a survey. -/
namespace HeaderSurvey

/-- Why a translation unit cannot be used. -/
inductive UnitFault where
  | root
  | noDeclaration
  | invalidType
  /-- The cursor of that number refers to a cursor or type that the unit does not have. -/
  | cursorHandle (index : Nat)
  | typeHandle (index : Nat)
  | typeCycle (index : Nat)
  /-- The chain of types behind the spelling is too long to follow. -/
  | unresolved (spelling : String)
deriving DecidableEq, Repr

def UnitFault.message : UnitFault → String
  | root => "cursor 0 must be the translation unit"
  | noDeclaration => "cursor 1 must be the no-declaration cursor"
  | invalidType => "type 0 must be the invalid type"
  | cursorHandle index => "cursor " ++ toString index ++ " references an unknown handle"
  | typeHandle index => "type " ++ toString index ++ " references an unknown handle"
  | typeCycle index => "type " ++ toString index ++ " refers back to itself"
  | unresolved spelling => "type '" ++ spelling ++ "' does not resolve"

inductive Handle where
  | cursor (index : Nat)
  | type (index : Nat)
deriving DecidableEq, Repr

inductive SurveyError where
  | unknownTypeKind (kind : TypeKind) (spelling : String)
  /-- An anonymous declaration is reached without a name to derive its own from. -/
  | namelessDeclaration (kind : CursorKind) (spelling : String)
  | emptyTypeName (spelling : String)
  | noDeclaration (spelling : String)
  | noTarget (path : String)
  | invalidUnit (fault : UnitFault)
  /-- A linked path shown as `shown` replaces the empty text. -/
  | emptyLinkedPath (shown : String)
  | target (error : TargetError)
  | settingsText (reason : String)
  | document (fault : DecodeFault)
  | file (reason : String)
  /-- A handle outside its arena was looked up. -/
  | dangling (handle : Handle)
  /-- A walk over the declarations took more steps than any walk that ends. -/
  | unending
deriving DecidableEq, Repr

namespace SurveyError

def message : SurveyError → String
  | unknownTypeKind kind spelling =>
    "unknown type kind '" ++ kind.label ++ "' for type '" ++ spelling ++ "'"
  | namelessDeclaration kind spelling =>
    "anonymous " ++ kind.label ++ " '" ++ spelling ++ "' has no parent to name it after"
  | emptyTypeName spelling => "type name was not found for type '" ++ spelling ++ "'"
  | noDeclaration spelling =>
    "expected a valid cursor when getting the location of '" ++ spelling ++ "'"
  | noTarget path => "target info unavailable: translation unit '" ++ path ++ "' has no target"
  | invalidUnit fault => "invalid translation unit: " ++ fault.message
  | emptyLinkedPath shown =>
    "invalid explorer configuration: linked-paths entry to '" ++ shown ++ "' has an empty 'from'"
  | target error => "target error: " ++ error.message
  | settingsText reason => "TOML parse error: " ++ reason
  | document fault => "JSON error: " ++ fault.message
  | file reason => "I/O error: " ++ reason
  | dangling (.cursor index) => "no cursor " ++ toString index
  | dangling (.type index) => "no type " ++ toString index
  | unending => "the declarations do not come to an end"

end SurveyError
end HeaderSurvey
