import HeaderSurvey.Declaration.Location
import HeaderSurvey.Settings
import HeaderSurvey.Text.Search
import HeaderSurvey.Text.Split
import HeaderSurvey.Unit.Basic

/-! Where declarations are shown to be: linked paths are replaced and include directories left
out. -/
namespace HeaderSurvey

structure Places where
  unitPath : String
  fullPaths : Bool
  includeDirectories : List String
  linkedPaths : List LinkedPath
deriving DecidableEq, Repr

namespace Places

def ofSettings (unitPath : String) (s : Settings) : Places :=
  { unitPath, fullPaths := s.switches.fullPaths, includeDirectories := s.includeDirectories,
    linkedPaths := s.linkedPaths }

def isSeparator (c : Char) : Bool := c = '/' || c = '\\'

/-- Replaces a part of a path wherever it stands, and drops separators at the ends. -/
def substitute (part inserted path : String) : String :=
  String.ofList (Text.strip isSeparator
    (Text.replaceAll part.toList inserted.toList path.toList))

/-- The path after the first of `linkedPaths` that stands in it. -/
def remap (p : Places) (path : String) : String :=
  match p.linkedPaths.find? fun l => Text.contains path l.part with
  | some l => substitute l.part l.shown path
  | none => path

/-- The path without the first of `includeDirectories` that stands in it. -/
def shorten (p : Places) (path : String) : String :=
  if p.fullPaths then path
  else match p.includeDirectories.find? fun d => d != "" && Text.contains path d with
    | some d => substitute d "" path
    | none => path

/-- The part of a path after the last separator. -/
def fileName (path : String) : String :=
  String.ofList ((Text.cut isSeparator path.toList).getLastD [])

/-- The place of a cursor, seen as the declaration of a type. Pointers, arrays and primitives are
declared nowhere, and a function type only by a function. -/
def locate (p : Places) (c : Cursor) (t : TypeEntry) : Except SurveyError Location :=
  if c.kind = .translationUnit ∨ (t.kind.isFunction ∧ c.kind ≠ .functionDecl) ∨
      t.kind = .pointer ∨ t.kind.isArray ∨ t.kind.isPrimitive then .ok Location.none
  else if c.kind = .noDeclFound then .error (.noDeclaration t.spelling)
  else
    let path := p.shorten (p.remap (c.position.file.getD p.unitPath))
    .ok ⟨fileName path, path, c.position.line, c.position.column⟩

end Places
end HeaderSurvey
