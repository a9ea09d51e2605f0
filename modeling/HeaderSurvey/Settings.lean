import HeaderSurvey.Error
import HeaderSurvey.Toml.Document

/-! What a survey is asked to do: the platform, the sorts of declarations that count, and how places
in files are shown. -/
namespace HeaderSurvey

/-- A part of a path and what is shown in its place. -/
structure LinkedPath where
  part : String
  shown : String
deriving DecidableEq, Repr

structure Switches where
  macroObjects : Bool := true
  globals : Bool := true
  functions : Bool := true
  /-- Whether declarations in system headers count. -/
  systemDeclarations : Bool := false
  /-- Whether enumerations count to which nothing refers. -/
  danglingEnums : Bool := true
  fullPaths : Bool := false
  /-- Names of types that stay opaque whatever their declaration, in increasing order. -/
  opaqueTypes : List String := []
deriving DecidableEq, Repr

structure Settings where
  target : String := Platform.linuxGnu.triple
  switches : Switches := {}
  includeDirectories : List String := []
  linkedPaths : List LinkedPath := []
deriving DecidableEq, Repr

/-- The names in increasing order, each of them once. -/
def sortedNames (names : List String) : List String :=
  names.foldl place []
where
  /-- Adds a name to an increasing list that may have it already. -/
  place (names : List String) (name : String) : List String :=
    match names with
    | [] => [name]
    | n :: rest =>
      if name < n then name :: n :: rest
      else if name = n then n :: rest
      else n :: place rest name

def Switches.isOpaque (s : Switches) (name : String) : Bool := s.opaqueTypes.contains name

namespace LinkedPath

def encode (l : LinkedPath) : Json := .object [("from", .string l.part), ("to", .string l.shown)]

/-- Reads a linked path; `openEnded` lets an array have more items than fields. -/
def decode (openEnded : Bool) : Decoder LinkedPath := fun document => do
  let r ← Fields.read { names := ["from", "to"], closed := true, openEnded } document
  return {
    part := ← r.required "from" Decode.text
    shown := ← r.required "to" Decode.text }

end LinkedPath

namespace Switches

def encode (s : Switches) : Json :=
  .object [
    ("macro-objects", .bool s.macroObjects),
    ("variables", .bool s.globals),
    ("functions", .bool s.functions),
    ("system-declarations", .bool s.systemDeclarations),
    ("enums-dangling", .bool s.danglingEnums),
    ("location-full-paths", .bool s.fullPaths),
    ("opaque-types", .ofList .string s.opaqueTypes)]

def decode (openEnded : Bool) : Decoder Switches := fun document => do
  let r ← Fields.read
    { names := ["macro-objects", "variables", "functions", "system-declarations", "enums-dangling",
        "location-full-paths", "opaque-types"], closed := true, openEnded } document
  return {
    macroObjects := ← r.withDefault "macro-objects" true Decode.flag
    globals := ← r.withDefault "variables" true Decode.flag
    functions := ← r.withDefault "functions" true Decode.flag
    systemDeclarations := ← r.withDefault "system-declarations" false Decode.flag
    danglingEnums := ← r.withDefault "enums-dangling" true Decode.flag
    fullPaths := ← r.withDefault "location-full-paths" false Decode.flag
    opaqueTypes := sortedNames (← r.withDefault "opaque-types" [] (Decode.list Decode.text)) }

end Switches

namespace Settings

def encode (s : Settings) : Json :=
  .object [
    ("target", .string s.target),
    ("explorer", s.switches.encode),
    ("user-include-directories", .ofList .string s.includeDirectories),
    ("linked-paths", .ofList LinkedPath.encode s.linkedPaths)]

/-- Reads settings without the checks of `check`. -/
def decode (openEnded : Bool) : Decoder Settings := fun document => do
  let r ← Fields.read
    { names := ["target", "explorer", "user-include-directories", "linked-paths"], closed := true,
      openEnded } document
  return {
    target := ← r.withDefault "target" Platform.linuxGnu.triple Decode.text
    switches := ← r.withDefault "explorer" {} (Switches.decode openEnded)
    includeDirectories := ← r.withDefault "user-include-directories" [] (Decode.list Decode.text)
    linkedPaths := ← r.withDefault "linked-paths" [] (Decode.list (LinkedPath.decode openEnded)) }

/-- The platform that is asked for. -/
def platform (s : Settings) : Except SurveyError Platform :=
  (Platform.ofTriple s.target).mapError .target

/-- Settings that can be used: no linked path replaces the empty text, and the target is known. -/
def check (s : Settings) : Except SurveyError Settings :=
  match s.linkedPaths.find? (·.part == "") with
  | some l => .error (.emptyLinkedPath l.shown)
  | none =>
    match s.platform with
    | .ok _ => .ok s
    | .error e => .error e

/-- Reads the text of a settings file and checks it. -/
def ofText (text : String) : Except SurveyError Settings :=
  match Toml.read? text with
  | none => .error (.settingsText DecodeFault.malformed.message)
  | some document =>
    match decode true document with
    | .ok s => s.check
    | .error fault => .error (.settingsText fault.message)

end Settings
end HeaderSurvey
