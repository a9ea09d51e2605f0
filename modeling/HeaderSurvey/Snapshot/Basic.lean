import HeaderSurvey.Declaration.NodeCodec
import HeaderSurvey.Json.Printer
import HeaderSurvey.Snapshot.NameMap
import HeaderSurvey.Target.Platform

/-! The result of a survey: the finished declarations of a header by category and name, with the
platform that was asked for and the one that was found. -/
namespace HeaderSurvey

structure Snapshot where
  fileName : String
  requested : Platform
  actual : Platform
  macroObjects : NameMap MacroObject := .empty
  globals : NameMap GlobalVariable := .empty
  functions : NameMap FunctionDecl := .empty
  records : NameMap RecordDecl := .empty
  enums : NameMap EnumDecl := .empty
  typeAliases : NameMap TypeAlias := .empty
  opaqueTypes : NameMap OpaqueType := .empty
  functionPointers : NameMap FunctionPointer := .empty
deriving DecidableEq

namespace Snapshot

/-- Whether the dump was made for another platform than the one asked for. -/
def platformsDiffer (s : Snapshot) : Bool := s.requested != s.actual

def nodeCount (s : Snapshot) : Nat :=
  s.macroObjects.size + s.globals.size + s.functions.size + s.records.size + s.enums.size +
    s.typeAliases.size + s.opaqueTypes.size + s.functionPointers.size

/-- Whether a type of that name can be looked up. -/
def containsType (s : Snapshot) (name : String) : Bool :=
  s.records.contains name || s.enums.contains name || s.typeAliases.contains name ||
    s.opaqueTypes.contains name || s.functionPointers.contains name

def encode (s : Snapshot) : Json :=
  .object [
    ("file_name", .string s.fileName),
    ("platform_requested", s.requested.encode),
    ("platform_actual", s.actual.encode),
    ("macro_objects", s.macroObjects.encode MacroObject.encode),
    ("variables", s.globals.encode GlobalVariable.encode),
    ("functions", s.functions.encode FunctionDecl.encode),
    ("records", s.records.encode RecordDecl.encode),
    ("enums", s.enums.encode EnumDecl.encode),
    ("type_aliases", s.typeAliases.encode TypeAlias.encode),
    ("opaque_types", s.opaqueTypes.encode OpaqueType.encode),
    ("function_pointers", s.functionPointers.encode FunctionPointer.encode)]

def shape : Fields.Shape :=
  { names := ["file_name", "platform_requested", "platform_actual", "macro_objects", "variables",
      "functions", "records", "enums", "type_aliases", "opaque_types", "function_pointers"] }

def decode : Decoder Snapshot := fun document => do
  let r ← Fields.read shape document
  return {
    fileName := ← r.required "file_name" Decode.text
    requested := ← r.required "platform_requested" Platform.decode
    actual := ← r.required "platform_actual" Platform.decode
    macroObjects := ← r.withDefault "macro_objects" .empty (NameMap.decode MacroObject.decode)
    globals := ← r.withDefault "variables" .empty (NameMap.decode GlobalVariable.decode)
    functions := ← r.withDefault "functions" .empty (NameMap.decode FunctionDecl.decode)
    records := ← r.withDefault "records" .empty (NameMap.decode RecordDecl.decode)
    enums := ← r.withDefault "enums" .empty (NameMap.decode EnumDecl.decode)
    typeAliases := ← r.withDefault "type_aliases" .empty (NameMap.decode TypeAlias.decode)
    opaqueTypes := ← r.withDefault "opaque_types" .empty (NameMap.decode OpaqueType.decode)
    functionPointers :=
      ← r.withDefault "function_pointers" .empty (NameMap.decode FunctionPointer.decode) }

/-- The written form of a snapshot. -/
def toText (s : Snapshot) : String := s.encode.pretty

def ofText (text : String) : Except DecodeFault Snapshot := Decoder.ofText decode text

end Snapshot
end HeaderSurvey
