import HeaderSurvey.Json.Printer
import HeaderSurvey.Unit.Basic

/-! The documents of translation units. Every field is written; of those that may be missing when
read, each has a value that it stands for. -/
namespace HeaderSurvey

namespace FilePosition

def encode (p : FilePosition) : Json :=
  .object [("file", .ofOption .string p.file), ("line", .nat p.line), ("column", .nat p.column),
    ("is_in_system_header", .bool p.inSystemHeader)]

def decode : Decoder FilePosition := fun document => do
  let r ← Fields.read { names := ["file", "line", "column", "is_in_system_header"] } document
  return {
    file := ← r.withDefault "file" none (Decode.nullable Decode.text)
    line := ← r.withDefault "line" 0 Decode.nat32
    column := ← r.withDefault "column" 0 Decode.nat32
    inSystemHeader := ← r.withDefault "is_in_system_header" false Decode.flag }

end FilePosition

namespace Cursor

def encode (c : Cursor) : Json :=
  .object [
    ("kind", c.kind.encode),
    ("spelling", .string c.spelling),
    ("type", .nat c.type),
    ("linkage", c.linkage.encode),
    ("anonymous", .bool c.anonymous),
    ("location", c.position.encode),
    ("children", .ofList .nat c.children),
    ("macro_builtin", .bool c.macroBuiltin),
    ("macro_function_like", .bool c.macroFunctionLike),
    ("macro_tokens", .ofList .string c.macroTokens),
    ("underlying_type", .ofOption .nat c.underlying),
    ("field_offset_bits", .integer c.offsetBits),
    ("enum_value", .integer c.enumValue),
    ("enum_integer_type", .ofOption .nat c.integerType)]

def shape : Fields.Shape :=
  { names := ["kind", "spelling", "type", "linkage", "anonymous", "location", "children",
      "macro_builtin", "macro_function_like", "macro_tokens", "underlying_type",
      "field_offset_bits",
      "enum_value", "enum_integer_type"] }

def decode : Decoder Cursor := fun document => do
  let r ← Fields.read shape document
  return {
    kind := ← r.required "kind" CursorKind.decode
    spelling := ← r.withDefault "spelling" "" Decode.text
    type := ← r.withDefault "type" TypeId.invalid Decode.nat32
    linkage := ← r.withDefault "linkage" .noLinkage Linkage.decode
    anonymous := ← r.withDefault "anonymous" false Decode.flag
    position := ← r.withDefault "location" {} FilePosition.decode
    children := ← r.withDefault "children" [] (Decode.list Decode.nat32)
    macroBuiltin := ← r.withDefault "macro_builtin" false Decode.flag
    macroFunctionLike := ← r.withDefault "macro_function_like" false Decode.flag
    macroTokens := ← r.withDefault "macro_tokens" [] (Decode.list Decode.text)
    underlying := ← r.withDefault "underlying_type" none (Decode.nullable Decode.nat32)
    offsetBits := ← r.withDefault "field_offset_bits" Layout.invalid Decode.int64
    enumValue := ← r.withDefault "enum_value" 0 Decode.int64
    integerType := ← r.withDefault "enum_integer_type" none (Decode.nullable Decode.nat32) }

end Cursor

namespace TypeEntry

def encode (t : TypeEntry) : Json :=
  .object [
    ("kind", t.kind.encode),
    ("spelling", .string t.spelling),
    ("declaration", .ofOption .nat t.declaration),
    ("size_of", .integer t.size),
    ("align_of", .integer t.align),
    ("array_size", .integer t.arraySize),
    ("pointee", .ofOption .nat t.pointee),
    ("element", .ofOption .nat t.element),
    ("modified", .ofOption .nat t.modified),
    ("named", .ofOption .nat t.named),
    ("canonical", .ofOption .nat t.canonical),
    ("result", .ofOption .nat t.result),
    ("arguments", .ofList .nat t.arguments),
    ("variadic", .bool t.variadic),
    ("calling_convention", t.convention.encode),
    ("fields", .ofList .nat t.fields)]

def shape : Fields.Shape :=
  { names := ["kind", "spelling", "declaration", "size_of", "align_of", "array_size", "pointee",
      "element", "modified", "named", "canonical", "result", "arguments", "variadic",
      "calling_convention", "fields"] }

def decode : Decoder TypeEntry := fun document => do
  let r ← Fields.read shape document
  return {
    kind := ← r.required "kind" TypeKind.decode
    spelling := ← r.withDefault "spelling" "" Decode.text
    declaration := ← r.withDefault "declaration" none (Decode.nullable Decode.nat32)
    size := ← r.withDefault "size_of" Layout.invalid Decode.int64
    align := ← r.withDefault "align_of" Layout.invalid Decode.int64
    arraySize := ← r.withDefault "array_size" Layout.invalid Decode.int64
    pointee := ← r.withDefault "pointee" none (Decode.nullable Decode.nat32)
    element := ← r.withDefault "element" none (Decode.nullable Decode.nat32)
    modified := ← r.withDefault "modified" none (Decode.nullable Decode.nat32)
    named := ← r.withDefault "named" none (Decode.nullable Decode.nat32)
    canonical := ← r.withDefault "canonical" none (Decode.nullable Decode.nat32)
    result := ← r.withDefault "result" none (Decode.nullable Decode.nat32)
    arguments := ← r.withDefault "arguments" [] (Decode.list Decode.nat32)
    variadic := ← r.withDefault "variadic" false Decode.flag
    convention := ← r.withDefault "calling_convention" .c DeclaredConvention.decode
    fields := ← r.withDefault "fields" [] (Decode.list Decode.nat32) }

end TypeEntry

namespace TargetInfo

def encode (t : TargetInfo) : Json :=
  .object [("triple", .string t.triple), ("pointer_width", .nat t.pointerBits)]

def decode : Decoder TargetInfo := fun document => do
  let r ← Fields.read { names := ["triple", "pointer_width"] } document
  return {
    triple := ← r.required "triple" Decode.text
    pointerBits := ← r.required "pointer_width" Decode.nat32 }

end TargetInfo

namespace TranslationUnit

def encode (u : TranslationUnit) : Json :=
  .object [("file_path", .string u.filePath), ("target", u.target.encode),
    ("cursors", .ofList Cursor.encode u.cursors.toList),
    ("types", .ofList TypeEntry.encode u.types.toList)]

/-- Reads a unit without checking that it can be used. -/
def decode : Decoder TranslationUnit := fun document => do
  let r ← Fields.read { names := ["file_path", "target", "cursors", "types"] } document
  return {
    filePath := ← r.required "file_path" Decode.text
    target := ← r.required "target" TargetInfo.decode
    cursors := (← r.required "cursors" (Decode.list Cursor.decode)).toArray
    types := (← r.required "types" (Decode.list TypeEntry.decode)).toArray }

/-- The written form of a unit. -/
def toText (u : TranslationUnit) : String := u.encode.pretty

end TranslationUnit
end HeaderSurvey
