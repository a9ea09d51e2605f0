import HeaderSurvey.Declaration.Node

/-! The documents of finished declarations. Members stand in the order of the fields; a field
without a value, and a flag that is false, is left out and read back as such. -/
namespace HeaderSurvey

namespace CallingConvention

def all : List CallingConvention :=
  [cdecl, stdCall, fastCall, thisCall, vectorCall, sysV64, win64, aapcs, unknown]

def key : CallingConvention → String
  | cdecl => "cdecl"
  | stdCall => "std_call"
  | fastCall => "fast_call"
  | thisCall => "this_call"
  | vectorCall => "vector_call"
  | sysV64 => "sys_v64"
  | win64 => "win64"
  | aapcs => "aapcs"
  | unknown => "unknown"

def encode (c : CallingConvention) : Json := .string c.key

def decode : Decoder CallingConvention := Decode.oneOf all key

end CallingConvention

namespace MacroObject

def encode (m : MacroObject) : Json :=
  .object ([("name", .string m.name), ("location", m.location.encode),
      ("tokens", .ofList .string m.tokens), ("value", .string m.value)] ++
    Json.optionalMember "type_name" .string m.typeName)

def decode : Decoder MacroObject := fun document => do
  let r ← Fields.read { names := ["name", "location", "tokens", "value", "type_name"] } document
  return {
    name := ← r.required "name" Decode.text
    location := ← r.required "location" Location.decode
    tokens := ← r.required "tokens" (Decode.list Decode.text)
    value := ← r.required "value" Decode.text
    typeName := ← r.withDefault "type_name" none (Decode.nullable Decode.text) }

end MacroObject

namespace GlobalVariable

def encode (v : GlobalVariable) : Json :=
  .object [("name", .string v.name), ("location", v.location.encode), ("type_info", v.type.encode)]

def decode : Decoder GlobalVariable := fun document => do
  let r ← Fields.read { names := ["name", "location", "type_info"] } document
  return {
    name := ← r.required "name" Decode.text
    location := ← r.required "location" Location.decode
    type := ← r.required "type_info" TypeUse.decode }

end GlobalVariable

namespace FunctionParameter

def encode (p : FunctionParameter) : Json :=
  .object [("name", .string p.name), ("location", p.location.encode), ("type_info", p.type.encode)]

def decode : Decoder FunctionParameter := fun document => do
  let r ← Fields.read { names := ["name", "location", "type_info"] } document
  return {
    name := ← r.required "name" Decode.text
    location := ← r.required "location" Location.decode
    type := ← r.required "type_info" TypeUse.decode }

end FunctionParameter

namespace FunctionDecl

def encode (f : FunctionDecl) : Json :=
  .object ([("name", .string f.name), ("location", f.location.encode),
      ("calling_convention", f.convention.encode), ("return_type", f.result.encode),
      ("parameters", .ofList FunctionParameter.encode f.parameters)] ++
    Json.flagMember "is_variadic" f.variadic)

def decode : Decoder FunctionDecl := fun document => do
  let r ← Fields.read
    { names := ["name", "location", "calling_convention", "return_type", "parameters",
      "is_variadic"] }
    document
  return {
    name := ← r.required "name" Decode.text
    location := ← r.required "location" Location.decode
    convention := ← r.required "calling_convention" CallingConvention.decode
    result := ← r.required "return_type" TypeUse.decode
    parameters := ← r.required "parameters" (Decode.list FunctionParameter.decode)
    variadic := ← r.withDefault "is_variadic" false Decode.flag }

end FunctionDecl

namespace RecordTag

def all : List RecordTag := [struct, union]

def key : RecordTag → String
  | struct => "struct"
  | union => "union"

def encode (t : RecordTag) : Json := .string t.key

def decode : Decoder RecordTag := Decode.oneOf all key

end RecordTag

namespace RecordField

def encode (f : RecordField) : Json :=
  .object [("name", .string f.name), ("location", f.location.encode), ("type_info", f.type.encode),
    ("offset_of", .integer f.offset)]

def decode : Decoder RecordField := fun document => do
  let r ← Fields.read { names := ["name", "location", "type_info", "offset_of"] } document
  return {
    name := ← r.required "name" Decode.text
    location := ← r.required "location" Location.decode
    type := ← r.required "type_info" TypeUse.decode
    offset := ← r.required "offset_of" Decode.int64 }

end RecordField

namespace RecordDecl

def encode (d : RecordDecl) : Json :=
  .object ([("record_kind", d.tag.encode), ("name", .string d.name),
    ("location", d.location.encode),
      ("size_of", .integer d.size)] ++
    Json.optionalMember "align_of" .integer d.align ++
    [("fields", .ofList RecordField.encode d.fields)])

def decode : Decoder RecordDecl := fun document => do
  let r ← Fields.read
    { names := ["record_kind", "name", "location", "size_of", "align_of", "fields"] } document
  return {
    tag := ← r.required "record_kind" RecordTag.decode
    name := ← r.required "name" Decode.text
    location := ← r.required "location" Location.decode
    size := ← r.required "size_of" Decode.int64
    align := ← r.withDefault "align_of" none (Decode.nullable Decode.int64)
    fields := ← r.required "fields" (Decode.list RecordField.decode) }

end RecordDecl

namespace EnumValue

def encode (v : EnumValue) : Json :=
  .object [("name", .string v.name), ("value", .integer v.value)]

def decode : Decoder EnumValue := fun document => do
  let r ← Fields.read { names := ["name", "value"] } document
  return {
    name := ← r.required "name" Decode.text
    value := ← r.required "value" Decode.int64 }

end EnumValue

namespace EnumDecl

def encode (e : EnumDecl) : Json :=
  .object [("name", .string e.name), ("location", e.location.encode), ("size_of", .integer e.size),
    ("integer_type", e.integerType.encode), ("values", .ofList EnumValue.encode e.values)]

def decode : Decoder EnumDecl := fun document => do
  let r ← Fields.read { names := ["name", "location", "size_of", "integer_type", "values"] }
      document
  return {
    name := ← r.required "name" Decode.text
    location := ← r.required "location" Location.decode
    size := ← r.required "size_of" Decode.int64
    integerType := ← r.required "integer_type" TypeUse.decode
    values := ← r.required "values" (Decode.list EnumValue.decode) }

end EnumDecl

namespace TypeAlias

def encode (a : TypeAlias) : Json :=
  .object [("name", .string a.name), ("location", a.location.encode),
    ("underlying_type", a.underlying.encode)]

def decode : Decoder TypeAlias := fun document => do
  let r ← Fields.read { names := ["name", "location", "underlying_type"] } document
  return {
    name := ← r.required "name" Decode.text
    location := ← r.required "location" Location.decode
    underlying := ← r.required "underlying_type" TypeUse.decode }

end TypeAlias

namespace OpaqueType

def encode (o : OpaqueType) : Json :=
  .object [("name", .string o.name), ("location", o.location.encode), ("size_of", .integer o.size)]

def decode : Decoder OpaqueType := fun document => do
  let r ← Fields.read { names := ["name", "location", "size_of"] } document
  return {
    name := ← r.required "name" Decode.text
    location := ← r.required "location" Location.decode
    size := ← r.required "size_of" Decode.int64 }

end OpaqueType

namespace PointerParameter

def encode (p : PointerParameter) : Json :=
  .object [("name", .string p.name), ("type_info", p.type.encode)]

def decode : Decoder PointerParameter := fun document => do
  let r ← Fields.read { names := ["name", "type_info"] } document
  return {
    name := ← r.required "name" Decode.text
    type := ← r.required "type_info" TypeUse.decode }

end PointerParameter

namespace FunctionPointer

def encode (p : FunctionPointer) : Json :=
  .object [("name", .string p.name), ("location", p.location.encode), ("size_of", .integer p.size),
    ("calling_convention", p.convention.encode), ("return_type", p.result.encode),
    ("parameters", .ofList PointerParameter.encode p.parameters)]

def decode : Decoder FunctionPointer := fun document => do
  let r ← Fields.read
    { names := ["name", "location", "size_of", "calling_convention", "return_type", "parameters"] }
    document
  return {
    name := ← r.required "name" Decode.text
    location := ← r.required "location" Location.decode
    size := ← r.required "size_of" Decode.int64
    convention := ← r.required "calling_convention" CallingConvention.decode
    result := ← r.required "return_type" TypeUse.decode
    parameters := ← r.required "parameters" (Decode.list PointerParameter.decode) }

end FunctionPointer

namespace PointerType

def encode (p : PointerType) : Json :=
  .object [("name", .string p.name), ("location", p.location.encode), ("size_of", .integer p.size),
    ("pointee", p.pointee.encode)]

def decode : Decoder PointerType := fun document => do
  let r ← Fields.read { names := ["name", "location", "size_of", "pointee"] } document
  return {
    name := ← r.required "name" Decode.text
    location := ← r.required "location" Location.decode
    size := ← r.required "size_of" Decode.int64
    pointee := ← r.required "pointee" TypeUse.decode }

end PointerType

namespace ArrayType

def encode (a : ArrayType) : Json :=
  .object ([("name", .string a.name), ("location", a.location.encode), ("size_of", .integer a.size),
      ("element", a.element.encode)] ++
    Json.optionalMember "element_count" .integer a.count)

def decode : Decoder ArrayType := fun document => do
  let r ← Fields.read { names := ["name", "location", "size_of", "element", "element_count"] }
      document
  return {
    name := ← r.required "name" Decode.text
    location := ← r.required "location" Location.decode
    size := ← r.required "size_of" Decode.int64
    element := ← r.required "element" TypeUse.decode
    count := ← r.withDefault "element_count" none (Decode.nullable Decode.int64) }

end ArrayType

namespace PrimitiveType

def encode (p : PrimitiveType) : Json :=
  .object [("name", .string p.name), ("location", p.location.encode), ("size_of", .integer p.size)]

def decode : Decoder PrimitiveType := fun document => do
  let r ← Fields.read { names := ["name", "location", "size_of"] } document
  return {
    name := ← r.required "name" Decode.text
    location := ← r.required "location" Location.decode
    size := ← r.required "size_of" Decode.int64 }

end PrimitiveType

/-- The document of the declaration itself, without its sort. -/
def Node.encode : Node → Json
  | macroObject m => m.encode
  | globalVariable v => v.encode
  | function f => f.encode
  | record r => r.encode
  | enum e => e.encode
  | typeAlias a => a.encode
  | opaqueType o => o.encode
  | functionPointer p => p.encode
  | pointer p => p.encode
  | array a => a.encode
  | primitive p => p.encode

end HeaderSurvey
