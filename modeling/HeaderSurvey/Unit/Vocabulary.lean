import HeaderSurvey.Json.Decode
import HeaderSurvey.Text.Split

/-! The vocabularies of a translation unit dump: sorts of declarations and of types, linkage, and
declared calling conventions. -/
namespace HeaderSurvey

/-- A word list written with underscores, as one name with capitals. -/
def capitalized (key : String) : String :=
  String.join ((Text.pieces '_' key).map fun word => word.capitalize)

inductive CursorKind where
  | translationUnit
  | functionDecl
  | varDecl
  | parmDecl
  | fieldDecl
  | structDecl
  | unionDecl
  | enumDecl
  | enumConstantDecl
  | typedefDecl
  | macroDefinition
  | macroExpansion
  | inclusionDirective
  | noDeclFound
  | other
deriving DecidableEq, Repr

namespace CursorKind

def all : List CursorKind :=
  [translationUnit, functionDecl, varDecl, parmDecl, fieldDecl, structDecl, unionDecl, enumDecl,
   enumConstantDecl, typedefDecl, macroDefinition, macroExpansion, inclusionDirective, noDeclFound,
   other]

/-- The name in documents. -/
def key : CursorKind → String
  | translationUnit => "translation_unit"
  | functionDecl => "function_decl"
  | varDecl => "var_decl"
  | parmDecl => "parm_decl"
  | fieldDecl => "field_decl"
  | structDecl => "struct_decl"
  | unionDecl => "union_decl"
  | enumDecl => "enum_decl"
  | enumConstantDecl => "enum_constant_decl"
  | typedefDecl => "typedef_decl"
  | macroDefinition => "macro_definition"
  | macroExpansion => "macro_expansion"
  | inclusionDirective => "inclusion_directive"
  | noDeclFound => "no_decl_found"
  | other => "other"

/-- The name in messages. -/
def label (k : CursorKind) : String := capitalized k.key

def encode (k : CursorKind) : Json := .string k.key

def decode : Decoder CursorKind := Decode.oneOf all key

end CursorKind

inductive TypeKind where
  | invalid
  | unexposed
  | void
  | bool
  | charU
  | uChar
  | char16
  | char32
  | uShort
  | uInt
  | uLong
  | uLongLong
  | uInt128
  | charS
  | sChar
  | wChar
  | short
  | int
  | long
  | longLong
  | int128
  | half
  | float16
  | float
  | double
  | longDouble
  | float128
  | pointer
  | blockPointer
  | record
  | enum
  | typedef
  | functionNoProto
  | functionProto
  | constantArray
  | incompleteArray
  | variableArray
  | vector
  | complex
  | elaborated
  | attributed
deriving DecidableEq, Repr

namespace TypeKind

def all : List TypeKind :=
  [invalid, unexposed, void, bool, charU, uChar, char16, char32, uShort, uInt, uLong, uLongLong,
   uInt128, charS, sChar, wChar, short, int, long, longLong, int128, half, float16, float, double,
   longDouble, float128, pointer, blockPointer, record, enum, typedef, functionNoProto,
   functionProto, constantArray, incompleteArray, variableArray, vector, complex, elaborated,
   attributed]

/-- The name in documents. -/
def key : TypeKind → String
  | invalid => "invalid"
  | unexposed => "unexposed"
  | void => "void"
  | bool => "bool"
  | charU => "char_u"
  | uChar => "u_char"
  | char16 => "char16"
  | char32 => "char32"
  | uShort => "u_short"
  | uInt => "u_int"
  | uLong => "u_long"
  | uLongLong => "u_long_long"
  | uInt128 => "u_int128"
  | charS => "char_s"
  | sChar => "s_char"
  | wChar => "w_char"
  | short => "short"
  | int => "int"
  | long => "long"
  | longLong => "long_long"
  | int128 => "int128"
  | half => "half"
  | float16 => "float16"
  | float => "float"
  | double => "double"
  | longDouble => "long_double"
  | float128 => "float128"
  | pointer => "pointer"
  | blockPointer => "block_pointer"
  | record => "record"
  | enum => "enum"
  | typedef => "typedef"
  | functionNoProto => "function_no_proto"
  | functionProto => "function_proto"
  | constantArray => "constant_array"
  | incompleteArray => "incomplete_array"
  | variableArray => "variable_array"
  | vector => "vector"
  | complex => "complex"
  | elaborated => "elaborated"
  | attributed => "attributed"

/-- The name in messages. -/
def label (k : TypeKind) : String := capitalized k.key

def isPrimitive : TypeKind → Bool
  | void | bool | charU | uChar | char16 | char32 | uShort | uInt | uLong | uLongLong | uInt128
  | charS | sChar | wChar | short | int | long | longLong | int128 | half | float16 | float
  | double | longDouble | float128 => true
  | _ => false

def isFunction : TypeKind → Bool
  | functionProto | functionNoProto => true
  | _ => false

def isArray : TypeKind → Bool
  | constantArray | incompleteArray => true
  | _ => false

def encode (k : TypeKind) : Json := .string k.key

def decode : Decoder TypeKind := Decode.oneOf all key

end TypeKind

inductive Linkage where
  | invalid
  | noLinkage
  | internal
  | uniqueExternal
  | external
deriving DecidableEq, Repr

namespace Linkage

def all : List Linkage :=
  [invalid, noLinkage, internal, uniqueExternal, external]

/-- The name in documents. -/
def key : Linkage → String
  | invalid => "invalid"
  | noLinkage => "no_linkage"
  | internal => "internal"
  | uniqueExternal => "unique_external"
  | external => "external"

def encode (l : Linkage) : Json := .string l.key

def decode : Decoder Linkage := Decode.oneOf all key

end Linkage

/-- A calling convention as a dump states it. -/
inductive DeclaredConvention where
  | c
  | stdCall
  | fastCall
  | thisCall
  | vectorCall
  | sysV64
  | win64
  | aapcs
  | aapcsVfp
  | invalid
  | unexposed
deriving DecidableEq, Repr

namespace DeclaredConvention

def all : List DeclaredConvention :=
  [c, stdCall, fastCall, thisCall, vectorCall, sysV64, win64, aapcs, aapcsVfp, invalid, unexposed]

/-- The name in documents. -/
def key : DeclaredConvention → String
  | c => "c"
  | stdCall => "x86_std_call"
  | fastCall => "x86_fast_call"
  | thisCall => "x86_this_call"
  | vectorCall => "x86_vector_call"
  | sysV64 => "x86_64_sys_v"
  | win64 => "x86_64_win64"
  | aapcs => "aapcs"
  | aapcsVfp => "aapcs_vfp"
  | invalid => "invalid"
  | unexposed => "unexposed"

def encode (k : DeclaredConvention) : Json := .string k.key

def decode : Decoder DeclaredConvention := Decode.oneOf all key

end DeclaredConvention

end HeaderSurvey
