import HeaderSurvey.Json.Decode

/-! The kinds of declarations and types that a survey tells apart. -/
namespace HeaderSurvey

inductive Kind where
  | macroObject
  | globalVariable
  | function
  | struct
  | union
  | enum
  | typeAlias
  | opaqueType
  | functionPointer
  | pointer
  | array
  | primitive
deriving DecidableEq, Repr

namespace Kind

def all : List Kind :=
  [macroObject, globalVariable, function, struct, union, enum, typeAlias, opaqueType,
   functionPointer, pointer, array, primitive]

/-- The name in documents. -/
def key : Kind → String
  | macroObject => "macro"
  | globalVariable => "variable"
  | function => "function"
  | struct => "struct"
  | union => "union"
  | enum => "enum"
  | typeAlias => "type_alias"
  | opaqueType => "opaque_type"
  | functionPointer => "function_pointer"
  | pointer => "pointer"
  | array => "array"
  | primitive => "primitive"

/-- The name in messages. -/
def label : Kind → String
  | typeAlias => "type alias"
  | opaqueType => "opaque type"
  | functionPointer => "function pointer"
  | kind => kind.key

def isType : Kind → Bool
  | macroObject | globalVariable | function => false
  | _ => true

def isRecord : Kind → Bool
  | struct | union => true
  | _ => false

def encode (k : Kind) : Json := .string k.key

def decode : Decoder Kind := Decode.oneOf all key

end Kind
end HeaderSurvey
