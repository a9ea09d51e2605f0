import HeaderSurvey.Declaration.TypeUse

/-! Finished declarations, one structure for each sort. They refer to each other only by name,
through the uses of types that they hold. -/
namespace HeaderSurvey

inductive CallingConvention where
  | cdecl
  | stdCall
  | fastCall
  | thisCall
  | vectorCall
  | sysV64
  | win64
  | aapcs
  | unknown
deriving DecidableEq, Repr

structure MacroObject where
  name : String
  location : Location
  tokens : List String
  value : String
  typeName : Option String
deriving DecidableEq, Repr

structure GlobalVariable where
  name : String
  location : Location
  type : TypeUse
deriving DecidableEq, Repr

structure FunctionParameter where
  name : String
  location : Location
  type : TypeUse
deriving DecidableEq, Repr

structure FunctionDecl where
  name : String
  location : Location
  convention : CallingConvention
  result : TypeUse
  parameters : List FunctionParameter
  variadic : Bool
deriving DecidableEq, Repr

inductive RecordTag where
  | struct
  | union
deriving DecidableEq, Repr

structure RecordField where
  name : String
  location : Location
  type : TypeUse
  offset : Int
deriving DecidableEq, Repr

structure RecordDecl where
  tag : RecordTag
  name : String
  location : Location
  size : Int
  align : Option Int
  fields : List RecordField
deriving DecidableEq, Repr

structure EnumValue where
  name : String
  value : Int
deriving DecidableEq, Repr

structure EnumDecl where
  name : String
  location : Location
  size : Int
  integerType : TypeUse
  values : List EnumValue
deriving DecidableEq, Repr

structure TypeAlias where
  name : String
  location : Location
  underlying : TypeUse
deriving DecidableEq, Repr

structure OpaqueType where
  name : String
  location : Location
  size : Int
deriving DecidableEq, Repr

structure PointerParameter where
  name : String
  type : TypeUse
deriving DecidableEq, Repr

structure FunctionPointer where
  name : String
  location : Location
  size : Int
  convention : CallingConvention
  result : TypeUse
  parameters : List PointerParameter
deriving DecidableEq, Repr

structure PointerType where
  name : String
  location : Location
  size : Int
  pointee : TypeUse
deriving DecidableEq, Repr

structure ArrayType where
  name : String
  location : Location
  size : Int
  element : TypeUse
  count : Option Int
deriving DecidableEq, Repr

structure PrimitiveType where
  name : String
  location : Location
  size : Int
deriving DecidableEq, Repr

inductive Node where
  | macroObject (m : MacroObject)
  | globalVariable (v : GlobalVariable)
  | function (f : FunctionDecl)
  | record (r : RecordDecl)
  | enum (e : EnumDecl)
  | typeAlias (a : TypeAlias)
  | opaqueType (o : OpaqueType)
  | functionPointer (p : FunctionPointer)
  | pointer (p : PointerType)
  | array (a : ArrayType)
  | primitive (p : PrimitiveType)
deriving DecidableEq, Repr

def RecordTag.kind : RecordTag → Kind
  | struct => .struct
  | union => .union

namespace Node

def kind : Node → Kind
  | macroObject _ => .macroObject
  | globalVariable _ => .globalVariable
  | function _ => .function
  | record r => r.tag.kind
  | enum _ => .enum
  | typeAlias _ => .typeAlias
  | opaqueType _ => .opaqueType
  | functionPointer _ => .functionPointer
  | pointer _ => .pointer
  | array _ => .array
  | primitive _ => .primitive

def name : Node → String
  | macroObject m => m.name
  | globalVariable v => v.name
  | function f => f.name
  | record r => r.name
  | enum e => e.name
  | typeAlias a => a.name
  | opaqueType o => o.name
  | functionPointer p => p.name
  | pointer p => p.name
  | array a => a.name
  | primitive p => p.name

def location : Node → Location
  | macroObject m => m.location
  | globalVariable v => v.location
  | function f => f.location
  | record r => r.location
  | enum e => e.location
  | typeAlias a => a.location
  | opaqueType o => o.location
  | functionPointer p => p.location
  | pointer p => p.location
  | array a => a.location
  | primitive p => p.location

/-- Size in bytes; macros and functions have none. -/
def size? : Node → Option Int
  | macroObject _ | function _ => none
  | globalVariable v => some v.type.layer.size
  | record r => some r.size
  | enum e => some e.size
  | typeAlias a => some a.underlying.layer.size
  | opaqueType o => some o.size
  | functionPointer p => some p.size
  | pointer p => some p.size
  | array a => some a.size
  | primitive p => some p.size

/-- The uses of types that a node holds. -/
def uses : Node → List TypeUse
  | macroObject _ | opaqueType _ | primitive _ => []
  | globalVariable v => [v.type]
  | function f => f.result :: f.parameters.map (·.type)
  | record r => r.fields.map (·.type)
  | enum e => [e.integerType]
  | typeAlias a => [a.underlying]
  | functionPointer p => p.result :: p.parameters.map (·.type)
  | pointer p => [p.pointee]
  | array a => [a.element]

end Node
end HeaderSurvey
