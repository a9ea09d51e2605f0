import HeaderSurvey.Survey.Macro
import HeaderSurvey.Survey.Visit

/-! Finishing a node: each kind of node becomes one declaration, and the types that it refers to are
visited in the order of the source. -/
namespace HeaderSurvey

def DeclaredConvention.resolve : DeclaredConvention → CallingConvention
  | c => .cdecl
  | stdCall => .stdCall
  | fastCall => .fastCall
  | thisCall => .thisCall
  | vectorCall => .vectorCall
  | sysV64 => .sysV64
  | win64 => .win64
  | aapcs | aapcsVfp => .aapcs
  | invalid | unexposed => .unknown

namespace Context

def finishMacro (x : Context) (node : VisitNode) : SurveyM Node := do
  let tokens := (← x.unit.cursorAt node.cursor).macroTokens
  return .macroObject
    { name := node.name, location := node.location, tokens, value := Macro.text tokens,
      typeName := (Macro.type? tokens).map (·.name) }

/-- The type of a variable is described by `use`, but not offered. -/
def finishVariable (x : Context) (node : VisitNode) : SurveyM Node := do
  let (kind, t) ← x.unit.classify node.type
  let typeName ← x.typeName kind t (some node.name) 0
  let type ← x.use kind typeName t node.type
  return .globalVariable { name := node.name, location := node.location, type }

def finishParameter (x : Context) (node : VisitNode) (c : Cursor) (index : Nat) :
    SurveyM FunctionParameter := do
  let type ← x.visit c.type (some node.name) index
  let location ← x.places.locate c (← x.unit.typeAt c.type)
  return { name := c.spelling, location, type }

def finishFunction (x : Context) (node : VisitNode) : SurveyM Node := do
  let entry ← x.unit.typeAt node.type
  let result ← x.visit entry.resultId (some node.name) 0
  let cursor ← x.unit.cursorAt node.cursor
  let children ← x.unit.childrenOfKind cursor .parmDecl
  let parameters ← children.zipIdx.mapM fun (child, i) => x.finishParameter node child.2 i
  return .function
    { name := node.name, location := node.location, convention := entry.convention.resolve, result,
      parameters, variadic := entry.variadic }

def finishField (x : Context) (node : VisitNode) (id : CursorId) (index : Nat) :
    SurveyM RecordField := do
  let c ← x.unit.cursorAt id
  let type ← x.visit c.type (some node.name) index
  let location ← x.places.locate c (← x.unit.typeAt c.type)
  return { name := c.spelling, location, type, offset := max c.offsetBits 0 / 8 }

def finishRecord (x : Context) (node : VisitNode) : SurveyM Node := do
  let entry ← x.unit.typeAt node.type
  let fields ← entry.fields.zipIdx.mapM fun (id, i) => x.finishField node id i
  return .record
    { tag := if node.kind = .union then .union else .struct
      name := node.name, location := node.location, size := node.size, align := node.align, fields }

def finishEnum (x : Context) (node : VisitNode) : SurveyM Node := do
  let cursor ← x.unit.cursorAt node.cursor
  let integerType ← x.visit cursor.integerTypeId (some node.name) 0
  let constants ← x.unit.childrenOfKind cursor .enumConstantDecl
  return .enum
    { name := node.name, location := node.location, size := node.size, integerType,
      values := constants.map fun constant => ⟨constant.2.spelling, constant.2.enumValue⟩ }

/-- The function behind a pointer: the pointee, or its canonical form, each under at most one
attribute. -/
def pointedFunction (x : Context) (pointer : TypeEntry) : Except SurveyError TypeEntry := do
  let t ← x.unit.unwrapAttributed pointer.pointeeId
  let pointee ← x.unit.typeAt t
  if pointee.kind.isFunction then return pointee
  x.unit.typeAt (← x.unit.unwrapAttributed (pointee.canonicalId t))

def finishFunctionPointer (x : Context) (node : VisitNode) : SurveyM Node := do
  let function ← x.pointedFunction (← x.unit.typeAt node.type)
  let result ← x.visit function.resultId (some node.name) 0
  let parameters ← function.arguments.zipIdx.mapM fun (t, i) => do
    return ⟨"", ← x.visit t (some node.name) i⟩
  return .functionPointer
    { name := node.name, location := node.location, size := node.size,
      convention := function.convention.resolve, result, parameters }

def finishPointer (x : Context) (node : VisitNode) : SurveyM Node := do
  let entry ← x.unit.typeAt node.type
  let pointee ← x.visit entry.pointeeId (some node.name) 0
  return .pointer { name := node.name, location := node.location, size := node.size, pointee }

def finishArray (x : Context) (node : VisitNode) : SurveyM Node := do
  let entry ← x.unit.typeAt node.type
  let element ← x.visit entry.elementId (some node.name) 0
  return .array
    { name := node.name, location := node.location, size := node.size, element,
      count := known entry.arraySize }

/-- Finishes a node as the type of a kind that `isFlattened` which its alias stands for. -/
def finishFlattened (x : Context) (node : VisitNode) : SurveyM Node := do
  modify (·.record (.handled node))
  match node.kind with
  | .enum => x.finishEnum node
  | .functionPointer => x.finishFunctionPointer node
  | _ => x.finishRecord node

/-- An alias of a type of a kind that `isFlattened` is finished as that type under its own name; any
other keeps a use of what it stands for. -/
def finishAlias (x : Context) (node : VisitNode) : SurveyM Node := do
  let cursor ← x.unit.cursorAt node.cursor
  let (kind, t) ← x.unit.classify cursor.underlyingId
  if kind.isFlattened then
    let entry ← x.unit.typeAt t
    let flattened ← x.visitNode kind node.name entry.declarationId t node.parent 0
    x.finishFlattened
      { flattened with name := node.name, typeName := node.typeName, location := node.location }
  else
    let underlying ← x.visit cursor.underlyingId (some node.name) 0
    return .typeAlias { name := node.name, location := node.location, underlying }

def finish (x : Context) (node : VisitNode) : SurveyM Node := do
  modify (·.record (.handled node))
  match node.kind with
  | .macroObject => x.finishMacro node
  | .globalVariable => x.finishVariable node
  | .function => x.finishFunction node
  | .struct | .union => x.finishRecord node
  | .enum => x.finishEnum node
  | .typeAlias => x.finishAlias node
  | .opaqueType =>
    return .opaqueType { name := node.name, location := node.location, size := node.size }
  | .functionPointer => x.finishFunctionPointer node
  | .pointer => x.finishPointer node
  | .array => x.finishArray node
  | .primitive =>
    return .primitive { name := node.name, location := node.location, size := node.size }

end Context
end HeaderSurvey
