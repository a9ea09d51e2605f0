import HeaderSurvey.Survey.Session

/-! Following a reference to a type: the type behind it is offered to the session, and the reference
is described by a use. Which node is offered does not depend on the session. -/
namespace HeaderSurvey

/-- Whether an alias of such a type is replaced by the type itself. -/
def Kind.isFlattened : Kind → Bool
  | .enum | .struct | .union | .functionPointer => true
  | _ => false

namespace Context

/-- `node` under the name and at the place of the alias `referrer` through which it was reached. -/
def renamed (x : Context) (node : VisitNode) (referrer : TypeId) :
    Except SurveyError VisitNode := do
  let entry ← x.unit.typeAt referrer
  let declaration ← x.unit.declarationOf entry
  let name := stripTags entry.spelling
  return { node with name, typeName := name, location := ← x.places.locate declaration entry }

/-- A `functionPointer` that was reached through an alias goes by that alias. -/
def namedBy (x : Context) (referrer : Option TypeId) (node : VisitNode) :
    Except SurveyError VisitNode :=
  match node.kind, referrer with
  | .functionPointer, some referrer => x.renamed node referrer
  | _, _ => .ok node

/-- Whether the name or the type name of `node` is one of `opaqueTypes`. -/
def isOverridden (x : Context) (node : VisitNode) : Bool :=
  x.switches.isOpaque node.name || x.switches.isOpaque node.typeName

/-- The node behind a reference, and the type by which it was referred to last, over at most that
many aliases. An alias of a type of a kind that `isFlattened` leads to that type; a
`functionPointer` has the name of the alias. -/
def resolveWithin (x : Context) (parent : Option String) (index : Nat) :
    Nat → TypeId → Option TypeId → Except SurveyError (VisitNode × TypeId)
  | 0, _, _ => .error .unending
  | aliases + 1, candidate, referrer => do
    let (kind, t) ← x.unit.classify candidate
    let c := (← x.unit.typeAt t).declarationId
    let declaration ← x.unit.cursorAt c
    let node ← x.visitNode kind declaration.spelling c t parent index
    let node ← x.namedBy referrer node
    if x.isOverridden node then return ({ node with kind := .opaqueType }, candidate)
    if kind = .typeAlias then
      let (underlyingKind, underlying) ← x.unit.classify declaration.underlyingId
      if underlyingKind.isFlattened then
        return ← x.resolveWithin parent index aliases underlying (some t)
    return (node, candidate)

/-- `resolveWithin` as many aliases as the unit has types: a chain that ends is no longer. -/
def resolve (x : Context) (candidate : TypeId) (parent : Option String) (index : Nat) :
    Except SurveyError (VisitNode × TypeId) :=
  x.resolveWithin parent index (x.unit.types.size + 2) candidate none

/-- Follows a reference to a type: `resolve`, `offer`, `use`. A function type is described, but not
offered. -/
def visit (x : Context) (candidate : TypeId) (parent : Option String) (index : Nat) :
    SurveyM TypeUse := do
  let (node, container) ← x.resolve candidate parent index
  if node.kind ≠ .function then
    let _ ← x.offer node
  let use ← x.use node.kind node.typeName node.type container
  modify (·.record (.described use))
  return use

/-- The kind of a declaration that a survey starts from. -/
def topLevelKind? (c : Cursor) : Option Kind :=
  match c.kind with
  | .functionDecl => some .function
  | .varDecl => some .globalVariable
  | .enumDecl => some .enum
  | .macroDefinition => some .macroObject
  | _ => none

/-- Macros that are not built in, and functions, variables and enumerations that are visible to
other units. -/
def isTopLevel (c : Cursor) : Bool :=
  match c.kind with
  | .macroDefinition => !c.macroBuiltin
  | .functionDecl | .varDecl | .enumDecl => c.linkage == .external
  | _ => false

/-- Whether a top-level declaration is passed over: macros with parameters, and enumerations that
are not wanted by `danglingEnums` or have no name. -/
def isSkipped (x : Context) (kind : Kind) (c : Cursor) : Bool :=
  (kind == .macroObject && c.macroFunctionLike) ||
    (kind == .enum && (!x.switches.danglingEnums || c.anonymous))

/-- What is looked up for a declaration that is passed over: the type of an enumeration without a
name. -/
def passOver (x : Context) (kind : Kind) (c : Cursor) : Except SurveyError Unit :=
  if kind == .enum && x.switches.danglingEnums then (x.unit.typeAt c.type).map fun _ => ()
  else .ok ()

/-- The type of a top-level declaration, under at most one unexposed and one attributed wrapper. -/
def topLevelType (x : Context) (c : Cursor) : Except SurveyError TypeId := do
  let entry ← x.unit.typeAt c.type
  x.unit.unwrapAttributed (if entry.kind = .unexposed then entry.canonicalId c.type else c.type)

/-- Offers a top-level declaration, unless it `isSkipped`. -/
def visitTopLevel (x : Context) (id : CursorId) (c : Cursor) : SurveyM Unit := do
  match topLevelKind? c with
  | none => return ()
  | some kind =>
    if x.isSkipped kind c then x.passOver kind c
    else do
      let t ← x.topLevelType c
      let node ← x.visitNode kind c.spelling id t none 0
      let _ ← x.offer node

/-- Offers the top-level declarations in the order of the source. -/
def scan (x : Context) : SurveyM Unit := do
  let root ← x.unit.cursorAt CursorId.root
  (← x.unit.childrenWhere root isTopLevel).forM fun child => x.visitTopLevel child.1 child.2

end Context
end HeaderSurvey
