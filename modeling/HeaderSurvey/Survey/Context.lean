import HeaderSurvey.Declaration.TypeUse
import HeaderSurvey.Survey.Classification
import HeaderSurvey.Survey.Places

/-! What stays the same during a survey, and the names and measures that it gives to types. -/
namespace HeaderSurvey

/-- The words that only say what sort of type a name belongs to. -/
def tagWords : List String := ["struct", "union", "enum"]

/-- The spelling without `tagWords`. -/
def stripTags (spelling : String) : String :=
  Text.join " " ((Text.pieces ' ' spelling).filter (!tagWords.contains ·))

/-- Puts `dimension` before those that `base` has already. -/
def insertDimension (dimension : String) (base : String) : String :=
  let cs := base.toList
  String.ofList (cs.takeWhile (· ≠ '[') ++ dimension.toList ++ cs.dropWhile (· ≠ '['))

/-- Why a type is named after its parent. -/
inductive Marker where
  | anonymous
  | unnamed
deriving DecidableEq, Repr

namespace Marker

def text : Marker → String
  | anonymous => "_ANONYMOUS_FIELD"
  | unnamed => "_UNNAMED_FIELD"

/-- The name of a type that is part number `index` of `parent`. -/
def name (m : Marker) (parent : String) (index : Nat) : String := parent ++ m.text ++ toString index

/-- The marker of a type with that `declaration`, if it is named after its parent. -/
def of? (entry : TypeEntry) (declaration : Cursor) : Option Marker :=
  if declaration.anonymous then some anonymous
  else if Text.contains entry.spelling "(unnamed at " then some unnamed
  else none

end Marker

structure Context where
  unit : TranslationUnit
  places : Places
  switches : Switches
  pointerSize : Int

namespace Context

def ofSettings (unit : TranslationUnit) (s : Settings) (pointerBits : Nat) : Context :=
  { unit, places := Places.ofSettings unit.filePath s, switches := s.switches,
    pointerSize := (pointerBits / 8 : Nat) }

/-- The name of an array type, from the spelling of its elements. -/
def arrayName (x : Context) (entry : TypeEntry) (count : Option Int) :
    Except SurveyError String := do
  let element ← x.unit.typeAt entry.elementId
  let dimension := match count with
    | some n => "[" ++ toString n ++ "]"
    | none => "[]"
  return insertDimension dimension (stripTags element.spelling)

/-- The name of a type by its own spelling; it may be empty. -/
def spelledName (x : Context) (entry : TypeEntry) : Except SurveyError String :=
  match entry.kind with
  | .constantArray => x.arrayName entry (some entry.arraySize)
  | .incompleteArray => x.arrayName entry none
  | _ => .ok (stripTags entry.spelling)

/-- The name of a type. One that has none of its own is named by `Marker.name` after its `parent`
and its `index` there; macros and functions have no type name. -/
def typeName (x : Context) (kind : Kind) (t : TypeId) (parent : Option String) (index : Nat) :
    Except SurveyError String := do
  if kind = .macroObject ∨ kind = .function then return ""
  let entry ← x.unit.typeAt t
  let declaration ← x.unit.declarationOf entry
  let parent := parent.getD ""
  match Marker.of? entry declaration with
  | some marker =>
    if marker = .anonymous ∧ parent = "" then
      .error (.namelessDeclaration declaration.kind entry.spelling)
    else return marker.name parent index
  | none =>
    let name ← x.spelledName entry
    if name ≠ "" then return name
    else if declaration.kind = .structDecl ∨ declaration.kind = .unionDecl then
      return parent ++ "_" ++ declaration.spelling
    else .error (.emptyTypeName entry.spelling)

/-- The size of a type, and that of a pointer for pointers and arrays without one. -/
def shownSize (x : Context) (kind : Kind) (entry : TypeEntry) : Int :=
  if 0 ≤ entry.size then entry.size
  else match kind with
    | .primitive | .opaqueType => 0
    | .pointer | .array => x.pointerSize
    | _ => entry.size

/-- A layout number that says something about a layout. -/
def known (n : Int) : Option Int := if 0 ≤ n then some n else none

/-- Kind and size of the elements of an array type. -/
def elementSize (x : Context) (entry : TypeEntry) : Except SurveyError Int := do
  let (kind, element) ← x.unit.classify entry.elementId
  return x.shownSize kind (← x.unit.typeAt element)

/-- One layer of a use; the layout is that of `holder`. -/
def layerOf (x : Context) (kind : Kind) (name : String) (entry holder : TypeEntry) :
    Except SurveyError TypeLayer := do
  let elementSize ← if kind = .array then some <$> x.elementSize entry else pure none
  let declaration ← x.unit.declarationOf entry
  let location ← x.places.locate declaration entry
  return { name, kind, size := x.shownSize kind holder, align := known holder.align, elementSize,
           count := known holder.arraySize, location, anonymous := declaration.anonymous }

/-- What a pointer leads to, or an array is made of. -/
def innerId? (kind : Kind) (entry : TypeEntry) : Option TypeId :=
  match kind with
  | .pointer => some entry.pointeeId
  | .array => some entry.elementId
  | _ => none

/-- The use of a type, over at most that many layers. `container` is the type as it was referred to,
whose layout counts; `t` is what it resolves to. -/
def useWithin (x : Context) : Nat → Kind → String → TypeId → TypeId → Except SurveyError TypeUse
  | 0, _, _, _, _ => .error .unending
  | layers + 1, kind, name, t, container => do
    let entry ← x.unit.typeAt (← x.unit.unwrapAttributed t)
    let layer ← x.layerOf kind name entry (← x.unit.typeAt container)
    match innerId? kind entry with
    | none => return .leaf layer
    | some candidate =>
      let (kind, t) ← x.unit.classify candidate
      let spelling := (← x.unit.typeAt t).spelling
      return .layered layer (← x.useWithin layers kind (stripTags spelling) t candidate)

/-- The `TypeUse` of `t`. A chain of pointers and arrays that ends has no more layers than the unit
has types. -/
def use (x : Context) (kind : Kind) (name : String) (t container : TypeId) :
    Except SurveyError TypeUse :=
  x.useWithin (x.unit.types.size + 2) kind name t container

end Context

/-- A declaration or type that waits to be finished. -/
structure VisitNode where
  kind : Kind
  name : String
  typeName : String
  cursor : CursorId
  type : TypeId
  parent : Option String
  location : Location
  size : Int
  align : Option Int
deriving DecidableEq, Repr

/-- The name under which a node counts as the same as another of its `category`. -/
def VisitNode.key (n : VisitNode) : String :=
  if n.kind.isType && n.typeName != "" then n.typeName else n.name

/-- A node for the cursor `c` and the type `t`. Without a `name` it has that of the type. -/
def Context.visitNode (x : Context) (kind : Kind) (name : String) (c : CursorId) (t : TypeId)
    (parent : Option String) (index : Nat) : Except SurveyError VisitNode := do
  let typeName ← x.typeName kind t parent index
  let cursor ← x.unit.cursorAt c
  let entry ← x.unit.typeAt t
  return {
    kind, typeName, parent
    name := if name = "" then typeName else name
    cursor := c
    type := t
    location := ← x.places.locate cursor entry
    size := x.shownSize kind entry
    align := Context.known entry.align }

end HeaderSurvey
