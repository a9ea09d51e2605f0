import HeaderSurvey.Declaration.Kind
import HeaderSurvey.Declaration.Location

/-! One use of a type, as a parameter, a field or a result. A pointer carries the use of what it
points to and an array that of its elements, so a use is a chain of layers, whatever cycles there
are among the declarations. -/
namespace HeaderSurvey

structure TypeLayer where
  name : String
  kind : Kind
  size : Int
  align : Option Int := none
  /-- Size of an element of an array. -/
  elementSize : Option Int := none
  /-- Number of elements of an array. -/
  count : Option Int := none
  location : Location := Location.none
  anonymous : Bool := false
deriving DecidableEq, Repr

inductive TypeUse where
  | leaf (layer : TypeLayer)
  | layered (layer : TypeLayer) (inner : TypeUse)
deriving DecidableEq, Repr

namespace TypeUse

def layer : TypeUse → TypeLayer
  | leaf layer | layered layer _ => layer

def inner? : TypeUse → Option TypeUse
  | leaf _ => none
  | layered _ inner => some inner

def ofLayer (layer : TypeLayer) : Option TypeUse → TypeUse
  | none => leaf layer
  | some inner => layered layer inner

def name (t : TypeUse) : String := t.layer.name

def kind (t : TypeUse) : Kind := t.layer.kind

/-- Number of layers below the outermost one. -/
def depth : TypeUse → Nat
  | leaf _ => 0
  | layered _ inner => inner.depth + 1

def innermost : TypeUse → TypeUse
  | leaf layer => leaf layer
  | layered _ inner => inner.innermost

/-- The use and all uses inside it, outermost first. -/
def levels : TypeUse → List TypeUse
  | leaf layer => [leaf layer]
  | layered layer inner => layered layer inner :: inner.levels

end TypeUse

/-! ## Documents -/

namespace Json

/-- A member that is left out when there is no value. -/
def optionalMember {α : Type} (name : String) (encode : α → Json) : Option α → List (String × Json)
  | none => []
  | some a => [(name, encode a)]

/-- A member that is left out when it is false. -/
def flagMember (name : String) (flag : Bool) : List (String × Json) :=
  if flag then [(name, .bool true)] else []

end Json

/-- The members of a layer. A location that names no file is left out. -/
def TypeLayer.members (l : TypeLayer) : List (String × Json) :=
  [("name", .string l.name), ("kind", l.kind.encode), ("size_of", .integer l.size)] ++
    Json.optionalMember "align_of" .integer l.align ++
    Json.optionalMember "element_size" .integer l.elementSize ++
    Json.optionalMember "array_size_of" .integer l.count ++
    (if l.location.isNull then [] else [("location", l.location.encode)]) ++
    Json.flagMember "is_anonymous" l.anonymous

namespace TypeUse

def encode : TypeUse → Json
  | leaf layer => .object layer.members
  | layered layer inner => .object (layer.members ++ [("inner_type", inner.encode)])

def shape : Fields.Shape :=
  { names := ["name", "kind", "size_of", "align_of", "element_size", "array_size_of", "location",
      "is_anonymous", "inner_type"] }

/-- The outermost layer of a use. -/
def decodeLayer : Decoder TypeLayer := fun document => do
  let r ← Fields.read shape document
  return {
    name := ← r.required "name" Decode.text
    kind := ← r.required "kind" Kind.decode
    size := ← r.required "size_of" Decode.int64
    align := ← r.withDefault "align_of" none (Decode.nullable Decode.int64)
    elementSize := ← r.withDefault "element_size" none (Decode.nullable Decode.int64)
    count := ← r.withDefault "array_size_of" none (Decode.nullable Decode.int64)
    location := ← r.withDefault "location" Location.none Location.decode
    anonymous := ← r.withDefault "is_anonymous" false Decode.flag }

mutual

def decode : Json → Except DecodeFault TypeUse
  | .object members => do
    let layer ← decodeLayer (.object members)
    return ofLayer layer (← decodeMember members)
  | .array items => do
    let layer ← decodeLayer (.array items)
    return ofLayer layer (← decodeItem 8 items)
  | _ => .error (.expected "a record")

/-- The use inside, found by its name. -/
def decodeMember : List (String × Json) → Except DecodeFault (Option TypeUse)
  | [] => .ok none
  | (name, document) :: rest =>
    if name = "inner_type" then Decode.unlessNull (decode document) document else decodeMember rest

/-- The use inside, found after that many other fields. -/
def decodeItem (skip : Nat) : List Json → Except DecodeFault (Option TypeUse)
  | [] => .ok none
  | item :: rest => match skip with
    | 0 => Decode.unlessNull (decode item) item
    | skip + 1 => decodeItem skip rest

end

end TypeUse
end HeaderSurvey
