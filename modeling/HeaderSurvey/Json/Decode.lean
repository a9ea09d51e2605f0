import HeaderSurvey.Json.Reader

/-! Reading typed values out of JSON documents. A record is written as an object, or as an array of
its fields in their order; each reader of a field says what a missing one stands for. -/
namespace HeaderSurvey

/-- Why a text or a document is not the value that was asked for. -/
inductive DecodeFault where
  | malformed
  | expected (what : String)
  | missing (field : String)
  | repeated (field : String)
  | unexpected (field : String)
  | tooLong
  | outOfRange (value : Int)
  | refused (reason : String)
deriving Repr, DecidableEq

def DecodeFault.message : DecodeFault → String
  | malformed => "the text is not a document"
  | expected what => "expected " ++ what
  | missing field => "missing field '" ++ field ++ "'"
  | repeated field => "duplicate field '" ++ field ++ "'"
  | unexpected field => "unknown field '" ++ field ++ "'"
  | tooLong => "too many items"
  | outOfRange value => "number " ++ toString value ++ " is out of range"
  | refused reason => reason

abbrev Decoder (α : Type) := Json → Except DecodeFault α

namespace Decode

def text : Decoder String
  | .string s => .ok s
  | _ => .error (.expected "a string")

def flag : Decoder Bool
  | .bool b => .ok b
  | _ => .error (.expected "a boolean")

/-- An integer of 64 bits with sign. -/
def int64 : Decoder Int
  | .integer n =>
    if -0x8000000000000000 ≤ n ∧ n < 0x8000000000000000 then .ok n else .error (.outOfRange n)
  | _ => .error (.expected "an integer")

/-- A number of 32 bits. -/
def nat32 : Decoder Nat
  | .integer n => if 0 ≤ n ∧ n < 0x100000000 then .ok n.toNat else .error (.outOfRange n)
  | _ => .error (.expected "an integer")

def list {α : Type} (item : Decoder α) : Decoder (List α)
  | .array items => items.mapM item
  | _ => .error (.expected "an array")

/-- Null stands for no value; any other document for what has been read from it. -/
def unlessNull {α : Type} (read : Except DecodeFault α) : Decoder (Option α)
  | .null => .ok none
  | _ => some <$> read

def nullable {α : Type} (value : Decoder α) : Decoder (Option α) :=
  fun document => unlessNull (value document) document

/-- One of finitely many values, written by its name. An object with that name as its only member,
holding null, stands for it too. -/
def oneOf {α : Type} (values : List α) (name : α → String) (document : Json) :
    Except DecodeFault α :=
  let written? : Option String := match document with
    | .string s => some s
    | .object [(s, .null)] => some s
    | _ => none
  match written?.bind fun s => values.find? (name · == s) with
  | some value => .ok value
  | none => .error (.expected "a known name")

end Decode

/-- How a record is written: its fields in order, whether other members are refused, and whether
items after the last field are passed over. -/
structure Fields.Shape where
  names : List String
  closed : Bool := false
  openEnded : Bool := false

/-- What a record holds for each of its fields: nothing if no member has the name, or if the array
ends before it. -/
structure Fields where
  slots : List (String × Option Json)

namespace Fields

def positional : List String → List Json → List (String × Option Json)
  | [], _ => []
  | field :: fields, items => (field, items.head?) :: positional fields items.tail

def named (members : List (String × Json)) (field : String) : String × Option Json :=
  (field, members.lookup field)

/-- The slots of a record. A field that is named twice is refused. -/
def read (shape : Fields.Shape) : Json → Except DecodeFault Fields
  | .object members =>
    match shape.names.find? fun field => 1 < members.countP (·.1 == field) with
    | some field => .error (.repeated field)
    | none =>
      match members.find? fun m => shape.closed && !shape.names.contains m.1 with
      | some m => .error (.unexpected m.1)
      | none => .ok ⟨shape.names.map (named members)⟩
  | .array items =>
    if shape.names.length < items.length ∧ ¬shape.openEnded then .error .tooLong
    else .ok ⟨positional shape.names items⟩
  | _ => .error (.expected "a record")

def slot (r : Fields) (field : String) : Option Json := (r.slots.lookup field).getD none

/-- A field without which there is no record. -/
def required {α : Type} (r : Fields) (field : String) (value : Decoder α) : Except DecodeFault α :=
  match r.slot field with
  | some document => value document
  | none => .error (.missing field)

/-- A field that stands for `default` when it is left out. -/
def withDefault {α : Type} (r : Fields) (field : String) (default : α) (value : Decoder α) :
    Except DecodeFault α :=
  match r.slot field with
  | some document => value document
  | none => .ok default

end Fields

/-- Reads a text through a decoder of documents. -/
def Decoder.ofText {α : Type} (value : Decoder α) (text : String) : Except DecodeFault α :=
  match Json.read? text with
  | some document => value document
  | none => .error .malformed

end HeaderSurvey
