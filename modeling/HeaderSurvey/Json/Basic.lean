/-! JSON documents as trees. Members keep the order and the repetitions of the text, because a
reader may have to refuse a repeated member. -/
namespace HeaderSurvey

/-- A JSON value. A number written without fraction and exponent is an `integer`; any other number
is kept as its text, since no field of this library holds one. -/
inductive Json where
  | null
  | bool (value : Bool)
  | integer (value : Int)
  | real (text : String)
  | string (value : String)
  | array (items : List Json)
  | object (members : List (String × Json))
  /-- A value that may be passed over, but stands for nothing. -/
  | unreadable
deriving Inhabited, Repr

namespace Json

/-- The value of the first member of that name. -/
def get? (name : String) : Json → Option Json
  | object members => members.lookup name
  | _ => none

def nat (n : Nat) : Json := integer n

def ofOption {α : Type} (encode : α → Json) : Option α → Json
  | none => null
  | some a => encode a

def ofList {α : Type} (encode : α → Json) (items : List α) : Json := array (items.map encode)

end Json
end HeaderSurvey
