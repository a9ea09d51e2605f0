import HeaderSurvey.Json.Basic

/-! The tables of a TOML document while it is read. A table may be opened by its header only once,
and what one form of writing has made cannot be extended by another. -/
namespace HeaderSurvey.Toml

/-- How a table came to be. -/
inductive Origin where
  /-- By the header of a table inside it. -/
  | implied
  /-- By a key with dots. -/
  | dotted
  /-- By a header of its own. -/
  | defined
deriving DecidableEq, Repr

inductive Item where
  | value (value : Json)
  | table (origin : Origin) (entries : List (String × Item))
  /-- Tables of one name in double brackets, latest first. -/
  | tables (elements : List (List (String × Item)))

abbrev Entries := List (String × Item)

/-- Changes the entry of that name, or adds one at the end. -/
def alter (name : String) (f : Option Item → Option Item) : Entries → Option Entries
  | [] => (f none).map fun item => [(name, item)]
  | (n, item) :: rest =>
    if n = name then (f (some item)).map fun item => (n, item) :: rest
    else (alter name f rest).map ((n, item) :: ·)

/-- Changes the table at the end of a path. Missing tables on the way are made; of tables in double
brackets the latest is meant. A path of a key with dots does not go through tables with a header. -/
def descend (dots : Bool) (f : Origin → Entries → Option Entries) :
    List String → Origin → Entries → Option Entries
  | [], origin, entries => f origin entries
  | name :: path, _, entries =>
    let made := if dots then Origin.dotted else .implied
    entries |> alter name fun
      | none => (descend dots f path made []).map (.table made)
      | some (.value _) => none
      | some (.table origin inner) =>
        if dots ∧ origin = .defined then none
        else (descend dots f path origin inner).map (.table origin)
      | some (.tables []) => none
      | some (.tables (latest :: earlier)) =>
        (descend dots f path .defined latest).map fun latest => .tables (latest :: earlier)

/-- Adds a value under a key that may have dots. -/
def addValue (path : List String) (name : String) (value : Json) (entries : Entries) :
    Option Entries :=
  descend true
    (fun origin inner =>
      if !path.isEmpty && origin != .dotted then none
      else inner |> alter name fun
        | none => some (.value value)
        | some _ => none)
    path .defined entries

/-- Opens the table of a header. -/
def openTable (path : List String) (name : String) (entries : Entries) : Option Entries :=
  descend false
    (fun _ inner => inner |> alter name fun
      | none => some (.table .defined [])
      | some (.table .implied inner) => some (.table .defined inner)
      | some _ => none)
    path .defined entries

/-- Opens another table of a header in double brackets. -/
def openElement (path : List String) (name : String) (entries : Entries) : Option Entries :=
  descend false
    (fun _ inner => inner |> alter name fun
      | none => some (.tables [[]])
      | some (.tables elements) => some (.tables ([] :: elements))
      | some _ => none)
    path .defined entries

mutual

/-- The document of an item. -/
def Item.toJson : Item → Json
  | .value v => v
  | .table _ entries => .object (entriesToJson entries)
  | .tables elements => .array (elementsToJson elements).reverse

def entriesToJson : List (String × Item) → List (String × Json)
  | [] => []
  | (name, item) :: rest => (name, item.toJson) :: entriesToJson rest

def elementsToJson : List (List (String × Item)) → List Json
  | [] => []
  | entries :: rest => .object (entriesToJson entries) :: elementsToJson rest

end

end HeaderSurvey.Toml
