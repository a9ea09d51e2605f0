import HeaderSurvey.Json.Basic

/-! The two written forms of a document: on one line without blanks, and indented by two blanks with
one item a line. -/
namespace HeaderSurvey.Json

def hexDigit (n : Nat) : Char := if n < 10 then Char.ofNat (48 + n) else Char.ofNat (87 + n)

/-- Only the quote, the backslash and the control characters below U+0020 are escaped. -/
def escapeChar (c : Char) : List Char :=
  if c = '"' then ['\\', '"']
  else if c = '\\' then ['\\', '\\']
  else if 32 ≤ c.toNat then [c]
  else if c.toNat = 8 then ['\\', 'b']
  else if c.toNat = 9 then ['\\', 't']
  else if c.toNat = 10 then ['\\', 'n']
  else if c.toNat = 12 then ['\\', 'f']
  else if c.toNat = 13 then ['\\', 'r']
  else ['\\', 'u', '0', '0', hexDigit (c.toNat / 16), hexDigit (c.toNat % 16)]

/-- The text as a JSON string, quotes included. -/
def quote (s : String) : String :=
  "\"" ++ String.ofList (s.toList.flatMap escapeChar) ++ "\""

mutual

/-- The document on one line. -/
def compact : Json → String
  | null | unreadable => "null"
  | bool b => if b then "true" else "false"
  | integer n => toString n
  | real text => text
  | string s => quote s
  | array items => "[" ++ compactItems items ++ "]"
  | object members => "\x7b" ++ compactMembers members ++ "\x7d"

def compactItems : List Json → String
  | [] => ""
  | [item] => compact item
  | item :: next :: rest => compact item ++ "," ++ compactItems (next :: rest)

def compactMembers : List (String × Json) → String
  | [] => ""
  | [(name, value)] => quote name ++ ":" ++ compact value
  | (name, value) :: next :: rest =>
    quote name ++ ":" ++ compact value ++ "," ++ compactMembers (next :: rest)

end

/-- A new line, indented to the given level. -/
def lineAt (level : Nat) : String := "\n" ++ String.ofList (List.replicate (2 * level) ' ')

mutual

/-- The document over several lines, its containers opened at the given level. -/
def prettyAt (level : Nat) : Json → String
  | null | unreadable => "null"
  | bool b => if b then "true" else "false"
  | integer n => toString n
  | real text => text
  | string s => quote s
  | array [] => "[]"
  | array (item :: rest) =>
    "[" ++ lineAt (level + 1) ++ prettyAt (level + 1) item ++ prettyItems (level + 1) rest ++
      lineAt level ++ "]"
  | object [] => "\x7b\x7d"
  | object ((name, value) :: rest) =>
    "\x7b" ++ lineAt (level + 1) ++ quote name ++ ": " ++ prettyAt (level + 1) value ++
      prettyMembers (level + 1) rest ++ lineAt level ++ "\x7d"

def prettyItems (level : Nat) : List Json → String
  | [] => ""
  | item :: rest => "," ++ lineAt level ++ prettyAt level item ++ prettyItems level rest

def prettyMembers (level : Nat) : List (String × Json) → String
  | [] => ""
  | (name, value) :: rest =>
    "," ++ lineAt level ++ quote name ++ ": " ++ prettyAt level value ++ prettyMembers level rest

end

/-- The document over several lines, without a final new line. -/
def pretty (document : Json) : String := prettyAt 0 document

end HeaderSurvey.Json
