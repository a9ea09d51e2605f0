import HeaderSurvey.Toml.Scalar
import HeaderSurvey.Toml.Table

/-! Reading a TOML text as a document: tables become objects, dates and numbers that are not
integers keep their text. -/
namespace HeaderSurvey.Toml

/-- Containers are nested at most this deep, and keys have at most this many parts. -/
def maxNesting : Nat := 79

/-! ## Keys -/

private def isKeyChar (c : Char) : Bool := c.isAlphanum || c = '_' || c = '-'

/-- One part of a key, bare or quoted. -/
def simpleKey? (s : Text) : Option (String × Text) :=
  match s with
  | '"' :: _ | '\'' :: _ => lineString? s
  | _ =>
    let word := s.takeWhile isKeyChar
    if word.isEmpty then none else some (String.ofList word, s.drop word.length)

/-- The parts of a key, of which there are at most as many as given: those before the last, and the
last. -/
def key? : Nat → Reader (List String × String)
  | 0, _ => none
  | parts + 1, s => do
    let (name, rest) ← simpleKey? (skipBlanks s)
    match skipBlanks rest with
    | '.' :: rest =>
      let ((path, last), rest) ← key? parts rest
      return ((name :: path, last), rest)
    | rest => return (([], name), rest)

/-! ## Values -/

/-- The text after a comment that may stand here, at the end of its line. -/
def skipComment? (s : Text) : Option Text :=
  match s with
  | '#' :: rest =>
    let after := rest.dropWhile isPrintable
    if after.isEmpty || (newline? after).isSome then some after else none
  | _ => some s

/-- The text after blanks, line ends and comments, of which there are at most as many as given. -/
def skipBetween? : Nat → Text → Option Text
  | 0, _ => none
  | comments + 1, s =>
    match skipBlankLines s with
    | '#' :: rest => do skipBetween? comments (← skipComment? ('#' :: rest))
    | s => some s

mutual

/-- A value inside `level` containers, of at most that many parts. -/
def value? (level : Nat) : Nat → Reader Json
  | 0, _ => none
  | parts + 1, s =>
    match s with
    | '"' :: _ | '\'' :: _ => (string? s).map fun (text, rest) => (.string text, rest)
    | c :: rest =>
      if c = '[' then do
        if maxNesting ≤ level then none
        let (items, rest) ← items? (level + 1) parts rest
        return (.array items, rest)
      else if c.toNat = 0x7B then do
        if maxNesting ≤ level then none
        match skipBlanks rest with
        | d :: more =>
          if d.toNat = 0x7D then return (.object [], more)
          else
            let (entries, rest) ← pairs? (level + 1) parts [] (d :: more)
            return (.object (entriesToJson entries), rest)
        | [] => none
      else scalar? s
    | [] => none

/-- The items of an array to its end. A comma may follow the last one. -/
def items? (level : Nat) : Nat → Reader (List Json)
  | 0, _ => none
  | parts + 1, s => do
    match ← skipBetween? (s.length + 1) s with
    | ']' :: rest => return ([], rest)
    | s =>
      let (item, rest) ← value? level parts s
      match ← skipBetween? (rest.length + 1) rest with
      | ',' :: rest =>
        let (items, rest) ← items? level parts rest
        return (item :: items, rest)
      | ']' :: rest => return ([item], rest)
      | _ => none

/-- The pairs of a table in braces to its end, all on one line. -/
def pairs? (level : Nat) : Nat → Entries → Reader Entries
  | 0, _, _ => none
  | parts + 1, entries, s => do
    let ((path, name), rest) ← key? maxNesting s
    match rest with
    | '=' :: rest =>
      let (v, rest) ← value? level parts (skipBlanks rest)
      let entries ← addValue path name v entries
      match skipBlanks rest with
      | ',' :: rest => pairs? level parts entries rest
      | d :: rest => if d.toNat = 0x7D then return (entries, rest) else none
      | [] => none
    | _ => none

end

/-! ## Documents -/

/-- The tables read so far, and the path of the one that is open. -/
structure State where
  entries : Entries := []
  current : List String := []

/-- The text after the end of a line with nothing more on it but a comment. -/
def lineEnd? (s : Text) : Option Text := do
  let s ← skipComment? (skipBlanks s)
  if s.isEmpty then some [] else newline? s

/-- A header, its brackets included. -/
def header? (state : State) (s : Text) : Option (State × Text) :=
  match s with
  | '[' :: '[' :: rest => do
    let ((path, name), rest) ← key? maxNesting rest
    match rest with
    | ']' :: ']' :: rest =>
      return (⟨← openElement path name state.entries, path ++ [name]⟩, ← lineEnd? rest)
    | _ => none
  | '[' :: rest => do
    let ((path, name), rest) ← key? maxNesting rest
    match rest with
    | ']' :: rest =>
      return (⟨← openTable path name state.entries, path ++ [name]⟩, ← lineEnd? rest)
    | _ => none
  | _ => none

/-- A key and its value, in the open table. -/
def pair? (state : State) (s : Text) : Option (State × Text) := do
  let ((path, name), rest) ← key? maxNesting s
  match rest with
  | '=' :: rest =>
    let (v, rest) ← value? 0 (rest.length + 1) (skipBlanks rest)
    let entries ← descend false (fun _ inner => addValue path name v inner) state.current .defined
      state.entries
    return ({ state with entries }, ← lineEnd? rest)
  | _ => none

/-- Reads line after line, of which there are at most as many as given. -/
def lines? : Nat → State → Text → Option State
  | 0, _, _ => none
  | lines + 1, state, s =>
    match skipBlanks s with
    | [] => some state
    | '#' :: rest => do lines? lines state (← lineEnd? ('#' :: rest))
    | '[' :: rest => do
      let (state, rest) ← header? state ('[' :: rest)
      lines? lines state rest
    | s =>
      match newline? s with
      | some rest => lines? lines state rest
      | none => do
        let (state, rest) ← pair? state s
        lines? lines state rest

/-- The document that a text holds. A byte order mark before it does not count. -/
def read? (text : String) : Option Json :=
  let s := match text.toList with
    | '\ufeff' :: rest => rest
    | s => s
  (lines? (s.length + 1) {} s).map fun state => .object (entriesToJson state.entries)

end HeaderSurvey.Toml
