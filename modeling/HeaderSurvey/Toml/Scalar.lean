import HeaderSurvey.Json.Basic

/-! The single values of TOML documents: strings in their four forms, booleans, numbers and dates.
A reader takes what it reads off the front of a text and gives back the rest. -/
namespace HeaderSurvey.Toml

abbrev Text := List Char

abbrev Reader (α : Type) := Text → Option (α × Text)

/-! ## Blanks and lines -/

def isBlank (c : Char) : Bool := c = ' ' || c = '\t'

def skipBlanks (s : Text) : Text := s.dropWhile isBlank

/-- The text after the end of a line. -/
def newline? : Text → Option Text
  | '\n' :: rest | '\r' :: '\n' :: rest => some rest
  | _ => none

/-- The text after blanks and ends of lines. -/
def skipBlankLines : Text → Text
  | ' ' :: rest | '\t' :: rest | '\n' :: rest | '\r' :: '\n' :: rest => skipBlankLines rest
  | s => s

/-- Characters that may stand in comments and strings: no control character but the tab. -/
def isPrintable (c : Char) : Bool := c = '\t' || (32 ≤ c.toNat && c.toNat ≠ 127)

/-! ## Strings -/

private def hexDigit? (c : Char) : Option Nat :=
  if c.isDigit then some (c.toNat - 48)
  else if 'a' ≤ c ∧ c ≤ 'f' then some (c.toNat - 87)
  else if 'A' ≤ c ∧ c ≤ 'F' then some (c.toNat - 55)
  else none

/-- The character whose code point has exactly that many hexadecimal digits. -/
def codePoint? (digits : Nat) (s : Text) : Option (Char × Text) := do
  let lexeme := s.take digits
  if lexeme.length ≠ digits then none
  let n ← lexeme.foldlM (fun n c => (hexDigit? c).map (16 * n + ·)) 0
  if n.isValidChar then some (Char.ofNat n, s.drop digits) else none

/-- What a backslash and the text after it stand for. -/
def escape? : Reader Char
  | 'b' :: rest => some ('\x08', rest)
  | 't' :: rest => some ('\t', rest)
  | 'n' :: rest => some ('\n', rest)
  | 'f' :: rest => some ('\x0c', rest)
  | 'r' :: rest => some ('\r', rest)
  | '"' :: rest => some ('"', rest)
  | '\\' :: rest => some ('\\', rest)
  | 'u' :: rest => codePoint? 4 rest
  | 'U' :: rest => codePoint? 8 rest
  | _ => none

private def prepend (cs : Text) (read : Option (Text × Text)) : Option (Text × Text) :=
  read.map fun (more, rest) => (cs ++ more, rest)

/-- A string up to its closing quote, of at most that many parts. -/
def basicBody : Nat → Reader Text
  | 0, _ => none
  | _ + 1, [] => none
  | _ + 1, '"' :: rest => some ([], rest)
  | parts + 1, '\\' :: rest => do
    let (c, rest) ← escape? rest
    prepend [c] (basicBody parts rest)
  | parts + 1, c :: rest => if isPrintable c then prepend [c] (basicBody parts rest) else none

/-- A backslash at the end of a line joins it with the next line that is not blank. -/
def lineJoin? (s : Text) : Option Text := (newline? (skipBlanks s)).map skipBlankLines

/-- Quotes at the end of a string over several lines: three of them close it, and up to two before
these belong to it. -/
def closing? (quote : Char) (s : Text) : Option (Text × Text) :=
  let run := (s.takeWhile (· = quote)).length
  if run < 3 then none
  else
    let own := min (run - 3) 2
    some (List.replicate own quote, s.drop (own + 3))

/-- A string over several lines up to its closing quotes, of at most that many parts. -/
def multilineBody : Nat → Reader Text
  | 0, _ => none
  | parts + 1, s =>
    match closing? '"' s, newline? s, s with
    | some closed, _, _ => some closed
    | _, some rest, _ => prepend ['\n'] (multilineBody parts rest)
    | _, _, '\\' :: rest =>
      match lineJoin? rest with
      | some rest => multilineBody parts rest
      | none => do
        let (c, rest) ← escape? rest
        prepend [c] (multilineBody parts rest)
    | _, _, c :: rest => if isPrintable c then prepend [c] (multilineBody parts rest) else none
    | _, _, [] => none

/-- The same without escapes, in single quotes. -/
def multilineLiteralBody : Nat → Reader Text
  | 0, _ => none
  | parts + 1, s =>
    match closing? '\'' s, newline? s, s with
    | some closed, _, _ => some closed
    | _, some rest, _ => prepend ['\n'] (multilineLiteralBody parts rest)
    | _, _, c :: rest =>
      if isPrintable c then prepend [c] (multilineLiteralBody parts rest) else none
    | _, _, [] => none

/-- A string on one line without escapes, up to its closing quote. -/
def literalBody (s : Text) : Option (Text × Text) :=
  let body := s.takeWhile (fun c => c ≠ '\'' && isPrintable c)
  match s.drop body.length with
  | '\'' :: rest => some (body, rest)
  | _ => none

/-- A line end right after the opening quotes does not count. -/
private def skipFirstNewline (s : Text) : Text := (newline? s).getD s

/-- A string on one line. -/
def lineString? : Reader String
  | '"' :: rest => (basicBody (rest.length + 1) rest).map fun (cs, rest) => (String.ofList cs, rest)
  | '\'' :: rest => (literalBody rest).map fun (cs, rest) => (String.ofList cs, rest)
  | _ => none

/-- A string in any form. -/
def string? (s : Text) : Option (String × Text) :=
  match s with
  | '"' :: '"' :: '"' :: rest =>
    (multilineBody (rest.length + 1) (skipFirstNewline rest)).map
      fun (cs, rest) => (String.ofList cs, rest)
  | '\'' :: '\'' :: '\'' :: rest =>
    (multilineLiteralBody (rest.length + 1) (skipFirstNewline rest)).map
      fun (cs, rest) => (String.ofList cs, rest)
  | _ => lineString? s

/-! ## Numbers -/

/-- Digits with single underscores between them; the value is that of the digits. -/
def digits? (radix : Nat) (s : Text) : Option Nat :=
  let rec go (afterDigit : Bool) (n : Nat) : Text → Option Nat
    | [] => if afterDigit then some n else none
    | '_' :: rest => if afterDigit then go false n rest else none
    | c :: rest =>
      match (hexDigit? c).filter (· < radix) with
      | some d => go true (radix * n + d) rest
      | none => none
  go false 0 s

/-- A number in decimal digits without leading zeros. -/
def decimal? (s : Text) : Option Nat :=
  match s with
  | '0' :: _ :: _ => none
  | _ => digits? 10 s

private def unsignedPart (s : Text) : Bool × Text :=
  match s with
  | '+' :: rest => (false, rest)
  | '-' :: rest => (true, rest)
  | _ => (false, s)

/-- An integer of 64 bits. -/
def integer? (s : Text) : Option Int := do
  let n : Int ← match s with
    | '0' :: 'x' :: rest => (digits? 16 rest).map Int.ofNat
    | '0' :: 'o' :: rest => (digits? 8 rest).map Int.ofNat
    | '0' :: 'b' :: rest => (digits? 2 rest).map Int.ofNat
    | _ =>
      let (negative, body) := unsignedPart s
      (decimal? body).map fun n => if negative then -(n : Int) else n
  if -0x8000000000000000 ≤ n ∧ n < 0x8000000000000000 then some n else none

private def isFigure (c : Char) : Bool := c.isDigit || c = '_'

/-- A power of ten after its mark; without a mark it is zero. -/
def exponent? : Text → Option Int
  | [] => some 0
  | 'e' :: rest | 'E' :: rest =>
    let (negative, body) := unsignedPart rest
    (digits? 10 body).map fun n => if negative then -(n : Int) else n
  | _ => none

/-- Coefficient and power of ten of a number without sign that has a fraction or an exponent. -/
def scientific? (s : Text) : Option (Nat × Int) := do
  let whole := s.takeWhile isFigure
  let n ← decimal? whole
  match s.drop whole.length with
  | [] => none
  | '.' :: rest =>
    let fraction := rest.takeWhile isFigure
    let m ← digits? 10 fraction
    let places := fraction.countP Char.isDigit
    let exponent ← exponent? (rest.drop fraction.length)
    return (n * Nat.pow 10 places + m, exponent - places)
  | rest => return (n, ← exponent? rest)

/-- Half a step above the largest finite number of 64 bits. -/
def roundingBound : Nat := Nat.pow 2 1024 - Nat.pow 2 970

/-- Whether a coefficient and a power of ten make a number that rounds to infinity. The bound has
309 digits, so it is looked at only where the number has as many. -/
def isHuge (coefficient : Nat) (exponent : Int) : Bool :=
  let digits : Int := (Nat.toDigits 10 coefficient).length + exponent
  if coefficient = 0 ∨ digits < 309 then false
  else if 309 < digits then true
  else roundingBound * Nat.pow 10 (-exponent).toNat ≤ coefficient * Nat.pow 10 exponent.toNat

/-- Whether the text is a number with a fraction or an exponent, or one of the special numbers. A
number that rounds to infinity is refused, unless it is below zero. -/
def isFloat (s : Text) : Bool :=
  let (negative, body) := unsignedPart s
  body = "inf".toList || body = "nan".toList ||
    match scientific? body with
    | some (coefficient, exponent) => negative || !isHuge coefficient exponent
    | none => false

/-! ## Dates -/

/-- A number of exactly that many digits, between two bounds. -/
def fixed? (width low high : Nat) (s : Text) : Option (Nat × Text) := do
  let lexeme := s.take width
  if lexeme.length ≠ width ∨ !lexeme.all Char.isDigit then none
  let n ← digits? 10 lexeme
  if low ≤ n ∧ n ≤ high then some (n, s.drop width) else none

def daysInMonth (year month : Nat) : Nat :=
  if month = 2 then
    if year % 4 = 0 ∧ (year % 100 ≠ 0 ∨ year % 400 = 0) then 29 else 28
  else if [4, 6, 9, 11].contains month then 30
  else 31

private def expect? (c : Char) : Text → Option Text
  | d :: rest => if c = d then some rest else none
  | [] => none

/-- The text after a date. -/
def afterDate? (s : Text) : Option Text := do
  let (year, s) ← fixed? 4 0 9999 s
  let (month, s) ← fixed? 2 1 12 (← expect? '-' s)
  let (_, s) ← fixed? 2 1 (daysInMonth year month) (← expect? '-' s)
  return s

/-- The text after a time of day. -/
def afterTime? (s : Text) : Option Text := do
  let (_, s) ← fixed? 2 0 23 s
  let (_, s) ← fixed? 2 0 59 (← expect? ':' s)
  let (_, s) ← fixed? 2 0 60 (← expect? ':' s)
  match s with
  | '.' :: rest =>
    let fraction := rest.takeWhile Char.isDigit
    if fraction.isEmpty then none else some (rest.drop fraction.length)
  | _ => some s

/-- Whether the text is an offset from universal time, or none. -/
def isOffset : Text → Bool
  | [] | ['Z'] | ['z'] => true
  | '+' :: rest | '-' :: rest =>
    let after? := do
      let (_, s) ← fixed? 2 0 23 rest
      let (_, s) ← fixed? 2 0 59 (← expect? ':' s)
      return s
    after? == some []
  | _ => false

/-- Whether the text is a date, a time, or both. -/
def isDateTime (s : Text) : Bool :=
  match afterDate? s with
  | some [] => true
  | some (c :: rest) =>
    (c = 'T' || c = 't' || c = ' ') && (afterTime? rest).any isOffset
  | none => afterTime? s == some []

private def isScalarChar (c : Char) : Bool :=
  c.isAlphanum || c = '_' || c = '+' || c = '-' || c = '.' || c = ':'

/-- A boolean, a number or a date. A blank may divide a date from a time. -/
def scalar? (s : Text) : Option (Json × Text) :=
  let word := s.takeWhile isScalarChar
  let rest := s.drop word.length
  let timed := match rest with
    | ' ' :: more => word ++ ' ' :: more.takeWhile isScalarChar
    | _ => word
  if word = "true".toList then some (.bool true, rest)
  else if word = "false".toList then some (.bool false, rest)
  else if timed ≠ word ∧ isDateTime timed then
    some (.real (String.ofList timed), s.drop timed.length)
  else match integer? word with
    | some n => some (.integer n, rest)
    | none =>
      if isFloat word || isDateTime word then some (.real (String.ofList word), rest) else none

end HeaderSurvey.Toml
