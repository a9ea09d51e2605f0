import HeaderSurvey.Text.Alphanumeric

/-! Object-like macros: the text that their tokens make, and the type of those that are a literal,
possibly in brackets and with a sign. -/
namespace HeaderSurvey.Macro

/-! ## Text -/

def isUnaryOperator (token : String) : Bool := ["-", "+", "~", "!"].contains token

/-- Whether a token can be the end of an operand, so that an operator after it has two. -/
def endsOperand (token : String) : Bool :=
  match token.toList.getLast? with
  | some c => Text.isAlphanumeric c || ['_', ')', ']', '"', '\''].contains c
  | none => false

/-- Whether no blank stands before a token: after an opening bracket, before a closing one or a
separator, and between the name of a call and its arguments. -/
def isAttached (previous : Option String) (token : String) : Bool :=
  [")", "]", ",", ";"].contains token || previous == some "(" || previous == some "[" ||
    (token == "(" && previous.any fun p => endsOperand p && p.toList.getLast? != some ')')

/-- The text of the tokens after `previous`; `glued` says that the next one follows at once. A unary
operator is written together with its operand. -/
def textAfter (previous : Option String) (glued : Bool) : List String → String
  | [] => ""
  | token :: rest =>
    (if glued || isAttached previous token then "" else " ") ++ token ++
      textAfter (some token) (isUnaryOperator token && !previous.any endsOperand) rest

def text (tokens : List String) : String := textAfter none true tokens

/-! ## Literals -/

inductive LiteralType where
  | int
  | unsignedInt
  | long
  | unsignedLong
  | longLong
  | unsignedLongLong
  | float
  | double
  | char
  | string
deriving DecidableEq, Repr

def LiteralType.name : LiteralType → String
  | int => "int"
  | unsignedInt => "unsigned int"
  | long => "long"
  | unsignedLong => "unsigned long"
  | longLong => "long long"
  | unsignedLongLong => "unsigned long long"
  | float => "float"
  | double => "double"
  | char => "char"
  | string => "const char*"

/-- The type that a suffix gives to an integer literal. -/
def integerSuffix? (suffix : List Char) : Option LiteralType :=
  match String.ofList suffix with
  | "" => some .int
  | "u" => some .unsignedInt
  | "l" => some .long
  | "ul" | "lu" => some .unsignedLong
  | "ll" => some .longLong
  | "ull" | "llu" => some .unsignedLongLong
  | _ => none

def floatSuffix? (suffix : List Char) : Option LiteralType :=
  match String.ofList suffix with
  | "f" => some .float
  | "" | "l" => some .double
  | _ => none

/-- A literal without the marked characters at its end, and these. -/
def splitSuffix (marked : Char → Bool) (s : List Char) : List Char × List Char :=
  let suffix := (s.reverse.takeWhile marked).reverse
  (s.take (s.length - suffix.length), suffix)

def digitValue? (radix : Nat) (c : Char) : Option Nat :=
  let value? : Option Nat :=
    if c.isDigit then some (c.toNat - 48)
    else if c.isLower then some (c.toNat - 87)
    else none
  value?.filter (· < radix)

/-- The number that the digits make; there has to be one. -/
def digitsValue? (radix : Nat) (s : List Char) : Option Nat :=
  if s.isEmpty then none
  else s.foldlM (fun n c => (digitValue? radix c).map (radix * n + ·)) 0

/-- A number of 64 bits, after an optional plus sign. -/
def unsigned64? (radix : Nat) (s : List Char) : Option Nat :=
  (digitsValue? radix (if s.head? = some '+' then s.tail else s)).filter (· < 0x10000000000000000)

/-- Whether a text is digits, an optional fraction and an optional exponent, with a digit before the
exponent. -/
def isDecimalFraction (s : List Char) : Bool :=
  let rest := s.dropWhile Char.isDigit
  let (fraction, rest) := match rest with
    | '.' :: more => (more.takeWhile Char.isDigit, more.dropWhile Char.isDigit)
    | _ => ([], rest)
  let hasDigit := !(s.takeWhile Char.isDigit).isEmpty || !fraction.isEmpty
  let isExponent := match rest with
    | [] => true
    | 'e' :: '+' :: digits | 'e' :: '-' :: digits | 'e' :: digits =>
      !digits.isEmpty && digits.all Char.isDigit
    | _ => false
  hasDigit && isExponent

/-- Radix and digits of a literal in lower case. -/
def radixOf (s : List Char) : Nat × List Char :=
  match s with
  | '0' :: 'x' :: rest => (16, rest)
  | '0' :: 'b' :: rest => (2, rest)
  | _ => (10, s)

/-- The type of an integer literal without suffix grows with its value. -/
def widened (radix value : Nat) (suffix : List Char) (type : LiteralType) : LiteralType :=
  if suffix.isEmpty && 0x80000000 ≤ value then
    if radix ≠ 10 ∧ value < 0x100000000 then .unsignedInt else .longLong
  else type

/-- The type of a number. -/
def numberType? (token : String) : Option LiteralType :=
  let (radix, digits) := radixOf (token.toList.map Char.toLower)
  if radix = 10 ∧ (digits.contains '.' ∨ digits.contains 'e') then
    let (body, suffix) := splitSuffix (fun c => c = 'f' || c = 'l') digits
    if isDecimalFraction body then floatSuffix? suffix else none
  else do
    let (body, suffix) := splitSuffix (fun c => c = 'u' || c = 'l') digits
    let value ← unsigned64? radix body
    let type ← integerSuffix? suffix
    return widened radix value suffix type

def startsWith (test : Char → Bool) (token : String) : Bool := token.toList.head?.any test

def startsNumber (token : String) : Bool := startsWith (fun c => c.isDigit || c = '.') token

/-- The type of tokens without brackets around them and without a sign. -/
def plainType? (tokens : List String) : Option LiteralType :=
  if tokens.isEmpty then none
  else if tokens.all (startsWith (· = '"')) then some .string
  else match tokens with
    | [token] =>
      if startsWith (· = '\'') token then some .char
      else if startsNumber token then numberType? token
      else none
    | _ => none

/-- What stands between an opening bracket at the start and a closing one at the end. -/
def unbracket? : List String → Option (List String)
  | [] => none
  | first :: rest =>
    if first = "(" ∧ rest.getLast? = some ")" then some rest.dropLast else none

theorem unbracket?_length {tokens inner : List String} (h : unbracket? tokens = some inner) :
    inner.length < tokens.length := by
  cases tokens with
  | nil => simp [unbracket?] at h
  | cons first rest =>
    rw [unbracket?] at h
    split at h
    · simp only [Option.some.injEq] at h
      subst h
      simp only [List.length_dropLast, List.length_cons]
      omega
    · simp at h

def isSign (token : String) : Bool := token = "-" || token = "+"

/-- The tokens without brackets around all of them, or without a sign before a bracket. -/
def strip? (tokens : List String) : Option (List String) :=
  match unbracket? tokens, tokens with
  | some inner, _ => some inner
  | none, sign :: first :: rest => if isSign sign && first = "(" then some (first :: rest) else none
  | none, _ => none

theorem strip?_length {tokens rest : List String} (h : strip? tokens = some rest) :
    rest.length < tokens.length := by
  unfold strip? at h
  split at h
  · next hinner =>
    cases h
    exact unbracket?_length hinner
  · split at h
    · cases h
      exact Nat.lt_succ_self _
    · cases h
  · cases h

/-- The type of tokens from which nothing can be stripped: a number after a sign, or a literal. -/
def strippedType? : List String → Option LiteralType
  | [] => none
  | first :: rest =>
    if isSign first then
      match rest with
      | [number] => if startsNumber number then numberType? number else none
      | _ => none
    else plainType? (first :: rest)

/-- The type of the tokens of a macro that is a literal. -/
def type? (tokens : List String) : Option LiteralType :=
  match _h : strip? tokens with
  | some rest => type? rest
  | none => strippedType? tokens
termination_by tokens.length
decreasing_by exact strip?_length _h

end HeaderSurvey.Macro
