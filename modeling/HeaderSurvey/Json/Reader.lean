import HeaderSurvey.Json.Basic

/-! Reading a JSON text. The text is first cut into tokens; a machine with a stack of open
containers then takes the tokens one by one. No trailing comma, leading zero, raw control character
or text after the document is accepted. A string with half of a surrogate pair, an object with such
a name, and a container nested deeper than `maxNesting` are `unreadable`: they do no harm where
nobody asks for them. -/
namespace HeaderSurvey.Json

inductive Token where
  | openArray
  | closeArray
  | openObject
  | closeObject
  | comma
  | colon
  | scalar (value : Json)
deriving Inhabited

/-! ## Strings -/

def hexValue? (c : Char) : Option Nat :=
  if '0' ≤ c ∧ c ≤ '9' then some (c.toNat - 48)
  else if 'a' ≤ c ∧ c ≤ 'f' then some (c.toNat - 87)
  else if 'A' ≤ c ∧ c ≤ 'F' then some (c.toNat - 55)
  else none

/-- A part of a string: a character, or a code unit of UTF-16 by its number. -/
inductive StringPart where
  | char (c : Char)
  | unit (n : Nat)

/-- Where the reader stands inside a string. -/
inductive StringState where
  | plain
  | escape
  /-- In a `\u` escape with that many digits to come. -/
  | digits (left value : Nat)

inductive StringStep where
  | go (state : StringState) (emitted : Option StringPart)
  | close
  | fail

def simpleEscape? (c : Char) : Option Char :=
  match c with
  | '"' => some '"'
  | '\\' => some '\\'
  | '/' => some '/'
  | 'b' => some '\x08'
  | 'f' => some '\x0c'
  | 'n' => some '\n'
  | 'r' => some '\r'
  | 't' => some '\t'
  | _ => none

def StringState.step (c : Char) : StringState → StringStep
  | plain =>
    if c = '"' then .close
    else if c = '\\' then .go escape none
    else if c.toNat < 32 then .fail
    else .go plain (some (.char c))
  | escape =>
    if c = 'u' then .go (digits 4 0) none
    else match simpleEscape? c with
      | some d => .go plain (some (.char d))
      | none => .fail
  | digits left value =>
    match hexValue? c with
    | none => .fail
    | some d =>
      if left ≤ 1 then .go plain (some (.unit (16 * value + d)))
      else .go (digits (left - 1) (16 * value + d)) none

/-- Reads to the closing quote: the parts, latest first, and what follows the quote. -/
def stringBody (state : StringState) (read : List StringPart) :
    List Char → Option (List StringPart × List Char)
  | [] => none
  | c :: rest =>
    match state.step c with
    | .fail => none
    | .close => some (read, rest)
    | .go next none => stringBody next read rest
    | .go next (some d) => stringBody next (d :: read) rest

theorem stringBody_length {state : StringState} {read t : List StringPart} {s rest : List Char}
    (h : stringBody state read s = some (t, rest)) : rest.length < s.length := by
  induction s generalizing state read with
  | nil => simp [stringBody] at h
  | cons c s ih =>
    rw [stringBody] at h
    split at h
    · simp at h
    · simp only [Option.some.injEq, Prod.mk.injEq] at h
      simp [h.2]
    · have := ih h
      simp only [List.length_cons]
      omega
    · have := ih h
      simp only [List.length_cons]
      omega

def isHighHalf (unit : Nat) : Bool := 0xD800 ≤ unit && unit ≤ 0xDBFF

def isLowHalf (unit : Nat) : Bool := 0xDC00 ≤ unit && unit ≤ 0xDFFF

/-- The characters of the parts, latest first, put before those read so far. The two halves of a
surrogate pair make one character; a half alone makes none. -/
def characters? (read : List Char) : List StringPart → Option (List Char)
  | [] => some read
  | .char c :: rest => characters? (c :: read) rest
  | .unit low :: rest =>
    if isLowHalf low then
      match rest with
      | .unit high :: rest =>
        if isHighHalf high then
          characters? (Char.ofNat (0x10000 + (high - 0xD800) * 0x400 + (low - 0xDC00)) :: read) rest
        else none
      | _ => none
    else if isHighHalf low then none
    else characters? (Char.ofNat low :: read) rest

/-- The value of a string with these parts. -/
def ofParts (parts : List StringPart) : Json :=
  match characters? [] parts with
  | some s => string (String.ofList s)
  | none => unreadable

/-! ## Numbers -/

def digitsValue (digits : List Char) : Nat :=
  digits.foldl (fun n c => 10 * n + (c.toNat - 48)) 0

/-- Whether the text is a fraction: nothing, or a point and at least one digit. The rest of a number
follows the digits. -/
private def afterFraction? : List Char → Option (List Char)
  | '.' :: rest =>
    match rest with
    | c :: _ => if c.isDigit then some (rest.dropWhile Char.isDigit) else none
    | [] => none
  | s => some s

/-- Whether the text is an exponent: nothing, or a mark, an optional sign and at least one digit. -/
private def isExponent : List Char → Bool
  | [] => true
  | mark :: rest =>
    (mark = 'e' ∨ mark = 'E') &&
      match rest with
      | '+' :: digits | '-' :: digits | digits => !digits.isEmpty && digits.all Char.isDigit

/-- The number with that text. Minus zero has no place among the integers and stays a text. -/
def number? (s : List Char) : Option Json := do
  let negative := s.head? = some '-'
  let body := if negative then s.tail else s
  let whole := body.takeWhile Char.isDigit
  if whole.isEmpty ∨ (whole.head? = some '0' ∧ whole.length ≠ 1) then none
  let tail := body.dropWhile Char.isDigit
  let value : Int := digitsValue whole
  if tail.isEmpty ∧ ¬(negative ∧ value = 0) then
    some (integer (if negative then -value else value))
  else
    let exponent ← afterFraction? tail
    if isExponent exponent then some (real (String.ofList s)) else none

def isNumberChar (c : Char) : Bool :=
  c.isDigit || c = '-' || c = '+' || c = '.' || c = 'e' || c = 'E'

/-! ## Tokens -/

def isSpace (c : Char) : Bool := c = ' ' || c = '\n' || c = '\t' || c = '\r'

def word? (s : List Char) : Option Json :=
  match s with
  | ['n', 'u', 'l', 'l'] => some null
  | ['t', 'r', 'u', 'e'] => some (bool true)
  | ['f', 'a', 'l', 's', 'e'] => some (bool false)
  | _ => none

/-- The token that starts with `c`, and the text after it. -/
def token? (c : Char) (rest : List Char) : Option (Token × List Char) :=
  if c = '"' then
    (stringBody .plain [] rest).map fun (parts, after) => (.scalar (ofParts parts), after)
  else if c = '-' || c.isDigit then
    (number? (c :: rest.takeWhile isNumberChar)).map fun n =>
      (.scalar n, rest.dropWhile isNumberChar)
  else if c.isAlpha then
    (word? (c :: rest.takeWhile Char.isAlpha)).map fun w => (.scalar w, rest.dropWhile Char.isAlpha)
  else match c.toNat with
    | 0x5B => some (.openArray, rest)
    | 0x5D => some (.closeArray, rest)
    | 0x7B => some (.openObject, rest)
    | 0x7D => some (.closeObject, rest)
    | 0x2C => some (.comma, rest)
    | 0x3A => some (.colon, rest)
    | _ => none

private theorem dropWhile_length_le (p : Char → Bool) (s : List Char) :
    (s.dropWhile p).length ≤ s.length :=
  (List.dropWhile_sublist p).length_le

theorem token?_length {c : Char} {rest after : List Char} {token : Token}
    (h : token? c rest = some (token, after)) : after.length ≤ rest.length := by
  rw [token?] at h
  split at h
  · obtain ⟨⟨s, after'⟩, hs, heq⟩ := Option.map_eq_some_iff.1 h
    simp only [Prod.mk.injEq] at heq
    have := stringBody_length hs
    rw [← heq.2]
    omega
  · split at h
    · obtain ⟨n, -, heq⟩ := Option.map_eq_some_iff.1 h
      simp only [Prod.mk.injEq] at heq
      rw [← heq.2]
      exact dropWhile_length_le _ _
    · split at h
      · obtain ⟨n, -, heq⟩ := Option.map_eq_some_iff.1 h
        simp only [Prod.mk.injEq] at heq
        rw [← heq.2]
        exact dropWhile_length_le _ _
      · split at h <;> simp_all

/-- The tokens of a text, or nothing if some part of it starts no token. -/
def tokens? (s : List Char) : Option (List Token) :=
  match s with
  | [] => some []
  | c :: rest =>
    if isSpace c then tokens? rest
    else match _h : token? c rest with
      | none => none
      | some (token, after) => (tokens? after).map (token :: ·)
termination_by s.length
decreasing_by
  · simp
  · have := token?_length _h
    simp only [List.length_cons]
    omega

/-! ## Documents -/

/-- An open container with the part of it that has been read, latest first; `member` is an object
whose next value has its name already. An unreadable name is none. -/
inductive Frame where
  | items (read : List Json)
  | members (read : List (Option String × Json))
  | member (read : List (Option String × Json)) (name : Option String)

/-- What may come next. -/
inductive Expected where
  | value
  /-- A value, or the end of the array just opened. -/
  | firstItem
  | name
  /-- A member name, or the end of the object just opened. -/
  | firstName
  | colon
  /-- A comma, or the end of the innermost container. -/
  | separator
  /-- The end of the text. -/
  | done (document : Json)

structure Reader where
  frames : List Frame
  expected : Expected

/-- Containers may be nested this deep. -/
def maxNesting : Nat := 127

/-- A value is complete: it goes into the innermost open container. -/
def Reader.complete? (value : Json) : List Frame → Option Reader
  | [] => some ⟨[], .done value⟩
  | .items read :: outer => some ⟨.items (value :: read) :: outer, .separator⟩
  | .member read name :: outer => some ⟨.members ((name, value) :: read) :: outer, .separator⟩
  | .members _ :: _ => none

/-- A container inside `outer` is complete. -/
def Reader.closed? (value : Json) (outer : List Frame) : Option Reader :=
  Reader.complete? (if outer.length < maxNesting then value else unreadable) outer

/-- The object with these members, latest first. -/
def ofMembers (read : List (Option String × Json)) : Json :=
  match read.reverse.mapM fun m => m.1.map (·, m.2) with
  | some members => object members
  | none => unreadable

/-- A token where a value starts. -/
def Reader.value? (frames : List Frame) : Token → Option Reader
  | .openArray => some ⟨.items [] :: frames, .firstItem⟩
  | .openObject => some ⟨.members [] :: frames, .firstName⟩
  | .scalar v => Reader.complete? v frames
  | _ => none

/-- A token where a member name stands. -/
def Reader.name? : List Frame → Token → Option Reader
  | .members read :: outer, .scalar (string s) => some ⟨.member read (some s) :: outer, .colon⟩
  | .members read :: outer, .scalar unreadable => some ⟨.member read none :: outer, .colon⟩
  | _, _ => none

/-- A token that ends the innermost container. -/
def Reader.close? : List Frame → Token → Option Reader
  | .items read :: outer, .closeArray => Reader.closed? (array read.reverse) outer
  | .members read :: outer, .closeObject => Reader.closed? (ofMembers read) outer
  | _, _ => none

def Reader.step? (r : Reader) (token : Token) : Option Reader :=
  match r.expected, token with
  | .value, _ => Reader.value? r.frames token
  | .firstItem, .closeArray => Reader.close? r.frames token
  | .firstItem, _ => Reader.value? r.frames token
  | .name, _ => Reader.name? r.frames token
  | .firstName, .closeObject => Reader.close? r.frames token
  | .firstName, _ => Reader.name? r.frames token
  | .colon, .colon => some { r with expected := .value }
  | .colon, _ => none
  | .separator, .comma =>
    match r.frames with
    | .items _ :: _ => some { r with expected := .value }
    | .members _ :: _ => some { r with expected := .name }
    | _ => none
  | .separator, _ => Reader.close? r.frames token
  | .done _, _ => none

/-- The document that a text holds. -/
def read? (text : String) : Option Json := do
  let r ← (← tokens? text.toList).foldlM Reader.step? ⟨[], .value⟩
  match r.expected with
  | .done document => some document
  | _ => none

end HeaderSurvey.Json
