/-! Finding and replacing a text inside another. -/
namespace HeaderSurvey.Text

/-- Whether `pattern` stands somewhere in the text; the empty pattern stands everywhere. -/
def occurs (pattern : List Char) : List Char → Bool
  | [] => pattern.isEmpty
  | c :: cs => pattern.isPrefixOf (c :: cs) || occurs pattern cs

/-- Replaces the matches of `c :: pattern` from left to right. A match found is not searched again:
`skip` counts the characters of it that are still to be passed over. -/
def replaceFrom (c : Char) (pattern inserted : List Char) : Nat → List Char → List Char
  | _, [] => []
  | skip + 1, _ :: rest => replaceFrom c pattern inserted skip rest
  | 0, d :: rest =>
    if (c :: pattern).isPrefixOf (d :: rest) then
      inserted ++ replaceFrom c pattern inserted pattern.length rest
    else d :: replaceFrom c pattern inserted 0 rest

/-- Every match of the pattern replaced, leftmost first and without overlaps. The empty pattern
matches before each character and at the end. -/
def replaceAll (pattern inserted s : List Char) : List Char :=
  match pattern with
  | [] => inserted ++ s.flatMap (· :: inserted)
  | c :: cs => replaceFrom c cs inserted 0 s

/-- Whether `pattern` stands somewhere in `s`. -/
def contains (s pattern : String) : Bool := occurs pattern.toList s.toList

/-- Puts `inserted` in place of the first match of `pattern`, if there is one. -/
def replaceFirst (pattern inserted : List Char) : List Char → List Char
  | [] => if pattern.isEmpty then inserted else []
  | c :: cs =>
    if pattern.isPrefixOf (c :: cs) then inserted ++ (c :: cs).drop pattern.length
    else c :: replaceFirst pattern inserted cs

end HeaderSurvey.Text
