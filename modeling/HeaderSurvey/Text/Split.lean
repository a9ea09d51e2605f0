/-! Cutting a text at single separator characters and putting the pieces together again.
The texts of this library are short, so they are worked on as lists of characters. -/
namespace HeaderSurvey.Text

/-- The pieces between separators. A text with `n` separators has `n + 1` pieces, some of them
possibly empty. -/
def cut (separator : Char → Bool) : List Char → List (List Char)
  | [] => [[]]
  | c :: cs =>
    if separator c then [] :: cut separator cs
    else match cut separator cs with
      | [] => [[c]]
      | piece :: pieces => (c :: piece) :: pieces

theorem cut_ne_nil (separator : Char → Bool) (s : List Char) : cut separator s ≠ [] := by
  cases s with
  | nil => simp [cut]
  | cons c cs =>
    rw [cut]
    split
    · simp
    · split <;> simp

/-- Pieces separated by one character, as texts. -/
def pieces (separator : Char) (s : String) : List String :=
  (cut (· == separator) s.toList).map String.ofList

/-- The texts one after the other, with a separator between neighbours. -/
def join (separator : String) : List String → String
  | [] => ""
  | [s] => s
  | s :: t :: rest => s ++ separator ++ join separator (t :: rest)

/-- The text without the marked characters at either end. -/
def strip (marked : Char → Bool) (s : List Char) : List Char :=
  ((s.dropWhile marked).reverse.dropWhile marked).reverse

end HeaderSurvey.Text
