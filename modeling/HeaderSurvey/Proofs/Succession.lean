import Mathlib.Data.List.Basic

/-! Lists whose elements are looked at one after the other, each with those before it in mind. -/
namespace HeaderSurvey

variable {α β : Type} {f : List α → α → List β}

/-- What the elements of `as` give in turn, if what each one gives depends on those before it. -/
def inTurn (f : List α → α → List β) (as : List α) : List β :=
  as.zipIdx.flatMap fun e => f (as.take e.2) e.1

@[simp] theorem inTurn_nil : inTurn f [] = [] := rfl

theorem inTurn_concat (as : List α) (a : α) : inTurn f (as ++ [a]) = inTurn f as ++ f as a := by
  have hfront : as.zipIdx.flatMap (fun e => f ((as ++ [a]).take e.2) e.1) = inTurn f as := by
    refine List.flatMap_congr fun e he => ?_
    have hle : e.2 ≤ as.length := Nat.le_of_lt (List.snd_lt_of_mem_zipIdx he)
    rw [List.take_append_of_le_length hle]
  have hlast : ([a].zipIdx as.length).flatMap (fun e => f ((as ++ [a]).take e.2) e.1) = f as a := by
    simp
  rw [inTurn, List.zipIdx_append, List.flatMap_append, Nat.zero_add, hfront, hlast]

end HeaderSurvey
