import HeaderSurvey.Proofs.Literals
import HeaderSurvey.Text.Search
import Mathlib.Data.List.Infix

/-! The text of a macro. Its tokens are written with blanks between them, or without where brackets,
separators and unary operators allow it. So two signs come together that were apart only where a
unary sign is followed by a token that starts with the same sign. -/
namespace HeaderSurvey

namespace Text

private theorem occurs_iff {pattern s : List Char} : occurs pattern s = true ↔ pattern <:+: s := by
  induction s with
  | nil => simp [occurs, List.isEmpty_iff]
  | cons c cs ih => simp [occurs, ih, List.infix_cons_iff]

theorem contains_iff {s pattern : String} :
    contains s pattern = true ↔ pattern.toList <:+: s.toList :=
  occurs_iff

theorem pair_infix_append {c : Char} {s t : List Char} :
    [c, c] <:+: s ++ t ↔ [c, c] <:+: s ∨ [c, c] <:+: t ∨ s.getLast? = some c ∧
    t.head? = some c := by
  induction s with
  | nil => simp
  | cons d s ih =>
    rw [List.cons_append, List.infix_cons_iff, ih, List.infix_cons_iff]
    cases s with
    | nil =>
      cases t with
      | nil => simp
      | cons e t =>
        simp only [List.nil_append, List.cons_prefix_cons, List.nil_prefix, and_true]
        grind
    | cons e s =>
      simp only [List.cons_append, List.cons_prefix_cons, List.nil_prefix, and_true,
        List.getLast?_cons_cons]
      grind

end Text

namespace Macro

variable {c : Char} {sign previous token : String} {tokens : List String} {glued : Bool}

/-! ## Where tokens meet -/

theorem isAttached_cases (h : isAttached (some previous) token = true) :
    token ∈ [")", "]", ",", ";", "("] ∨ previous = "(" ∨ previous = "[" := by
  simp only [isAttached, Bool.or_eq_true, List.contains_iff_mem, beq_iff_eq, Option.some.injEq,
    Bool.and_eq_true] at h
  rcases h with ((h | h) | h) | h
  · exact Or.inl (List.mem_append_left ["("] h)
  · exact Or.inr (Or.inl h)
  · exact Or.inr (Or.inr h)
  · simp [h.1]

private theorem bracket_not_sign (h : token ∈ [")", "]", ",", ";", "("]) (hc : c = '-' ∨ c = '+')
    (rest : List Char) : (token.toList ++ rest).head? ≠ some c := by
  simp only [List.mem_cons, List.not_mem_nil, or_false] at h
  rcases h with rfl | rfl | rfl | rfl | rfl <;> rcases hc with rfl | rfl <;> simp

/-- After a token that is no opening bracket, `textAfter` starts with a sign only if its first token
is `glued` to an operator and starts with the sign itself. -/
theorem head?_textAfter (hc : c = '-' ∨ c = '+') (hround : previous ≠ "(")
    (hsquare : previous ≠ "[")
    (h : (textAfter (some previous) glued tokens).toList.head? = some c) :
    glued = true ∧ ∃ next after, tokens = next :: after ∧ next.toList.head? = some c := by
  induction tokens generalizing previous glued with
  | nil => simp [textAfter] at h
  | cons next after ih =>
    rw [textAfter, String.toList_append, String.toList_append] at h
    split at h
    · next hjoined =>
      rw [String.toList_empty, List.nil_append] at h
      have hglued : glued = true := by
        rcases Bool.or_eq_true_iff.1 hjoined with hglued | hattached
        · exact hglued
        · rcases isAttached_cases hattached with hbracket | rfl | rfl
          · exact absurd h (bracket_not_sign hbracket hc _)
          · exact absurd rfl hround
          · exact absurd rfl hsquare
      refine ⟨hglued, next, after, rfl, ?_⟩
      cases hnext : next.toList with
      | nil =>
        -- An empty token is no operator, so that what follows it is not glued.
        obtain rfl : next = "" := String.toList_eq_nil_iff.1 hnext
        rw [hnext, List.nil_append] at h
        have hoperator := (ih (by decide) (by decide) h).1
        simp [isUnaryOperator] at hoperator
      | cons d ds =>
        rw [hnext] at h
        exact h
    · rcases hc with rfl | rfl <;> simp at h

private theorem head?_textAfter_glued {next : String} (h : next.toList.head? = some c)
    (after : List String) :
    (textAfter (some previous) true (next :: after)).toList.head? = some c := by
  rw [textAfter]
  simp [h]

/-! ## Signs that come together -/

/-- A sign that has one operand stands right before a token that starts with it too; `previous` is
the token before all of them. -/
def Fuses (sign : String) (previous : Option String) (tokens : List String) : Prop :=
  ∃ before next after, tokens = before ++ sign :: next :: after ∧ sign.toList <+: next.toList ∧
    (before.getLast?.or previous).any endsOperand = false

private theorem fuses_cons {previous : Option String} : Fuses sign previous (token :: tokens) ↔
    (token = sign ∧ previous.any endsOperand = false ∧
      ∃ next after, tokens = next :: after ∧ sign.toList <+: next.toList) ∨
        Fuses sign (some token) tokens := by
  constructor
  · rintro ⟨before, next, after, htokens, hnext, hlast⟩
    cases before with
    | nil =>
      obtain ⟨rfl, rfl⟩ := List.cons.inj htokens
      exact Or.inl ⟨rfl, hlast, next, after, rfl, hnext⟩
    | cons first before =>
      obtain ⟨rfl, rfl⟩ := List.cons.inj htokens
      refine Or.inr ⟨before, next, after, rfl, hnext, ?_⟩
      rw [List.getLast?_cons] at hlast
      cases hbefore : before.getLast? <;> simpa [hbefore] using hlast
  · rintro (⟨rfl, hlast, next, after, rfl, hnext⟩ | ⟨before, next, after, rfl, hnext, hlast⟩)
    · exact ⟨[], next, after, rfl, hnext, hlast⟩
    · refine ⟨token :: before, next, after, rfl, hnext, ?_⟩
      rw [List.getLast?_cons]
      cases hbefore : before.getLast? <;> simpa [hbefore] using hlast

theorem eq_of_isUnaryOperator (h : isUnaryOperator token = true) (hc : c = '-' ∨ c = '+')
    (hlast : token.toList.getLast? = some c) : token.toList = [c] := by
  simp only [isUnaryOperator, List.contains_iff_mem, List.mem_cons, List.not_mem_nil, or_false] at h
  rcases h with rfl | rfl | rfl | rfl <;> rcases hc with rfl | rfl <;> simp_all

private theorem singleton_prefix_iff {s : List Char} : [c] <+: s ↔ s.head? = some c := by
  cases s with
  | nil => simp
  | cons d s => simp [List.cons_prefix_cons, eq_comm]

/-- A token and the text after it meet in a sign if the token is that sign, has one operand and is
followed by a token that starts with it. -/
theorem meets_iff (hc : c = '-' ∨ c = '+') (hsign : sign.toList = [c]) (previous : Option String) :
    (token.toList.getLast? = some c ∧
      (textAfter (some token) (isUnaryOperator token && !previous.any endsOperand)
        tokens).toList.head? = some c) ↔
      token = sign ∧ previous.any endsOperand = false ∧
        ∃ next after, tokens = next :: after ∧ sign.toList <+: next.toList := by
  constructor
  · rintro ⟨hlast, hhead⟩
    have hbracket : ∀ bracket : String, bracket.toList.getLast? ≠ some c → token ≠ bracket := by
      rintro bracket hne rfl
      exact hne hlast
    obtain ⟨hglued, next, after, rfl, hnext⟩ := head?_textAfter hc
      (hbracket "(" (by rcases hc with rfl | rfl <;> decide))
      (hbracket "[" (by rcases hc with rfl | rfl <;> decide)) hhead
    rw [Bool.and_eq_true, Bool.not_eq_true'] at hglued
    have htoken := eq_of_isUnaryOperator hglued.1 hc hlast
    refine ⟨String.toList_inj.1 (htoken.trans hsign.symm), hglued.2, next, after, rfl, ?_⟩
    rw [hsign]
    exact singleton_prefix_iff.2 hnext
  · rintro ⟨rfl, hlast, next, after, rfl, hnext⟩
    rw [hsign] at hnext
    have hunary : isUnaryOperator token = true := by
      obtain rfl : token = String.ofList [c] := String.toList_inj.1 (by simp [hsign])
      rcases hc with rfl | rfl <;> decide
    refine ⟨by simp [hsign], ?_⟩
    rw [hunary, hlast]
    exact head?_textAfter_glued (singleton_prefix_iff.1 hnext) after

private theorem pair_infix_textAfter (hc : c = '-' ∨ c = '+') (hsign : sign.toList = [c])
    (previous : Option String) (glued : Bool) (tokens : List String) :
    [c, c] <:+: (textAfter previous glued tokens).toList ↔
      (∃ token ∈ tokens, [c, c] <:+: token.toList) ∨ Fuses sign previous tokens := by
  induction tokens generalizing previous glued with
  | nil => simp [textAfter, Fuses]
  | cons token tokens ih =>
    have hblank : ∀ s : List Char, [c, c] <:+: ' ' :: s ↔ [c, c] <:+: s := by
      intro s
      rcases hc with rfl | rfl <;> simp [List.infix_cons_iff, List.cons_prefix_cons]
    calc [c, c] <:+: (textAfter previous glued (token :: tokens)).toList
        ↔ [c, c] <:+: token.toList ++ (textAfter (some token)
            (isUnaryOperator token && !previous.any endsOperand) tokens).toList := by
          rw [textAfter]
          split <;> simp [hblank]
      _ ↔ _ := by
          rw [Text.pair_infix_append, meets_iff hc hsign, ih, fuses_cons, List.exists_mem_cons_iff]
          simp only [or_assoc, or_left_comm, or_comm]

/-- `text` has a `sign` twice in a row exactly if one of its tokens has, or where the sign, with
nothing before it that `endsOperand`, is followed by a token that starts with the same sign: these
are written together as an increment or a decrement. After an operand the sign is followed by a
blank. -/
theorem text_doubles_sign_iff (hsign : isSign sign = true) (tokens : List String) :
    Text.contains (text tokens) (sign ++ sign) = true ↔
      (∃ token ∈ tokens, Text.contains token (sign ++ sign) = true) ∨
        ∃ before next after, tokens = before ++ sign :: next :: after ∧
          sign.toList <+: next.toList ∧
          before.getLast?.any endsOperand = false := by
  obtain ⟨c, hc, hlist⟩ : ∃ c, (c = '-' ∨ c = '+') ∧ sign.toList = [c] := by
    rcases isSign_iff.1 hsign with rfl | rfl
    · exact ⟨'-', Or.inl rfl, by simp⟩
    · exact ⟨'+', Or.inr rfl, by simp⟩
  have hpair : ∀ s : String, Text.contains s (sign ++ sign) = true ↔ [c, c] <:+: s.toList := by
    intro s
    rw [Text.contains_iff, String.toList_append, hlist]
    rfl
  simp only [hpair, text, pair_infix_textAfter hc hlist, Fuses, Option.or_none]

/-- Minus a negative number: `--1` alone, and `A - -1` after an operand. -/
theorem text_double_minus :
    isSign "-" = true ∧ (∀ token ∈ ["-", "-", "1"], Text.contains token "--" = false) ∧
    text ["-", "-", "1"] = "--1" ∧ text ["A", "-", "-", "1"] = "A - -1" ∧
    Text.contains (text ["-", "-", "1"]) "--" = true := by
  have hdoubles : Text.contains (text ["-", "-", "1"]) ("-" ++ "-") = true :=
    (text_doubles_sign_iff (by decide) _).2 (Or.inr ⟨[], "-", ["1"], rfl, List.prefix_rfl, rfl⟩)
  refine ⟨by decide, by decide, by decide +kernel, by decide +kernel, ?_⟩
  rwa [show "-" ++ "-" = "--" from by decide] at hdoubles

end Macro
end HeaderSurvey
