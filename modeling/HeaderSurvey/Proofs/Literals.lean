import HeaderSurvey.Survey.Macro
import Mathlib.Data.Nat.Digits.Defs

/-! Macros that are literals. Their type is found by stripping brackets and signs until none are
left, and that is the same as a derivation in a grammar of literals. The type of an integer is wide
enough for it, unless a suffix asks for less or the number needs the last of 64 bits without saying
so. -/
namespace HeaderSurvey.Macro

/-! ## The grammar -/

/-- `token` starts like a number and is one of that `type`. -/
structure IsNumber (token : String) (type : LiteralType) : Prop where
  starts : ∃ c, token.toList.head? = some c ∧ (c.isDigit = true ∨ c = '.')
  typed : numberType? token = some type

/-- The grammar of literals: strings side by side, a character or a number, in any number of
brackets, each of which may have a sign before it, as may the number. -/
inductive Derives : List String → LiteralType → Prop where
  | strings {tokens : List String} (nonempty : tokens ≠ [])
      (quoted : ∀ token ∈ tokens, token.toList.head? = some '"') : Derives tokens .string
  | character {token : String} (quoted : token.toList.head? = some '\'') : Derives [token] .char
  | number {token : String} {type : LiteralType}
      (number : IsNumber token type) : Derives [token] type
  | brackets {tokens : List String} {type : LiteralType} (inner : Derives tokens type) :
      Derives ("(" :: tokens ++ [")"]) type
  | signedNumber {sign token : String} {type : LiteralType} (signed : sign = "-" ∨ sign = "+")
      (number : IsNumber token type) : Derives [sign, token] type
  | signedBrackets {sign : String} {tokens : List String} {type : LiteralType}
      (signed : sign = "-" ∨ sign = "+") (inner : Derives tokens type) :
      Derives (sign :: "(" :: tokens ++ [")"]) type

theorem isSign_iff {token : String} : isSign token = true ↔ token = "-" ∨ token = "+" := by
  simp [isSign]

theorem startsWith_iff {token : String} {c : Char} :
    startsWith (· = c) token = true ↔ token.toList.head? = some c := by
  simp [startsWith, Option.any_eq_true]

theorem startsNumber_iff {token : String} : startsNumber token = true ↔
    ∃ c, token.toList.head? = some c ∧ (c.isDigit = true ∨ c = '.') := by
  simp [startsNumber, startsWith, Option.any_eq_true]

private theorem unbracket?_eq_some_iff {tokens inner : List String} :
    unbracket? tokens = some inner ↔ tokens = "(" :: inner ++ [")"] := by
  cases tokens with
  | nil => simp [unbracket?]
  | cons first rest =>
    simp only [unbracket?, Option.ite_none_right_eq_some, Option.some.injEq,
      List.getLast?_eq_some_iff, List.cons_append, List.cons.injEq]
    constructor
    · rintro ⟨⟨rfl, last, rfl⟩, rfl⟩
      simp
    · rintro ⟨rfl, rfl⟩
      simp

theorem unbracket?_eq_none {first : String} (h : first ≠ "(") (rest : List String) :
    unbracket? (first :: rest) = none := by
  simp [unbracket?, h]

theorem sign_ne_bracket {sign : String} (h : sign = "-" ∨ sign = "+") : sign ≠ "(" := by
  rcases h with rfl | rfl <;> decide

/-- `strip?` takes off brackets around all tokens, and a sign before a bracket. -/
theorem strip?_eq_some_iff {tokens rest : List String} :
    strip? tokens = some rest ↔ tokens = "(" :: rest ++ [")"] ∨
      ∃ sign more, (sign = "-" ∨ sign = "+") ∧ tokens = sign :: "(" :: more ∧
        rest = "(" :: more := by
  constructor
  · intro h
    unfold strip? at h
    split at h
    · next hinner =>
      cases h
      exact Or.inl (unbracket?_eq_some_iff.1 hinner)
    · simp only [Option.ite_none_right_eq_some, Bool.and_eq_true, isSign_iff, decide_eq_true_eq,
        Option.some.injEq] at h
      obtain ⟨⟨hsign, rfl⟩, rfl⟩ := h
      exact Or.inr ⟨_, _, hsign, rfl, rfl⟩
    · cases h
  · rintro (rfl | ⟨sign, more, hsign, rfl, rfl⟩)
    · simp [strip?, unbracket?_eq_some_iff.2]
    · simp [strip?, unbracket?_eq_none (sign_ne_bracket hsign), isSign_iff.2 hsign]

theorem strip?_eq_none {first : String} (rest : List String) (hbracket : first ≠ "(")
    (hsign : isSign first = false) : strip? (first :: rest) = none := by
  cases rest <;> simp [strip?, unbracket?_eq_none hbracket, hsign]

theorem derives_of_plainType? {tokens : List String} {type : LiteralType}
    (h : plainType? tokens = some type) : Derives tokens type := by
  unfold plainType? at h
  split at h
  · cases h
  · next hnonempty =>
    split at h
    · next hall =>
      cases h
      refine .strings (by simpa using hnonempty) fun token htoken => ?_
      exact startsWith_iff.1 (List.all_eq_true.1 hall token htoken)
    · split at h
      · split at h
        · next hquoted =>
          cases h
          exact .character (startsWith_iff.1 hquoted)
        · split at h
          · next hstarts => exact .number ⟨startsNumber_iff.1 hstarts, h⟩
          · cases h
      · cases h

private theorem derives_of_strippedType? {tokens : List String} {type : LiteralType}
    (h : strippedType? tokens = some type) : Derives tokens type := by
  unfold strippedType? at h
  split at h
  · cases h
  · split at h
    · next hsign =>
      split at h
      · split at h
        · next hstarts => exact .signedNumber (isSign_iff.1 hsign) ⟨startsNumber_iff.1 hstarts, h⟩
        · cases h
      · cases h
    · exact derives_of_plainType? h

theorem Derives.of_bracket {more : List String} {type : LiteralType}
    (h : Derives ("(" :: more) type) :
    ∃ inner, more = inner ++ [")"] ∧ Derives inner type := by
  generalize htokens : "(" :: more = tokens at h
  cases h with
  | strings _ quoted =>
    subst htokens
    exact absurd (quoted "(" List.mem_cons_self) (by decide)
  | character quoted =>
    cases htokens
    exact absurd quoted (by decide)
  | number number =>
    cases htokens
    obtain ⟨c, hc, hstarts⟩ := number.starts
    cases hc
    exact absurd hstarts (by decide)
  | brackets inner =>
    cases htokens
    exact ⟨_, rfl, inner⟩
  | signedNumber signed | signedBrackets signed =>
    cases htokens
    exact absurd rfl (sign_ne_bracket signed)

private theorem derives_of_type? {tokens : List String} {type : LiteralType}
    (h : type? tokens = some type) :
    Derives tokens type := by
  induction tokens using type?.induct with
  | case1 tokens rest hstrip ih =>
    rw [type?, hstrip] at h
    rcases strip?_eq_some_iff.1 hstrip with rfl | ⟨sign, more, hsign, rfl, rfl⟩
    · exact .brackets (ih h)
    · obtain ⟨inner, rfl, hinner⟩ := (ih h).of_bracket
      exact .signedBrackets hsign hinner
  | case2 tokens hstrip =>
    rw [type?, hstrip] at h
    exact derives_of_strippedType? h

theorem strip?_of_head {token : String} {c : Char} (h : token.toList.head? = some c)
    (hc : c ∉ ['(', '-', '+']) (rest : List String) :
    isSign token = false ∧ strip? (token :: rest) = none := by
  have hne : ∀ s : String, s.toList.head? ≠ some c → token ≠ s := by
    rintro s hs rfl
    exact hs h
  simp only [List.mem_cons, List.not_mem_nil, or_false, not_or] at hc
  have hsign : isSign token = false := by
    rw [Bool.eq_false_iff, ne_eq, isSign_iff, not_or]
    exact ⟨hne "-" (by simpa using Ne.symm hc.2.1), hne "+" (by simpa using Ne.symm hc.2.2)⟩
  exact ⟨hsign, strip?_eq_none rest (hne "(" (by simpa using Ne.symm hc.1)) hsign⟩

theorem type?_of_head {token : String} {c : Char} (h : token.toList.head? = some c)
    (hc : c ∉ ['(', '-', '+']) (rest : List String) :
    type? (token :: rest) = plainType? (token :: rest) := by
  obtain ⟨hsign, hstrip⟩ := strip?_of_head h hc rest
  rw [type?, hstrip]
  simp [strippedType?, hsign]

theorem IsNumber.head {token : String} {type : LiteralType} (h : IsNumber token type) :
    ∃ c, token.toList.head? = some c ∧ c ∉ ['(', '-', '+'] ∧ c ≠ '"' ∧ c ≠ '\'' := by
  obtain ⟨c, hc, hdigit | rfl⟩ := h.starts
  · refine ⟨c, hc, ?_, ?_, ?_⟩
    · simp only [List.mem_cons, List.not_mem_nil, or_false, not_or]
      refine ⟨?_, ?_, ?_⟩ <;> rintro rfl <;> exact absurd hdigit (by decide)
    · rintro rfl
      exact absurd hdigit (by decide)
    · rintro rfl
      exact absurd hdigit (by decide)
  · exact ⟨'.', hc, by decide, by decide, by decide⟩

theorem IsNumber.plainType? {token : String} {type : LiteralType} (h : IsNumber token type) :
    plainType? [token] = some type := by
  obtain ⟨c, hc, -, hstring, hchar⟩ := h.head
  have hother : ∀ d, c ≠ d → startsWith (· = d) token = false := by
    intro d hd
    rw [Bool.eq_false_iff, ne_eq, startsWith_iff, hc]
    simpa using hd
  simp [Macro.plainType?, hother _ hstring, hother _ hchar, startsNumber_iff.2 h.starts, h.typed]

private theorem type?_of_derives {tokens : List String} {type : LiteralType}
    (h : Derives tokens type) :
    type? tokens = some type := by
  induction h with
  | @strings tokens nonempty quoted =>
    obtain ⟨first, rest, rfl⟩ := List.exists_cons_of_ne_nil nonempty
    rw [type?_of_head (quoted first List.mem_cons_self) (by decide)]
    have hall : (first :: rest).all (startsWith (· = '"')) = true :=
      List.all_eq_true.2 fun token htoken => startsWith_iff.2 (quoted token htoken)
    unfold plainType?
    rw [if_neg (by simp), if_pos hall]
  | @character token quoted =>
    rw [type?_of_head quoted (by decide)]
    have hstring : startsWith (· = '"') token = false := by
      rw [Bool.eq_false_iff, ne_eq, startsWith_iff, quoted]
      decide
    simp [plainType?, hstring, startsWith_iff.2 quoted]
  | number number =>
    obtain ⟨c, hc, hother, -⟩ := number.head
    rw [type?_of_head hc hother, number.plainType?]
  | brackets inner ih =>
    rw [type?, strip?_eq_some_iff.2 (Or.inl rfl)]
    exact ih
  | @signedNumber sign token type signed number =>
    obtain ⟨c, hc, hother, -⟩ := number.head
    have hstrip : strip? [sign, token] = none := by
      have hbracket : token ≠ "(" := by
        rintro rfl
        cases hc
        exact hother (by decide)
      simp [strip?, unbracket?_eq_none (sign_ne_bracket signed), hbracket]
    rw [type?, hstrip]
    simp [strippedType?, isSign_iff.2 signed, startsNumber_iff.2 number.starts, number.typed]
  | @signedBrackets sign tokens type signed inner ih =>
    have hsign : strip? (sign :: "(" :: tokens ++ [")"]) = some ("(" :: tokens ++ [")"]) :=
      strip?_eq_some_iff.2 (Or.inr ⟨sign, tokens ++ [")"], signed, rfl, rfl⟩)
    have hbrackets : strip? ("(" :: tokens ++ [")"]) = some tokens :=
      strip?_eq_some_iff.2 (Or.inl rfl)
    rw [type?, hsign]
    change type? ("(" :: tokens ++ [")"]) = some type
    rw [type?, hbrackets]
    exact ih

/-! ## Rounds of stripping -/

/-- What is left after that many rounds of `strip?`, if each of them finds something to strip. -/
def stripped? : Nat → List String → Option (List String)
  | 0, tokens => some tokens
  | rounds + 1, tokens => (strip? tokens).bind (stripped? rounds)

/-- Each round of `strip?` leaves fewer tokens, so the rounds come to an end, and `type?` is that of
what is left. -/
theorem exists_stripped (tokens : List String) :
    ∃ rounds ≤ tokens.length, ∃ rest, stripped? rounds tokens = some rest ∧ strip? rest = none ∧
      type? tokens = strippedType? rest := by
  induction tokens using type?.induct with
  | case1 tokens rest hstrip ih =>
    obtain ⟨rounds, hrounds, last, hlast, hend, htype⟩ := ih
    refine ⟨rounds + 1, ?_, last, ?_, hend, ?_⟩
    · exact Nat.lt_of_le_of_lt hrounds (strip?_length hstrip)
    · simp [stripped?, hstrip, hlast]
    · rw [type?, hstrip]
      exact htype
  | case2 tokens hstrip =>
    refine ⟨0, Nat.zero_le _, tokens, rfl, hstrip, ?_⟩
    rw [type?, hstrip]

/-- `type?` is found exactly for the literals that the grammar `Derives`, with the type that it
gives them. The search ends for all tokens: there are at most as many rounds of `strip?` as tokens,
and then the answer is the `strippedType?` of what is left. -/
theorem type?_exact (tokens : List String) :
    (∀ type, type? tokens = some type ↔ Derives tokens type) ∧
      ∃ rounds ≤ tokens.length, ∃ rest, stripped? rounds tokens = some rest ∧ strip? rest = none ∧
        type? tokens = strippedType? rest :=
  ⟨fun _ => ⟨derives_of_type?, type?_of_derives⟩, exists_stripped tokens⟩

/-! ## Integer literals -/

inductive Base where
  | binary
  | decimal
  | hexadecimal
deriving DecidableEq, Repr

namespace Base

def radix : Base → Nat
  | binary => 2
  | decimal => 10
  | hexadecimal => 16

def mark : Base → List Char
  | binary => ['0', 'b']
  | decimal => []
  | hexadecimal => ['0', 'x']

private theorem radix_le (base : Base) : base.radix ≤ 16 := by
  cases base <;> decide

end Base

/-- The suffixes of integers, in lower case. -/
def integerSuffixes : List String := ["", "u", "l", "ul", "lu", "ll", "ull", "llu"]

/-- An integer literal: digits of a `base`, the highest first, and a `suffix`. -/
structure IntegerLiteral where
  base : Base
  digits : List (Fin base.radix)
  suffix : String
  nonempty : digits ≠ []
  suffix_mem : suffix ∈ integerSuffixes

namespace IntegerLiteral

def body (l : IntegerLiteral) : List Char := l.digits.map (Nat.digitChar ·.val)

/-- The literal in lower case. -/
def text (l : IntegerLiteral) : List Char := l.base.mark ++ l.body ++ l.suffix.toList

def value (l : IntegerLiteral) : Nat := Nat.ofDigits l.base.radix (l.digits.map Fin.val).reverse

/-- `token` is the literal, with letters in either case. -/
def Writes (l : IntegerLiteral) (token : String) : Prop := token.toList.map Char.toLower = l.text

instance (l : IntegerLiteral) (token : String) : Decidable (l.Writes token) :=
  inferInstanceAs (Decidable (_ = _))

end IntegerLiteral

private theorem digitValue?_digitChar {radix d : Nat} (hd : d < radix) (hradix : radix ≤ 16) :
    digitValue? radix (Nat.digitChar d) = some d := by
  have hvalue : ∀ d < 16, (if (Nat.digitChar d).isDigit then some ((Nat.digitChar d).toNat - 48)
      else if (Nat.digitChar d).isLower then some ((Nat.digitChar d).toNat - 87)
        else none) = some d := by
    decide
  rw [digitValue?, hvalue d (Nat.lt_of_lt_of_le hd hradix)]
  simp [hd]

private theorem foldlM_digits {radix : Nat} (hradix : radix ≤ 16) (digits : List (Fin radix))
    (n : Nat) :
    (digits.map (Nat.digitChar ·.val)).foldlM
        (fun n c => (digitValue? radix c).map (radix * n + ·)) n =
      some (digits.foldl (fun n d => radix * n + d.val) n) := by
  induction digits generalizing n with
  | nil => rfl
  | cons d digits ih =>
    simp only [List.map_cons, List.foldlM_cons, digitValue?_digitChar d.isLt hradix,
      Option.map_some, Option.bind_eq_bind, Option.bind_some, List.foldl_cons]
    exact ih _

theorem digitsValue?_body (l : IntegerLiteral) :
    digitsValue? l.base.radix l.body = some l.value := by
  have hbody : l.body.isEmpty = false := by
    simpa [IntegerLiteral.body] using l.nonempty
  have hvalue : l.value = l.digits.foldl (fun n d => l.base.radix * n + d.val) 0 := by
    simp only [IntegerLiteral.value, Nat.ofDigits_eq_foldr, List.foldr_reverse, List.foldl_map,
      Nat.cast_id, Nat.add_comm]
  rw [digitsValue?, hbody, hvalue]
  exact foldlM_digits l.base.radix_le l.digits 0

theorem mem_digitChars {l : IntegerLiteral} {c : Char} (hc : c ∈ l.body) :
    c ∈ "0123456789abcdef".toList.take l.base.radix := by
  obtain ⟨d, -, rfl⟩ := List.mem_map.1 hc
  have hall : ∀ d < 16, "0123456789abcdef".toList[d]? = some (Nat.digitChar d) := by decide
  refine List.mem_of_getElem? (i := d.val) ?_
  rw [List.getElem?_take_of_lt d.isLt]
  exact hall d (Nat.lt_of_lt_of_le d.isLt l.base.radix_le)

private theorem mem_suffixChars {l : IntegerLiteral} {c : Char} (hc : c ∈ l.suffix.toList) :
    c ∈ ['u', 'l'] := by
  have hall : ∀ suffix ∈ integerSuffixes, ∀ c ∈ suffix.toList, c ∈ ['u', 'l'] := by
    simp [integerSuffixes]
  exact hall l.suffix l.suffix_mem c hc

private theorem splitSuffix_append {marked : Char → Bool} {body suffix : List Char}
    (hbody : ∀ c ∈ body, marked c = false) (hsuffix : ∀ c ∈ suffix, marked c = true) :
    splitSuffix marked (body ++ suffix) = (body, suffix) := by
  have hnone : body.reverse.takeWhile marked = [] := by
    cases hreverse : body.reverse with
    | nil => rfl
    | cons c rest =>
      have hc : c ∈ body := List.mem_reverse.1 (hreverse ▸ List.mem_cons_self)
      simp [hbody c hc]
  have htake : (body ++ suffix).reverse.takeWhile marked = suffix.reverse := by
    rw [List.reverse_append, List.takeWhile_append_of_pos (by simpa using hsuffix), hnone,
      List.append_nil]
  rw [splitSuffix, htake, List.reverse_reverse, List.length_append, Nat.add_sub_cancel,
    List.take_left]

private theorem radixOf_eq_decimal {s : List Char} (hx : 'x' ∉ s) (hb : 'b' ∉ s) :
    radixOf s = (10, s) := by
  unfold radixOf
  split
  · simp at hx
  · simp at hb
  · rfl

theorem decimal_free {l : IntegerLiteral} (h : l.base = .decimal) {c : Char}
    (hc : c ∈ l.body ++ l.suffix.toList) : c ∉ ['x', 'b', '.', 'e'] := by
  have hdigits : ∀ c ∈ "0123456789".toList, c ∉ ['x', 'b', '.', 'e'] := by simp
  have hsuffix : ∀ c ∈ ['u', 'l'], c ∉ ['x', 'b', '.', 'e'] := by simp
  rcases List.mem_append.1 hc with hc | hc
  · have hmem := mem_digitChars hc
    rw [h] at hmem
    exact hdigits c hmem
  · exact hsuffix c (mem_suffixChars hc)

private theorem radixOf_text (l : IntegerLiteral) :
    radixOf l.text = (l.base.radix, l.body ++ l.suffix.toList) := by
  rw [IntegerLiteral.text, List.append_assoc]
  cases h : l.base with
  | binary | hexadecimal => rfl
  | decimal =>
    refine radixOf_eq_decimal ?_ ?_
    · exact fun hx => decimal_free h hx (by decide)
    · exact fun hb => decimal_free h hb (by decide)

private theorem splitSuffix_text (l : IntegerLiteral) :
    splitSuffix (fun c => c = 'u' || c = 'l') (l.body ++ l.suffix.toList) =
      (l.body, l.suffix.toList) := by
  refine splitSuffix_append ?_ ?_
  · intro c hc
    have hall : ∀ c ∈ "0123456789abcdef".toList, (c = 'u' || c = 'l') = false := by simp
    exact hall c (List.mem_of_mem_take (mem_digitChars hc))
  · intro c hc
    simpa using mem_suffixChars hc

theorem unsigned64?_body (l : IntegerLiteral) :
    unsigned64? l.base.radix l.body = if l.value < 2 ^ 64 then some l.value else none := by
  have hplus : l.body.head? ≠ some '+' := by
    intro h
    have hmem := List.mem_of_mem_take (mem_digitChars (List.mem_of_mem_head? h))
    exact absurd hmem (by decide)
  rw [unsigned64?, if_neg hplus, digitsValue?_body]
  simp [Option.filter]

/-- `numberType?` of an integer literal is the type of its `suffix`, `widened` by its `value`. -/
theorem numberType?_of_writes {l : IntegerLiteral} {token : String} (h : l.Writes token) :
    numberType? token = if l.value < 2 ^ 64 then
      (integerSuffix? l.suffix.toList).map (widened l.base.radix l.value l.suffix.toList)
        else none := by
  have hfraction : ¬ (l.base.radix = 10 ∧ ((l.body ++ l.suffix.toList).contains '.' = true ∨
      (l.body ++ l.suffix.toList).contains 'e' = true)) := by
    rintro ⟨hradix, hcontains⟩
    have hbase : l.base = .decimal := by
      cases hb : l.base <;> simp [hb, Base.radix] at hradix ⊢
    simp only [List.contains_iff_mem] at hcontains
    rcases hcontains with hc | hc
    · exact decimal_free hbase hc (by decide)
    · exact decimal_free hbase hc (by decide)
  rw [numberType?, h, radixOf_text]
  dsimp only
  rw [if_neg hfraction, splitSuffix_text]
  dsimp only
  rw [unsigned64?_body]
  split
  · cases integerSuffix? l.suffix.toList <;> rfl
  · rfl

/-! ## Room for the value -/

/-- The least number that is too great for the type; types whose width varies have none. -/
def LiteralType.limit? : LiteralType → Option Nat
  | .int => some (2 ^ 31)
  | .unsignedInt => some (2 ^ 32)
  | .longLong => some (2 ^ 63)
  | .unsignedLongLong => some (2 ^ 64)
  | .long | .unsignedLong | .float | .double | .char | .string => none

def LiteralType.Holds (type : LiteralType) (value : Nat) : Prop :=
  ∀ limit ∈ type.limit?, value < limit

/-- The literal has a `suffix` for 32 bits and does not fit them, or needs the last of 64 bits and
does not ask for an unsigned type. -/
def IntegerLiteral.Oversized (l : IntegerLiteral) : Prop :=
  l.suffix = "u" ∧ 2 ^ 32 ≤ l.value ∨ l.suffix ∈ ["", "ll"] ∧ 2 ^ 63 ≤ l.value

private theorem LiteralType.holds_int {value : Nat} :
    LiteralType.int.Holds value ↔ value < 2 ^ 31 := by
  simp [LiteralType.Holds, LiteralType.limit?]

private theorem LiteralType.holds_unsignedInt {value : Nat} :
    LiteralType.unsignedInt.Holds value ↔ value < 2 ^ 32 := by
  simp [LiteralType.Holds, LiteralType.limit?]

private theorem LiteralType.holds_longLong {value : Nat} :
    LiteralType.longLong.Holds value ↔ value < 2 ^ 63 := by
  simp [LiteralType.Holds, LiteralType.limit?]

private theorem LiteralType.holds_of_lt {type : LiteralType} {value : Nat} (h : value < 2 ^ 64)
    (htype : type ∉ [.int, .unsignedInt, .longLong]) : type.Holds value := by
  intro limit hlimit
  cases type with
  | int | unsignedInt | longLong => simp at htype
  | unsignedLongLong =>
    cases hlimit
    exact h
  | long | unsignedLong | float | double | char | string => cases hlimit

theorem widened_nil {radix value : Nat} {type : LiteralType}
    (h : widened radix value [] .int = type) :
    (type.Holds value ↔ value < 2 ^ 63) ∧ (type = .int → value < 2 ^ 31) ∧
    type ≠ .unsignedLongLong := by
  simp only [widened, List.isEmpty_nil, Bool.true_and, decide_eq_true_eq] at h
  split_ifs at h with hwide hunsigned
  · subst h
    refine ⟨?_, by simp, by simp⟩
    rw [LiteralType.holds_unsignedInt]
    omega
  · subst h
    exact ⟨LiteralType.holds_longLong, by simp, by simp⟩
  · subst h
    refine ⟨?_, fun _ => by omega, by simp⟩
    rw [LiteralType.holds_int]
    omega

private theorem widened_of_ne_nil {radix value : Nat} {suffix : List Char} (h : suffix ≠ []) :
    widened radix value suffix = id := by
  funext type
  simp [widened, h]

theorem integerSuffix?_cases {suffix : String} (h : suffix ∈ integerSuffixes) (hne : suffix ≠ "") :
    suffix = "u" ∧ integerSuffix? suffix.toList = some .unsignedInt ∨
      suffix = "ll" ∧ integerSuffix? suffix.toList = some .longLong ∨
      suffix ∉ ["u", "ll"] ∧
        ∃ type ∉ [.int, .unsignedInt, .longLong], integerSuffix? suffix.toList = some type := by
  simp only [integerSuffixes, List.mem_cons, List.not_mem_nil, or_false] at h
  rcases h with rfl | rfl | rfl | rfl | rfl | rfl | rfl | rfl
  · exact absurd rfl hne
  · exact Or.inl ⟨rfl, by decide⟩
  · exact Or.inr (Or.inr ⟨by decide, .long, by decide, by decide⟩)
  · exact Or.inr (Or.inr ⟨by decide, .unsignedLong, by decide, by decide⟩)
  · exact Or.inr (Or.inr ⟨by decide, .unsignedLong, by decide, by decide⟩)
  · exact Or.inr (Or.inl ⟨rfl, by decide⟩)
  · exact Or.inr (Or.inr ⟨by decide, .unsignedLongLong, by decide, by decide⟩)
  · exact Or.inr (Or.inr ⟨by decide, .unsignedLongLong, by decide, by decide⟩)

private theorem isSome_integerSuffix? {suffix : String} (h : suffix ∈ integerSuffixes) :
    (integerSuffix? suffix.toList).isSome = true := by
  by_cases hempty : suffix = ""
  · subst hempty
    decide
  · rcases integerSuffix?_cases h hempty with ⟨-, hsome⟩ | ⟨-, hsome⟩ | ⟨-, type, -, hsome⟩ <;>
      simp [hsome]

private theorem holds_iff_of_suffix {l : IntegerLiteral} {type : LiteralType}
    (hvalue : l.value < 2 ^ 64) (hne : l.suffix ≠ "")
    (h : integerSuffix? l.suffix.toList = some type) :
    (type.Holds l.value ↔ ¬ l.Oversized) ∧
    (type ∈ [.int, .unsignedLongLong] → type.Holds l.value) := by
  rcases integerSuffix?_cases l.suffix_mem hne with
    ⟨hsuffix, hsome⟩ | ⟨hsuffix, hsome⟩ | ⟨hsuffix, type', hother, hsome⟩
  · cases h.symm.trans hsome
    refine ⟨?_, by simp⟩
    rw [LiteralType.holds_unsignedInt, IntegerLiteral.Oversized, hsuffix]
    simp
  · cases h.symm.trans hsome
    refine ⟨?_, by simp⟩
    rw [LiteralType.holds_longLong, IntegerLiteral.Oversized, hsuffix]
    simp
  · cases h.symm.trans hsome
    have hholds := LiteralType.holds_of_lt hvalue hother
    have hfits : ¬ l.Oversized := by
      simp only [List.mem_cons, List.not_mem_nil, or_false, not_or] at hsuffix
      simp [IntegerLiteral.Oversized, hsuffix, hne]
    exact ⟨iff_of_true hholds hfits, fun _ => hholds⟩

private theorem holds_iff_of_no_suffix {l : IntegerLiteral} {type : LiteralType}
    (hempty : l.suffix = "") (h : widened l.base.radix l.value [] .int = type) :
    (type.Holds l.value ↔ ¬ l.Oversized) ∧
    (type ∈ [.int, .unsignedLongLong] → type.Holds l.value) := by
  obtain ⟨hholds, hint, hunsigned⟩ := widened_nil h
  refine ⟨?_, fun hmem => ?_⟩
  · rw [hholds, IntegerLiteral.Oversized, hempty]
    simp
  · have heq : type = .int := by simpa [hunsigned] using hmem
    rw [heq]
    exact LiteralType.holds_int.2 (hint heq)

/-- `numberType?` is found for exactly the integers of 64 bits. The type `Holds` the value exactly
if the literal is not `Oversized`; `int` and `unsignedLongLong` always do. -/
theorem numberType?_holds_iff {l : IntegerLiteral} {token : String} (h : l.Writes token) :
    ((numberType? token).isSome = true ↔ l.value < 2 ^ 64) ∧
      ∀ type, numberType? token = some type → (type.Holds l.value ↔ ¬ l.Oversized) ∧
        (type ∈ [.int, .unsignedLongLong] → type.Holds l.value) := by
  rw [numberType?_of_writes h]
  constructor
  · split
    · next hvalue => simp only [Option.isSome_map, isSome_integerSuffix? l.suffix_mem, hvalue]
    · next hvalue => exact iff_of_false (by simp) hvalue
  · intro type htype
    obtain ⟨hvalue, htype⟩ := Option.ite_none_right_eq_some.1 htype
    by_cases hempty : l.suffix = ""
    · rw [hempty] at htype
      exact holds_iff_of_no_suffix hempty (Option.some.inj htype)
    · have hchars : l.suffix.toList ≠ [] := by simpa using hempty
      rw [widened_of_ne_nil hchars, Option.map_id_apply] at htype
      exact holds_iff_of_suffix hvalue hempty htype

/-- An unsigned number of 33 bits. -/
def fiveBillion : IntegerLiteral where
  base := .decimal
  digits := ([5, 0, 0, 0, 0, 0, 0, 0, 0, 0] : List (Fin 10))
  suffix := "u"
  nonempty := List.cons_ne_nil _ _
  suffix_mem := by decide

theorem numberType?_fiveBillion_holds_iff : fiveBillion.Writes "5000000000U" ∧
    numberType? "5000000000U" = some .unsignedInt ∧ fiveBillion.value = 5000000000 ∧
    (LiteralType.unsignedInt.Holds fiveBillion.value ↔ ¬ fiveBillion.Oversized) ∧
    ¬ LiteralType.unsignedInt.Holds fiveBillion.value := by
  have hwrites : fiveBillion.Writes "5000000000U" := by decide
  have htype : numberType? "5000000000U" = some .unsignedInt := by decide +kernel
  have hvalue : fiveBillion.value = 5000000000 := by decide +kernel
  have hiff := ((numberType?_holds_iff hwrites).2 .unsignedInt htype).1
  refine ⟨hwrites, htype, hvalue, hiff, fun hholds => ?_⟩
  exact hiff.1 hholds (Or.inl ⟨rfl, by rw [hvalue]; decide⟩)

end HeaderSurvey.Macro
