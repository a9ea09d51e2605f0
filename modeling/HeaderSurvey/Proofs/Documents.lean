import HeaderSurvey.Json.Printer
import HeaderSurvey.Json.Reader

/-! The written form of a document holds that document. The text is cut into the tokens that were
written, and the machine that takes them puts the document together again. Numbers that are no
integers are left out, since no document of this library has one, and containers may be nested as
deep as the reader follows them. -/
namespace HeaderSurvey.Json

/-! ## Strings -/

theorem hexValue?_hexDigit : ∀ n < 16, hexValue? (hexDigit n) = some n := by decide

theorem stringBody_digits {n : Nat} (h : n < 32) (read : List StringPart) (rest : List Char) :
    stringBody .plain read ('\\' :: 'u' :: '0' :: '0' :: hexDigit (n / 16) ::
      hexDigit (n % 16) :: rest) =
      stringBody .plain (.unit n :: read) rest := by
  have hhigh := hexValue?_hexDigit (n / 16) (by omega)
  have hlow := hexValue?_hexDigit (n % 16) (by omega)
  have hzero : hexValue? '0' = some 0 := by decide
  have hvalue : 16 * (n / 16) + n % 16 = n := by omega
  simp [stringBody, StringState.step, hzero, hhigh, hlow, hvalue]

private theorem characters?_unit {n : Nat} (h : n < 32) (read : List Char)
    (parts : List StringPart) :
    characters? read (.unit n :: parts) = characters? (Char.ofNat n :: read) parts := by
  have hlow : isLowHalf n = false := by
    simp only [isLowHalf, Bool.and_eq_false_iff, decide_eq_false_iff_not]
    omega
  have hhigh : isHighHalf n = false := by
    simp only [isHighHalf, Bool.and_eq_false_iff, decide_eq_false_iff_not]
    omega
  rw [characters?.eq_def]
  simp [hlow, hhigh]

/-- `escapeChar` leaves a character as it is, or gives it a letter after a backslash, or its
number. -/
theorem escapeChar_cases (c : Char) :
    (escapeChar c = [c] ∧ c ≠ '"' ∧ c ≠ '\\' ∧ 32 ≤ c.toNat) ∨
      (∃ e, escapeChar c = ['\\', e] ∧ e ≠ 'u' ∧ simpleEscape? e = some c) ∨
      (escapeChar c = ['\\', 'u', '0', '0', hexDigit (c.toNat / 16), hexDigit (c.toNat % 16)] ∧
        c.toNat < 32) := by
  have hchar : ∀ d : Char, c.toNat = d.toNat → d = c := fun d h => Char.toNat_inj.1 h.symm
  unfold escapeChar
  split
  · next h => exact Or.inr (Or.inl ⟨'"', rfl, by decide, by rw [h]; rfl⟩)
  split
  · next h => exact Or.inr (Or.inl ⟨'\\', rfl, by decide, by rw [h]; rfl⟩)
  split
  · next hquote hslash h => exact Or.inl ⟨rfl, hquote, hslash, h⟩
  split
  · next h => exact Or.inr (Or.inl ⟨'b', rfl, by decide, congrArg some (hchar '\x08' h)⟩)
  split
  · next h => exact Or.inr (Or.inl ⟨'t', rfl, by decide, congrArg some (hchar '\t' h)⟩)
  split
  · next h => exact Or.inr (Or.inl ⟨'n', rfl, by decide, congrArg some (hchar '\n' h)⟩)
  split
  · next h => exact Or.inr (Or.inl ⟨'f', rfl, by decide, congrArg some (hchar '\x0c' h)⟩)
  split
  · next h => exact Or.inr (Or.inl ⟨'r', rfl, by decide, congrArg some (hchar '\r' h)⟩)
  · next h _ _ _ _ _ => exact Or.inr (Or.inr ⟨rfl, Nat.lt_of_not_le h⟩)

theorem exists_part (c : Char) :
    ∃ part, (∀ read rest, stringBody .plain read (escapeChar c ++ rest) =
      stringBody .plain (part :: read) rest) ∧
      ∀ read parts, characters? read (part :: parts) = characters? (c :: read) parts := by
  rcases escapeChar_cases c with ⟨h, hquote, hslash, hprinted⟩ | ⟨e, h, hu, he⟩ | ⟨h, hcontrol⟩
  · refine ⟨.char c, ?_, fun _ _ => rfl⟩
    intro read rest
    simp [h, stringBody, StringState.step, hquote, hslash, Nat.not_lt.2 hprinted]
  · refine ⟨.char c, ?_, fun _ _ => rfl⟩
    intro read rest
    simp [h, stringBody, StringState.step, hu, he]
  · refine ⟨.unit c.toNat, ?_, ?_⟩
    · intro read rest
      rw [h]
      exact stringBody_digits hcontrol read rest
    · intro read parts
      rw [characters?_unit hcontrol, Char.ofNat_toNat]

private theorem exists_parts (s : List Char) :
    ∃ parts, (∀ read rest, stringBody .plain read (s.flatMap escapeChar ++ '"' :: rest) =
      some (parts ++ read, rest)) ∧
      ∀ read more, characters? read (parts ++ more) = characters? (s ++ read) more := by
  induction s with
  | nil => exact ⟨[], fun _ _ => rfl, fun _ _ => rfl⟩
  | cons c s ih =>
    obtain ⟨part, hwritten, hread⟩ := exists_part c
    obtain ⟨parts, hrest, hparts⟩ := ih
    -- The parts of a string are kept with the latest in front.
    refine ⟨parts ++ [part], ?_, ?_⟩
    · intro read rest
      rw [List.flatMap_cons, List.append_assoc, hwritten, hrest, List.append_assoc]
      rfl
    · intro read more
      rw [List.append_assoc, hparts, List.singleton_append, hread]
      rfl

/-! ## Tokens -/

theorem tokens?_space {c : Char} (h : isSpace c = true) (rest : List Char) :
    tokens? (c :: rest) = tokens? rest := by
  rw [tokens?, if_pos h]

theorem tokens?_token {c : Char} {rest after : List Char} {token : Token}
    (hspace : isSpace c = false) (h : token? c rest = some (token, after)) :
    tokens? (c :: rest) = (tokens? after).map (token :: ·) := by
  rw [tokens?, if_neg (by simp [hspace])]
  split
  · next hnone =>
    rw [h] at hnone
    cases hnone
  · next hsome =>
    rw [h] at hsome
    cases hsome
    rfl

theorem tokens?_line (level : Nat) (rest : List Char) :
    tokens? ((lineAt level).toList ++ rest) = tokens? rest := by
  have hblanks : ∀ n, tokens? (List.replicate n ' ' ++ rest) = tokens? rest := by
    intro n
    induction n with
    | zero => rfl
    | succ n ih =>
      rw [List.replicate_succ, List.cons_append, tokens?_space rfl, ih]
  have htext : (lineAt level).toList ++ rest = '\n' ::
      (List.replicate (2 * level) ' ' ++ rest) := by
    simp [lineAt]
  rw [htext, tokens?_space rfl, hblanks]

theorem tokens?_quote (s : String) (rest : List Char) :
    tokens? ((quote s).toList ++ rest) = (tokens? rest).map (.scalar (string s) :: ·) := by
  obtain ⟨parts, hwritten, hread⟩ := exists_parts s.toList
  have hparts : ofParts parts = string s := by
    have hall := hread [] []
    simp only [List.append_nil] at hall
    simp [ofParts, hall, characters?]
  have htext : (quote s).toList ++ rest = '"' :: (s.toList.flatMap escapeChar ++ '"' :: rest) := by
    simp [quote]
  rw [htext]
  apply tokens?_token rfl
  simp [token?, hwritten, hparts]

def Ends (rest : List Char) : Prop := ∀ c ∈ rest.head?, isNumberChar c = false ∧ c.isAlpha = false

theorem takeWhile_ends {p : Char → Bool} {s rest : List Char} (hs : ∀ c ∈ s, p c = true)
    (hr : ∀ c ∈ rest.head?, p c = false) :
    (s ++ rest).takeWhile p = s ∧ (s ++ rest).dropWhile p = rest := by
  rw [List.takeWhile_append_of_pos hs, List.dropWhile_append_of_pos hs]
  cases rest with
  | nil => simp
  | cons c rest =>
    have hc : p c = false := hr c rfl
    simp [hc]

private theorem tokens?_word {s rest : List Char} {d : Json} (hr : Ends rest)
    (h : word? s = some d) :
    tokens? (s ++ rest) = (tokens? rest).map (.scalar d :: ·) := by
  have hletters : ∃ c s', s = c :: s' ∧ isSpace c = false ∧ c ≠ '"' ∧
      (c = '-' || c.isDigit) = false ∧
      c.isAlpha = true ∧ s'.all Char.isAlpha = true := by
    unfold word? at h
    split at h
    · exact ⟨'n', ['u', 'l', 'l'], rfl, rfl, by decide, rfl, rfl, rfl⟩
    · exact ⟨'t', ['r', 'u', 'e'], rfl, rfl, by decide, rfl, rfl, rfl⟩
    · exact ⟨'f', ['a', 'l', 's', 'e'], rfl, rfl, by decide, rfl, rfl, rfl⟩
    · cases h
  obtain ⟨c, s', rfl, hspace, hquote, hnumber, hc, hs⟩ := hletters
  obtain ⟨htake, hdrop⟩ := takeWhile_ends (List.all_eq_true.1 hs) fun c' hc' => (hr c' hc').2
  apply tokens?_token hspace
  simp [token?, hquote, hnumber, hc, htake, hdrop, h]

/-! ## Numbers -/

theorem isNumberChar_of_isDigit {c : Char} (h : c.isDigit = true) : isNumberChar c = true := by
  simp [isNumberChar, h]

theorem head?_toDigits {n : Nat} (h : n ≠ 0) : (Nat.toDigits 10 n).head? ≠ some '0' := by
  induction n using Nat.strongRecOn with
  | ind n ih =>
    rw [Nat.toDigits_eq_if (by decide)]
    split
    · simpa [Nat.digitChar_eq_zero] using h
    · next hlarge =>
      have hshorter := ih (n / 10) (by omega) (by omega)
      cases hdigits : Nat.toDigits 10 (n / 10) with
      | nil => exact absurd hdigits Nat.toDigits_ne_nil
      | cons c rest => simpa [hdigits] using hshorter

theorem isDigit_of_mem_toDigits {n : Nat} {c : Char} (h : c ∈ Nat.toDigits 10 n) :
    c.isDigit = true :=
  Nat.isDigit_of_mem_toDigits (by decide) (by decide) h

private theorem digitsValue_toDigits (n : Nat) : digitsValue (Nat.toDigits 10 n) = n := by
  have hvalue := Nat.ofDigitChars_toDigits (b := 10) (n := n) (by decide) (by decide)
  rwa [Nat.ofDigitChars_eq_foldl] at hvalue

private theorem takeWhile_toDigits (n : Nat) :
    (Nat.toDigits 10 n).takeWhile Char.isDigit = Nat.toDigits 10 n ∧
      (Nat.toDigits 10 n).dropWhile Char.isDigit = [] := by
  have hend : ∀ c ∈ ([] : List Char).head?, c.isDigit = false := by simp
  simpa using takeWhile_ends (fun c (hc : c ∈ Nat.toDigits 10 n) => isDigit_of_mem_toDigits hc) hend

theorem toDigits_whole (n : Nat) : ¬ ((Nat.toDigits 10 n).isEmpty = true ∨
    ((Nat.toDigits 10 n).head? = some '0' ∧ (Nat.toDigits 10 n).length ≠ 1)) := by
  rintro (hempty | ⟨hzero, hlong⟩)
  · exact Nat.toDigits_ne_nil (List.isEmpty_iff.1 hempty)
  · by_cases hn : n = 0
    · subst hn
      exact hlong rfl
    · exact head?_toDigits hn hzero

private theorem number?_toDigits (n : Nat) : number? (Nat.toDigits 10 n) = some (integer n) := by
  obtain ⟨htake, hdrop⟩ := takeWhile_toDigits n
  have hsign : (Nat.toDigits 10 n).head? ≠ some '-' := by
    intro hhead
    have hminus := isDigit_of_mem_toDigits (List.mem_of_mem_head? hhead)
    exact absurd hminus (by decide)
  simp only [number?, hsign, ↓reduceIte, htake, hdrop, toDigits_whole n, digitsValue_toDigits]
  simp

private theorem number?_minus {n : Nat} (h : n ≠ 0) :
    number? ('-' :: Nat.toDigits 10 n) = some (integer (-n)) := by
  obtain ⟨htake, hdrop⟩ := takeWhile_toDigits n
  simp only [number?, List.head?_cons, List.tail_cons, ↓reduceIte, htake, hdrop, toDigits_whole n,
    digitsValue_toDigits]
  simp [h]

private theorem isSpace_of_isDigit {c : Char} (h : c.isDigit = true) : isSpace c = false := by
  apply Bool.eq_false_iff.2
  intro hspace
  simp only [isSpace, Bool.or_eq_true, decide_eq_true_eq] at hspace
  rcases hspace with ((rfl | rfl) | rfl) | rfl <;> cases h

private theorem tokens?_number {c : Char} {s rest : List Char} {d : Json} (hr : Ends rest)
    (hfirst : c = '-' ∨ c.isDigit = true) (hs : ∀ c' ∈ s, c'.isDigit = true)
    (h : number? (c :: s) = some d) :
    tokens? (c :: s ++ rest) = (tokens? rest).map (.scalar d :: ·) := by
  have hspace : isSpace c = false := by
    rcases hfirst with rfl | hdigit
    · rfl
    · exact isSpace_of_isDigit hdigit
  have hquote : c ≠ '"' := by
    rintro rfl
    rcases hfirst with hminus | hdigit
    · exact absurd hminus (by decide)
    · cases hdigit
  obtain ⟨htake, hdrop⟩ := takeWhile_ends (fun c' hc' => isNumberChar_of_isDigit (hs c' hc'))
    fun c' hc' => (hr c' hc').1
  apply tokens?_token hspace
  simp [token?, hquote, hfirst, htake, hdrop, h]

private theorem tokens?_integer (n : Int) {rest : List Char} (hr : Ends rest) :
    tokens? ((toString n).toList ++ rest) = (tokens? rest).map (.scalar (integer n) :: ·) := by
  cases n with
  | ofNat m =>
    have htext : (toString (Int.ofNat m)).toList = Nat.toDigits 10 m := String.toList_ofList
    have hnumber := number?_toDigits m
    cases hm : Nat.toDigits 10 m with
    | nil => exact absurd hm Nat.toDigits_ne_nil
    | cons c s =>
      have hdigits : ∀ c' ∈ c :: s, c'.isDigit = true :=
        fun c' hc' => isDigit_of_mem_toDigits (hm ▸ hc')
      rw [hm] at hnumber
      rw [htext, hm]
      apply tokens?_number hr (Or.inr (hdigits c List.mem_cons_self)) ?_ hnumber
      exact fun c' hc' => hdigits c' (List.mem_cons_of_mem c hc')
  | negSucc m =>
    have htext : (toString (Int.negSucc m)).toList = '-' :: Nat.toDigits 10 (m + 1) := by
      have hrepr : toString (Int.negSucc m) = "-" ++ String.ofList (Nat.toDigits 10 (m + 1)) := rfl
      simp [hrepr]
    rw [htext]
    apply tokens?_number hr (Or.inl rfl) (fun _ => isDigit_of_mem_toDigits)
    exact number?_minus (Nat.succ_ne_zero m)

/-! ## Documents as tokens -/

mutual

/-- Whether all numbers of a document are integers, and nothing in it is `unreadable`. -/
def isPlain : Json → Bool
  | null | bool _ | integer _ | string _ => true
  | real _ | unreadable => false
  | array items => arePlain items
  | object members => arePlainMembers members

def arePlain : List Json → Bool
  | [] => true
  | item :: rest => isPlain item && arePlain rest

def arePlainMembers : List (String × Json) → Bool
  | [] => true
  | (_, value) :: rest => isPlain value && arePlainMembers rest

end

mutual

def nesting : Json → Nat
  | array items => nestingItems items + 1
  | object members => nestingMembers members + 1
  | _ => 0

def nestingItems : List Json → Nat
  | [] => 0
  | item :: rest => max (nesting item) (nestingItems rest)

def nestingMembers : List (String × Json) → Nat
  | [] => 0
  | (_, value) :: rest => max (nesting value) (nestingMembers rest)

end

mutual

def tokens : Json → List Token
  | array [] => [.openArray, .closeArray]
  | array (item :: rest) => .openArray :: (tokens item ++ itemTokens rest ++ [.closeArray])
  | object [] => [.openObject, .closeObject]
  | object ((name, value) :: rest) =>
    .openObject :: .scalar (string name) :: .colon ::
      (tokens value ++ memberTokens rest ++ [.closeObject])
  | scalar => [.scalar scalar]

def itemTokens : List Json → List Token
  | [] => []
  | item :: rest => .comma :: (tokens item ++ itemTokens rest)

def memberTokens : List (String × Json) → List Token
  | [] => []
  | (name, value) :: rest =>
    .comma :: .scalar (string name) :: .colon :: (tokens value ++ memberTokens rest)

end

/-- Induction over a document: an `array` or an `object` follows from what it holds. -/
theorem induct {P : Json → Prop}
    (scalar : ∀ d, (∀ items, d ≠ array items) → (∀ members, d ≠ object members) → P d)
    (array : ∀ items, (∀ item ∈ items, P item) → P (array items))
    (object : ∀ members, (∀ m ∈ members, P m.2) → P (object members)) (d : Json) : P d := by
  match d with
  | .array items => exact array items fun item hitem => induct scalar array object item
  | .object members => exact object members fun m hm => induct scalar array object m.2
  | .null | .bool _ | .integer _ | .real _ | .string _ | .unreadable =>
    exact scalar _ (by simp) (by simp)
termination_by d
decreasing_by
  · have hsize := List.sizeOf_lt_of_mem hitem
    simp only [Json.array.sizeOf_spec]
    omega
  · have hsize := List.sizeOf_lt_of_mem hm
    have hvalue : sizeOf m.2 < sizeOf m := by
      cases m
      simp only [Prod.mk.sizeOf_spec]
      omega
    simp only [Json.object.sizeOf_spec]
    omega

@[simp] theorem isPlain_bool (b : Bool) : (bool b).isPlain = true := rfl

@[simp] theorem isPlain_integer (n : Int) : (integer n).isPlain = true := rfl

@[simp] theorem isPlain_string (s : String) : (string s).isPlain = true := rfl

@[simp] theorem isPlain_array (items : List Json) : (array items).isPlain = items.all isPlain := by
  rw [isPlain]
  induction items with
  | nil => rfl
  | cons item rest ih => rw [arePlain, List.all_cons, ih]

@[simp] theorem isPlain_object (members : List (String × Json)) :
    (object members).isPlain = members.all fun m => m.2.isPlain := by
  rw [isPlain]
  induction members with
  | nil => rfl
  | cons m rest ih => rw [arePlainMembers, List.all_cons, ih]

@[simp] theorem nesting_bool (b : Bool) : (bool b).nesting = 0 := rfl

@[simp] theorem nesting_integer (n : Int) : (integer n).nesting = 0 := rfl

@[simp] theorem nesting_string (s : String) : (string s).nesting = 0 := rfl

theorem nesting_array_le {items : List Json} {n : Nat} :
    (array items).nesting ≤ n + 1 ↔ ∀ item ∈ items, item.nesting ≤ n := by
  rw [nesting, Nat.add_le_add_iff_right]
  induction items with
  | nil => simp [nestingItems]
  | cons item rest ih => rw [nestingItems, Nat.max_le, ih, List.forall_mem_cons]

theorem nesting_object_le {members : List (String × Json)} {n : Nat} :
    (object members).nesting ≤ n + 1 ↔ ∀ m ∈ members, m.2.nesting ≤ n := by
  rw [nesting, Nat.add_le_add_iff_right]
  induction members with
  | nil => simp [nestingMembers]
  | cons m rest ih => rw [nestingMembers, Nat.max_le, ih, List.forall_mem_cons]

private theorem nesting_lt_array {items : List Json} {item : Json} (h : item ∈ items) :
    item.nesting < (array items).nesting := by
  have hle : (array items).nesting ≤ nestingItems items + 1 := Nat.le_of_eq (by rw [nesting])
  rw [nesting]
  exact Nat.lt_succ_of_le (nesting_array_le.1 hle item h)

private theorem nesting_lt_object {members : List (String × Json)} {m : String × Json}
    (h : m ∈ members) :
    m.2.nesting < (object members).nesting := by
  have hle : (object members).nesting ≤ nestingMembers members + 1 := Nat.le_of_eq (by rw [nesting])
  rw [nesting]
  exact Nat.lt_succ_of_le (nesting_object_le.1 hle m h)

/-! ## Cutting the text -/

theorem ends_line (level : Nat) (rest : List Char) : Ends ((lineAt level).toList ++ rest) := by
  intro c hc
  obtain rfl : '\n' = c := by simpa [lineAt] using hc
  decide

private theorem ends_prettyItems (level : Nat) (items : List Json) {rest : List Char}
    (hr : Ends rest) :
    Ends ((prettyItems level items).toList ++ rest) := by
  cases items with
  | nil => simpa [prettyItems] using hr
  | cons item items =>
    intro c hc
    obtain rfl : ',' = c := by simpa [prettyItems] using hc
    decide

private theorem ends_prettyMembers (level : Nat) (members : List (String × Json)) {rest : List Char}
    (hr : Ends rest) :
    Ends ((prettyMembers level members).toList ++ rest) := by
  cases members with
  | nil => simpa [prettyMembers] using hr
  | cons m members =>
    intro c hc
    obtain rfl : ',' = c := by simpa [prettyMembers] using hc
    decide

/-- At every level `tokens?` cuts the text of `d` into its `tokens`, if the text after it lets a
number end. -/
def Lexes (d : Json) : Prop :=
  ∀ level rest, Ends rest →
    tokens? ((prettyAt level d).toList ++ rest) = (tokens? rest).map (d.tokens ++ ·)

def Token.sign? : Token → Option Char
  | openArray => some '['
  | closeArray => some ']'
  | openObject => some '\x7b'
  | closeObject => some '\x7d'
  | comma => some ','
  | colon => some ':'
  | scalar _ => none

theorem tokens?_sign (token : Token) {c : Char} (h : token.sign? = some c) (rest : List Char) :
    tokens? (c :: rest) = (tokens? rest).map (token :: ·) := by
  cases token <;> cases h <;> exact tokens?_token rfl rfl

private theorem tokens?_items {items : List Json} (h : ∀ item ∈ items, Lexes item) (level : Nat)
    {rest : List Char} (hr : Ends rest) :
    tokens? ((prettyItems level items).toList ++ rest) =
      (tokens? rest).map (itemTokens items ++ ·) := by
  induction items with
  | nil => simp [prettyItems, itemTokens]
  | cons item items ih =>
    have htext : (prettyItems level (item :: items)).toList ++ rest = ',' ::
        ((lineAt level).toList ++
        ((prettyAt level item).toList ++ ((prettyItems level items).toList ++ rest))) := by
      simp [prettyItems]
    have hitem := h item List.mem_cons_self level _ (ends_prettyItems level items hr)
    have hitems := ih fun item' hmem => h item' (List.mem_cons_of_mem item hmem)
    rw [htext, tokens?_sign .comma rfl, tokens?_line, hitem, hitems]
    simp [itemTokens, Function.comp_def]

private theorem tokens?_members {members : List (String × Json)} (h : ∀ m ∈ members, Lexes m.2)
    (level : Nat) {rest : List Char} (hr : Ends rest) :
    tokens? ((prettyMembers level members).toList ++ rest) =
      (tokens? rest).map (memberTokens members ++ ·) := by
  induction members with
  | nil => simp [prettyMembers, memberTokens]
  | cons m members ih =>
    have htext : (prettyMembers level (m :: members)).toList ++ rest = ',' ::
        ((lineAt level).toList ++
        ((quote m.1).toList ++ ':' :: ' ' :: ((prettyAt level m.2).toList ++
          ((prettyMembers level members).toList ++ rest)))) := by
      simp [prettyMembers]
    have hvalue := h m List.mem_cons_self level _ (ends_prettyMembers level members hr)
    have hmembers := ih fun m' hmem => h m' (List.mem_cons_of_mem m hmem)
    rw [htext, tokens?_sign .comma rfl, tokens?_line, tokens?_quote, tokens?_sign .colon rfl,
      tokens?_space rfl, hvalue, hmembers]
    simp [memberTokens, Function.comp_def]

private theorem lexes_array {items : List Json} (h : ∀ item ∈ items, Lexes item) :
    Lexes (array items) := by
  intro level rest hr
  cases items with
  | nil =>
    have htext : (prettyAt level (array [])).toList ++ rest = '[' :: ']' :: rest := by
      simp [prettyAt]
    rw [htext, tokens?_sign .openArray rfl, tokens?_sign .closeArray rfl]
    simp [tokens, Function.comp_def]
  | cons item items =>
    have htext : (prettyAt level (array (item :: items))).toList ++ rest =
        '[' :: ((lineAt (level + 1)).toList ++ ((prettyAt (level + 1) item).toList ++
          ((prettyItems (level + 1) items).toList ++ ((lineAt level).toList ++ ']' :: rest)))) := by
      simp [prettyAt]
    have hline := ends_line level (']' :: rest)
    have hitem := h item List.mem_cons_self (level + 1) _ (ends_prettyItems (level + 1) items hline)
    have hitems := tokens?_items (fun item' hmem => h item' (List.mem_cons_of_mem item hmem))
      (level + 1) hline
    rw [htext, tokens?_sign .openArray rfl, tokens?_line, hitem, hitems, tokens?_line,
      tokens?_sign .closeArray rfl]
    simp [tokens, Function.comp_def]

private theorem lexes_object {members : List (String × Json)} (h : ∀ m ∈ members, Lexes m.2) :
    Lexes (object members) := by
  intro level rest hr
  cases members with
  | nil =>
    have htext : (prettyAt level (object [])).toList ++ rest = '\x7b' :: '\x7d' :: rest := by
      simp [prettyAt]
    rw [htext, tokens?_sign .openObject rfl, tokens?_sign .closeObject rfl]
    simp [tokens, Function.comp_def]
  | cons m members =>
    have htext : (prettyAt level (object (m :: members))).toList ++ rest =
        '\x7b' :: ((lineAt (level + 1)).toList ++ ((quote m.1).toList ++
          ':' :: ' ' :: ((prettyAt (level + 1) m.2).toList ++
            ((prettyMembers (level + 1) members).toList ++
              ((lineAt level).toList ++ '\x7d' :: rest))))) := by
      simp [prettyAt]
    have hline := ends_line level ('\x7d' :: rest)
    have hvalue := h m List.mem_cons_self (level + 1) _
      (ends_prettyMembers (level + 1) members hline)
    have hmembers := tokens?_members (fun m' hmem => h m' (List.mem_cons_of_mem m hmem))
      (level + 1) hline
    rw [htext, tokens?_sign .openObject rfl, tokens?_line, tokens?_quote, tokens?_sign .colon rfl,
      tokens?_space rfl, hvalue, hmembers, tokens?_line, tokens?_sign .closeObject rfl]
    simp [tokens, Function.comp_def]

theorem lexes_scalar {d : Json} (harray : ∀ items, d ≠ array items)
    (hobject : ∀ members, d ≠ object members) (h : d.isPlain = true) : Lexes d := by
  intro level rest hr
  cases d with
  | array items => exact absurd rfl (harray items)
  | object members => exact absurd rfl (hobject members)
  | real text => cases h
  | unreadable => cases h
  | null => exact tokens?_word hr (by simp [prettyAt, word?])
  | bool b => exact tokens?_word hr (by cases b <;> simp [prettyAt, word?])
  | integer n => exact tokens?_integer n hr
  | string s => exact tokens?_quote s rest

private theorem lexes_of_isPlain {d : Json} (h : d.isPlain = true) : Lexes d := by
  induction d using induct with
  | scalar d harray hobject => exact lexes_scalar harray hobject h
  | array items ih =>
    rw [isPlain_array, List.all_eq_true] at h
    exact lexes_array fun item hitem => ih item hitem (h item hitem)
  | object members ih =>
    rw [isPlain_object, List.all_eq_true] at h
    exact lexes_object fun m hm => ih m hm (h m hm)

/-! ## Taking the tokens -/

/-- Where a value may stand, the `tokens` of `d` are taken as that value, if `d` is nested no deeper
than `maxNesting`. -/
def Reads (d : Json) : Prop :=
  ∀ frames : List Frame, frames.length + d.nesting ≤ maxNesting →
    d.tokens.foldlM Reader.step? ⟨frames, .value⟩ = Reader.complete? d frames

private theorem exists_first_token (d : Json) :
    ∃ token rest, d.tokens = token :: rest ∧ token ≠ .closeArray := by
  match d with
  | array [] | array (_ :: _) | object [] | object ((_, _) :: _) => exact ⟨_, _, rfl, by simp⟩
  | null | bool _ | integer _ | real _ | string _ | unreadable => exact ⟨_, _, rfl, by simp⟩

theorem foldlM_firstItem (d : Json) (frames : List Frame) :
    d.tokens.foldlM Reader.step? ⟨frames, .firstItem⟩ =
      d.tokens.foldlM Reader.step? ⟨frames, .value⟩ := by
  obtain ⟨token, rest, htokens, hopen⟩ := exists_first_token d
  rw [htokens, List.foldlM_cons, List.foldlM_cons]
  congr 1
  cases token <;> first | rfl | exact absurd rfl hopen

private theorem foldlM_items {items : List Json} (read : List Json) (outer : List Frame)
    (h : ∀ item ∈ items, Reads item)
    (hn : ∀ item ∈ items, outer.length + 1 + item.nesting ≤ maxNesting) :
    (itemTokens items).foldlM Reader.step? ⟨.items read :: outer, .separator⟩ =
      some ⟨.items (items.reverse ++ read) :: outer, .separator⟩ := by
  induction items generalizing read with
  | nil => rfl
  | cons item items ih =>
    have hitem := h item List.mem_cons_self (.items read :: outer) (hn item List.mem_cons_self)
    have hitems := ih (item :: read) (fun item' hmem => h item' (List.mem_cons_of_mem item hmem))
      fun item' hmem => hn item' (List.mem_cons_of_mem item hmem)
    have hcomma : Reader.step? ⟨.items read :: outer, .separator⟩ .comma =
        some ⟨.items read :: outer, .value⟩ := rfl
    rw [itemTokens, List.foldlM_cons, hcomma]
    simp [List.foldlM_append, hitem, Reader.complete?, hitems]

private theorem foldlM_members {members : List (String × Json)} (read : List (Option String × Json))
    (outer : List Frame) (h : ∀ m ∈ members, Reads m.2)
    (hn : ∀ m ∈ members, outer.length + 1 + m.2.nesting ≤ maxNesting) :
    (memberTokens members).foldlM Reader.step? ⟨.members read :: outer, .separator⟩ =
      some ⟨.members ((members.map fun m => (some m.1, m.2)).reverse ++ read) :: outer,
        .separator⟩ := by
  induction members generalizing read with
  | nil => rfl
  | cons m members ih =>
    have hvalue := h m List.mem_cons_self (.member read (some m.1) :: outer)
      (hn m List.mem_cons_self)
    have hmembers := ih ((some m.1, m.2) :: read)
      (fun m' hmem => h m' (List.mem_cons_of_mem m hmem))
      fun m' hmem => hn m' (List.mem_cons_of_mem m hmem)
    have hname : [Token.comma, .scalar (string m.1), .colon].foldlM Reader.step?
        ⟨.members read :: outer, .separator⟩ =
          some ⟨.member read (some m.1) :: outer, .value⟩ := rfl
    have htokens : memberTokens (m :: members) =
        [Token.comma, .scalar (string m.1), .colon] ++ (m.2.tokens ++ memberTokens members) := by
      rw [memberTokens]
      rfl
    rw [htokens, List.foldlM_append, hname]
    simp [List.foldlM_append, hvalue, Reader.complete?, hmembers]

private theorem ofMembers_reverse (members : List (String × Json)) :
    ofMembers (members.map fun m => (some m.1, m.2)).reverse = object members := by
  have hnamed : (members.map fun m => (some m.1, m.2)).mapM (fun m => m.1.map (·, m.2)) =
      some members := by
    induction members with
    | nil => rfl
    | cons m members ih =>
      rw [List.map_cons, List.mapM_cons, ih]
      rfl
  rw [ofMembers, List.reverse_reverse, hnamed]

private theorem reads_array {items : List Json} (h : ∀ item ∈ items, Reads item) :
    Reads (array items) := by
  intro frames hn
  have hdepth : frames.length < maxNesting := by
    rw [nesting] at hn
    omega
  have hitems : ∀ item ∈ items, frames.length + 1 + item.nesting ≤ maxNesting := by
    intro item hitem
    have hlt := nesting_lt_array hitem
    omega
  cases items with
  | nil => simp [tokens, Reader.step?, Reader.value?, Reader.close?, Reader.closed?, hdepth]
  | cons item items =>
    have hfirst := h item List.mem_cons_self (.items [] :: frames) (hitems item List.mem_cons_self)
    have hrest := foldlM_items [item] frames
      (fun item' hmem => h item' (List.mem_cons_of_mem item hmem))
      fun item' hmem => hitems item' (List.mem_cons_of_mem item hmem)
    have hopen : Reader.step? ⟨frames, .value⟩ .openArray =
        some ⟨.items [] :: frames, .firstItem⟩ := rfl
    rw [tokens, List.foldlM_cons, hopen]
    simp [List.foldlM_append, foldlM_firstItem, hfirst, Reader.complete?, hrest, Reader.step?,
      Reader.close?, Reader.closed?, hdepth]

private theorem reads_object {members : List (String × Json)} (h : ∀ m ∈ members, Reads m.2) :
    Reads (object members) := by
  intro frames hn
  have hdepth : frames.length < maxNesting := by
    rw [nesting] at hn
    omega
  have hmembers : ∀ m ∈ members, frames.length + 1 + m.2.nesting ≤ maxNesting := by
    intro m hm
    have hlt := nesting_lt_object hm
    omega
  cases members with
  | nil =>
    simp [tokens, Reader.step?, Reader.value?, Reader.close?, Reader.closed?, hdepth, ofMembers]
  | cons m members =>
    have hfirst := h m List.mem_cons_self (.member [] (some m.1) :: frames)
      (hmembers m List.mem_cons_self)
    have hrest := foldlM_members [(some m.1, m.2)] frames
      (fun m' hmem => h m' (List.mem_cons_of_mem m hmem))
      fun m' hmem => hmembers m' (List.mem_cons_of_mem m hmem)
    have hname : [Token.openObject, .scalar (string m.1), .colon].foldlM Reader.step?
        ⟨frames, .value⟩ =
        some ⟨.member [] (some m.1) :: frames, .value⟩ := rfl
    have htokens : (object (m :: members)).tokens =
        [Token.openObject, .scalar (string m.1), .colon] ++
        (m.2.tokens ++ memberTokens members ++ [.closeObject]) := by
      rw [tokens]
      rfl
    have hall := ofMembers_reverse (m :: members)
    simp only [List.map_cons, List.reverse_cons] at hall
    rw [htokens, List.foldlM_append, hname]
    simp [List.foldlM_append, hfirst, Reader.complete?, hrest, Reader.step?, Reader.close?,
      Reader.closed?, hdepth, hall]

private theorem reads_all (d : Json) : Reads d := by
  induction d using induct with
  | scalar d harray hobject =>
    intro frames _
    cases d with
    | array items => exact absurd rfl (harray items)
    | object members => exact absurd rfl (hobject members)
    | null | bool | integer | real | string | unreadable =>
      simp [tokens, Reader.step?, Reader.value?]
  | array items ih => exact reads_array ih
  | object members ih => exact reads_object ih

/-- `read?` gives a document for any text with its `tokens`. -/
theorem read?_of_tokens? {text : String} {d : Json} (htokens : tokens? text.toList = some d.tokens)
    (hn : d.nesting ≤ maxNesting) : read? text = some d := by
  have hread := reads_all d [] (by simpa using hn)
  simp [read?, htokens, hread, Reader.complete?]

/-- `read?` gives back a document from its `pretty` text. -/
theorem read?_pretty {d : Json} (hplain : d.isPlain = true) (hn : d.nesting ≤ maxNesting) :
    read? d.pretty = some d := by
  refine read?_of_tokens? ?_ hn
  have hcut := lexes_of_isPlain hplain 0 [] (by simp [Ends])
  simpa [pretty, tokens?] using hcut

end HeaderSurvey.Json
