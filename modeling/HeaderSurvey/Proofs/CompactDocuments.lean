import HeaderSurvey.Proofs.Documents

/-! Documents on one line. Nothing but a comma or a closing bracket follows a value there, so a
number ends where it should, and the text is cut into the same tokens as that over several lines. -/
namespace HeaderSurvey.Json

variable {rest : List Char}

theorem ends_sign (token : Token) {c : Char} (h : token.sign? = some c) (rest : List Char) :
    Ends (c :: rest) := by
  intro d hd
  obtain rfl : c = d := by simpa using hd
  cases token <;> cases h <;> decide

/-- `tokens?` cuts the `compact` text of `d` into its `tokens`, if the text after it lets a number
end. -/
def LexesOnLine (d : Json) : Prop :=
  ∀ rest, Ends rest → tokens? (d.compact.toList ++ rest) = (tokens? rest).map (d.tokens ++ ·)

private theorem tokens?_compactItems {item : Json} {items : List Json}
    (h : ∀ d ∈ item :: items, LexesOnLine d) (hr : Ends rest) :
    tokens? ((compactItems (item :: items)).toList ++ rest) =
      (tokens? rest).map (item.tokens ++ itemTokens items ++ ·) := by
  induction items generalizing item with
  | nil =>
    rw [compactItems, h item List.mem_cons_self rest hr]
    simp [itemTokens]
  | cons next items ih =>
    have htext : (compactItems (item :: next :: items)).toList ++ rest =
        item.compact.toList ++ ',' :: ((compactItems (next :: items)).toList ++ rest) := by
      simp [compactItems]
    have hitem := h item List.mem_cons_self
    have hitems := ih fun d hd => h d (List.mem_cons_of_mem item hd)
    rw [htext, hitem _ (ends_sign .comma rfl _), tokens?_sign .comma rfl, hitems]
    simp [itemTokens, Function.comp_def]

private theorem tokens?_compactMembers {m : String × Json} {members : List (String × Json)}
    (h : ∀ n ∈ m :: members, LexesOnLine n.2) (hr : Ends rest) :
    tokens? ((compactMembers (m :: members)).toList ++ rest) =
      (tokens? rest).map
        (.scalar (string m.1) :: .colon :: (m.2.tokens ++ memberTokens members) ++ ·) := by
  induction members generalizing m with
  | nil =>
    have htext : (compactMembers [m]).toList ++ rest = (quote m.1).toList ++ ':' ::
        (m.2.compact.toList ++ rest) := by
      simp [compactMembers]
    rw [htext, tokens?_quote, tokens?_sign .colon rfl, h m List.mem_cons_self rest hr]
    simp [memberTokens, Function.comp_def]
  | cons next members ih =>
    have htext : (compactMembers (m :: next :: members)).toList ++ rest = (quote m.1).toList ++
        ':' :: (m.2.compact.toList ++ ',' ::
          ((compactMembers (next :: members)).toList ++ rest)) := by
      simp [compactMembers]
    have hvalue := h m List.mem_cons_self
    have hmembers := ih fun n hn => h n (List.mem_cons_of_mem m hn)
    rw [htext, tokens?_quote, tokens?_sign .colon rfl, hvalue _ (ends_sign .comma rfl _),
      tokens?_sign .comma rfl, hmembers]
    simp [memberTokens, Function.comp_def]

private theorem lexesOnLine_array {items : List Json} (h : ∀ item ∈ items, LexesOnLine item) :
    LexesOnLine (array items) := by
  intro rest _
  cases items with
  | nil =>
    have htext : (compact (array [])).toList ++ rest = '[' :: ']' :: rest := by
      simp [compact, compactItems]
    rw [htext, tokens?_sign .openArray rfl, tokens?_sign .closeArray rfl]
    simp [tokens, Function.comp_def]
  | cons item items =>
    have htext : (compact (array (item :: items))).toList ++ rest =
        '[' :: ((compactItems (item :: items)).toList ++ ']' :: rest) := by
      simp [compact]
    have hitems := tokens?_compactItems h (ends_sign .closeArray rfl rest)
    rw [htext, tokens?_sign .openArray rfl, hitems, tokens?_sign .closeArray rfl]
    simp [tokens, Function.comp_def]

private theorem lexesOnLine_object {members : List (String × Json)}
    (h : ∀ m ∈ members, LexesOnLine m.2) :
    LexesOnLine (object members) := by
  intro rest _
  cases members with
  | nil =>
    have htext : (compact (object [])).toList ++ rest = '\x7b' :: '\x7d' :: rest := by
      simp [compact, compactMembers]
    rw [htext, tokens?_sign .openObject rfl, tokens?_sign .closeObject rfl]
    simp [tokens, Function.comp_def]
  | cons m members =>
    have htext : (compact (object (m :: members))).toList ++ rest =
        '\x7b' :: ((compactMembers (m :: members)).toList ++ '\x7d' :: rest) := by
      simp [compact]
    have hmembers := tokens?_compactMembers h (ends_sign .closeObject rfl rest)
    rw [htext, tokens?_sign .openObject rfl, hmembers, tokens?_sign .closeObject rfl]
    simp [tokens, Function.comp_def]

private theorem lexesOnLine_of_isPlain {d : Json} (h : d.isPlain = true) : LexesOnLine d := by
  induction d using induct with
  | scalar d harray hobject =>
    -- A scalar is written alike in both forms.
    intro rest hr
    have hscalar := lexes_scalar harray hobject h 0 rest hr
    cases d with
    | array items => exact absurd rfl (harray items)
    | object members => exact absurd rfl (hobject members)
    | null | bool | integer | real | string | unreadable => exact hscalar
  | array items ih =>
    rw [isPlain_array, List.all_eq_true] at h
    exact lexesOnLine_array fun item hitem => ih item hitem (h item hitem)
  | object members ih =>
    rw [isPlain_object, List.all_eq_true] at h
    exact lexesOnLine_object fun m hm => ih m hm (h m hm)

/-- `read?` gives back a document from its `compact` text. -/
theorem read?_compact {d : Json} (hplain : d.isPlain = true) (hn : d.nesting ≤ maxNesting) :
    read? d.compact = some d := by
  refine read?_of_tokens? ?_ hn
  have hcut := lexesOnLine_of_isPlain hplain [] (by simp [Ends])
  simpa [tokens?] using hcut

end HeaderSurvey.Json
