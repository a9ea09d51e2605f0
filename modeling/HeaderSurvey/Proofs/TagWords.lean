import HeaderSurvey.Proofs.Dimensions

/-! Tag words in names. A name is a spelling without the tag words that stand alone between blanks,
so a tag word stays in it wherever another sign stands right before or after. How the spellings of
types are composed decides whether that happens: blanks and commas bring nothing together, an
opening bracket does. -/
namespace HeaderSurvey

namespace Text

def isWordChar (c : Char) : Bool := c.isAlphanum || c == '_'

/-- The longest runs of characters with `isWordChar`, and empty ones between neighbours that are
none. -/
def words (s : String) : List String := (cut (fun c => !isWordChar c) s.toList).map String.ofList

def separates (p : String) : Bool := p ≠ "" && p.toList.all fun c => !isWordChar c

/-- A text of other signs than blanks. -/
def isSign (p : String) : Bool := separates p && p.toList.all (· ≠ ' ')

theorem separates_of_isSign {p : String} (h : isSign p = true) : separates p = true :=
  (Bool.and_eq_true_iff.1 h).1

theorem blank_not_mem_of_isSign {p : String} (h : isSign p = true) : ' ' ∉ p.toList := by
  intro hblank
  simpa using List.all_eq_true.1 (Bool.and_eq_true_iff.1 h).2 ' ' hblank

private theorem cut_append_separator {separator : Char → Bool} {c : Char} (hc : separator c = true)
    (s rest : List Char) :
    cut separator (s ++ c :: rest) = cut separator s ++ cut separator rest := by
  simp only [cut_eq_splitOnP, List.splitOnP_append_cons s rest hc]

theorem exists_cut_prepend {separator : Char → Bool} {t : List Char}
    (ht : ∀ c ∈ t, separator c = false) (s : List Char) :
    ∃ first rest, cut separator s = first :: rest ∧
      cut separator (t ++ s) = (t ++ first) :: rest := by
  obtain ⟨first, rest, hcut⟩ := List.exists_cons_of_ne_nil (cut_ne_nil separator s)
  refine ⟨first, rest, hcut, ?_⟩
  induction t with
  | nil => exact hcut
  | cons c t ih =>
    rw [List.cons_append, cut, ih fun d hd => ht d (List.mem_cons_of_mem c hd)]
    simp [ht c List.mem_cons_self]

theorem pieces_blank (s t : String) :
    pieces ' ' (s ++ " " ++ t) = pieces ' ' s ++ pieces ' ' t := by
  have hlist : (s ++ " " ++ t).toList = s.toList ++ ' ' :: t.toList := by simp
  rw [pieces, hlist, cut_append_separator rfl, List.map_append]
  rfl

private theorem exists_pieces_prepend {t : String} (ht : ' ' ∉ t.toList) (s : String) :
    ∃ first rest, pieces ' ' s = first :: rest ∧ pieces ' ' (t ++ s) = (t ++ first) :: rest := by
  have hfree : ∀ c ∈ t.toList, (c == ' ') = false := by
    intro c hc
    simpa using fun heq : c = ' ' => ht (heq ▸ hc)
  obtain ⟨first, rest, hcut, hlonger⟩ := exists_cut_prepend hfree s.toList
  refine ⟨String.ofList first, rest.map String.ofList, by simp [pieces, hcut], ?_⟩
  rw [pieces, String.toList_append, hlonger]
  simp

theorem exists_replaceFirst {pattern : List Char} (hpattern : pattern ≠ [])
    (inserted s : List Char) :
    replaceFirst pattern inserted s = s ∨
      ∃ before after, s = before ++ pattern ++ after ∧
        replaceFirst pattern inserted s = before ++ inserted ++ after := by
  induction s with
  | nil => exact Or.inl (by simp [replaceFirst, hpattern])
  | cons c s ih =>
    rw [replaceFirst]
    split
    · next hfound =>
      obtain ⟨after, hafter⟩ := List.isPrefixOf_iff_prefix.1 hfound
      refine Or.inr ⟨[], after, hafter.symm, ?_⟩
      rw [← hafter, List.drop_left]
      rfl
    · rcases ih with hsame | ⟨before, after, hs, hreplaced⟩
      · exact Or.inl (by rw [hsame])
      · exact Or.inr ⟨c :: before, after, by rw [hs]; rfl, by rw [hreplaced]; rfl⟩

end Text

/-! ## Tag words as words, and as pieces between blanks -/

section Words

variable {p s t : String}

/-- Whether one of `tagWords` is among the `words` of a text. -/
def hasTagWord (s : String) : Bool := (Text.words s).any tagWords.contains

def startsInTag (spelling : String) : Bool := (Text.pieces ' ' spelling).head?.any tagWords.contains

theorem hasTagWord_tagWord : ∀ tag ∈ tagWords, hasTagWord tag = true := by decide +kernel

theorem hasTagWord_of_free (h : 'u' ∉ s.toList) : hasTagWord s = false := by
  rw [← Bool.not_eq_true, hasTagWord, List.any_eq_true]
  rintro ⟨word, hword, htag⟩
  have hletter : ∀ tag ∈ tagWords, 'u' ∈ tag.toList := by decide +kernel
  obtain ⟨run, hrun, rfl⟩ := List.mem_map.1 hword
  have hu := hletter _ (List.contains_iff_mem.1 htag)
  exact h ((Text.mem_cut_iff (by decide) _).1 ⟨run, hrun, by simpa using hu⟩)

@[simp] theorem hasTagWord_empty : hasTagWord "" = false := hasTagWord_of_free (by simp)

private theorem hasTagWord_cons {c : Char} (hc : Text.isWordChar c = false) (s : String)
    (rest : List Char) :
    hasTagWord (s ++ String.ofList (c :: rest)) =
      (hasTagWord s || hasTagWord (String.ofList rest)) := by
  have hlist : (s ++ String.ofList (c :: rest)).toList = s.toList ++ c :: rest := by simp
  have hwords : Text.words (s ++ String.ofList (c :: rest)) = Text.words s ++
      Text.words (String.ofList rest) := by
    rw [Text.words, hlist, Text.cut_append_separator (by simp [hc]), List.map_append]
    simp [Text.words]
  rw [hasTagWord, hwords, List.any_append]
  rfl

theorem hasTagWord_skip {signs : List Char} (h : ∀ c ∈ signs, Text.isWordChar c = false)
    (rest : List Char) :
    hasTagWord (String.ofList (signs ++ rest)) = hasTagWord (String.ofList rest) := by
  induction signs with
  | nil => rfl
  | cons c signs ih =>
    have hfirst := hasTagWord_cons (h c List.mem_cons_self) "" (signs ++ rest)
    rw [String.empty_append, hasTagWord_empty, Bool.false_or] at hfirst
    exact hfirst.trans (ih fun d hd => h d (List.mem_cons_of_mem c hd))

theorem hasTagWord_append (hp : Text.separates p = true) (s t : String) :
    hasTagWord (s ++ p ++ t) = (hasTagWord s || hasTagWord t) := by
  simp only [Text.separates, Bool.and_eq_true, decide_eq_true_eq, List.all_eq_true,
    Bool.not_eq_true'] at hp
  obtain ⟨c, cs, hcons⟩ := List.exists_cons_of_ne_nil (by simpa using hp.1 : p.toList ≠ [])
  have hsigns : ∀ d ∈ c :: cs, Text.isWordChar d = false := hcons ▸ hp.2
  have hspelled : s ++ p ++ t = s ++ String.ofList (c :: (cs ++ t.toList)) := by
    rw [← String.toList_inj]
    simp [hcons]
  rw [hspelled, hasTagWord_cons (hsigns c List.mem_cons_self),
    hasTagWord_skip fun d hd => hsigns d (List.mem_cons_of_mem c hd), String.ofList_toList]

private theorem hasTagWord_join (words : List String) :
    hasTagWord (Text.join " " words) = true ↔ ∃ word ∈ words, hasTagWord word = true := by
  induction words with
  | nil => simp [Text.join, hasTagWord_of_free]
  | cons word words ih =>
    cases words with
    | nil => simp [Text.join]
    | cons next words =>
      rw [Text.join, hasTagWord_append (by decide), Bool.or_eq_true, ih]
      simp

private theorem hasTagWord_iff (s : String) :
    hasTagWord s = true ↔ ∃ piece ∈ Text.pieces ' ' s, hasTagWord piece = true := by
  rw [← hasTagWord_join, Text.join_pieces (by simp)]

/-- `stripTags` takes away the `pieces` that are tag words, and leaves the words in others. -/
theorem hasTagWord_stripTags (s : String) : hasTagWord (stripTags s) = true ↔
    ∃ piece ∈ Text.pieces ' ' s, piece ∉ tagWords ∧ hasTagWord piece = true := by
  rw [stripTags, hasTagWord_join]
  simp only [List.mem_filter, Bool.not_eq_true', and_assoc]
  have hcontains : ∀ word, tagWords.contains word = false ↔ word ∉ tagWords := by
    intro word
    rw [← Bool.not_eq_true, List.contains_iff_mem]
  simp only [hcontains]

theorem plain_of_hasTagWord (h : hasTagWord s = false) :
    hasTagWord (stripTags s) = false ∧ startsInTag s = false ∧ endsInTag s = false := by
  have hpieces : ∀ piece ∈ Text.pieces ' ' s, hasTagWord piece = false := by
    intro piece hpiece
    rw [← Bool.not_eq_true] at h ⊢
    exact fun htag => h ((hasTagWord_iff s).2 ⟨piece, hpiece, htag⟩)
  have hnone : ∀ piece ∈ Text.pieces ' ' s, tagWords.contains piece = false := by
    intro piece hpiece
    rw [← Bool.not_eq_true, List.contains_iff_mem]
    intro htag
    exact absurd (hpieces piece hpiece) (by simp [hasTagWord_tagWord piece htag])
  refine ⟨?_, ?_, ?_⟩
  · rw [← Bool.not_eq_true, hasTagWord_stripTags]
    rintro ⟨piece, hpiece, -, htag⟩
    simp [hpieces piece hpiece] at htag
  · rw [startsInTag, Option.any_eq_false]
    exact fun piece hpiece => by simpa using hnone piece (List.mem_of_head? hpiece)
  · rw [endsInTag, Option.any_eq_false]
    exact fun piece hpiece => by simpa using hnone piece (List.mem_of_getLast? hpiece)

/-! ## Composing spellings -/

theorem separates_not_tag (hp : Text.separates p = true) (s t : String) :
    s ++ p ++ t ∉ tagWords := by
  have hletters : ∀ tag ∈ tagWords, tag.toList.all Text.isWordChar = true := by decide +kernel
  simp only [Text.separates, Bool.and_eq_true, decide_eq_true_eq, List.all_eq_true,
    Bool.not_eq_true'] at hp
  obtain ⟨c, cs, hcons⟩ := List.exists_cons_of_ne_nil (by simpa using hp.1 : p.toList ≠ [])
  intro htag
  have hword := List.all_eq_true.1 (hletters _ htag) c (by simp [hcons])
  rw [hp.2 c (by simp [hcons])] at hword
  cases hword

theorem hasTagWord_stripTags_blank (s t : String) : hasTagWord (stripTags (s ++ " " ++ t)) =
    (hasTagWord (stripTags s) || hasTagWord (stripTags t)) := by
  rw [Bool.eq_iff_iff, Bool.or_eq_true, hasTagWord_stripTags, hasTagWord_stripTags,
    hasTagWord_stripTags, Text.pieces_blank]
  simp only [List.mem_append, or_and_right, exists_or]

private theorem startsInTag_blank (s t : String) : startsInTag (s ++ " " ++ t) = startsInTag s := by
  obtain ⟨first, rest, hpieces⟩ := List.exists_cons_of_ne_nil (Text.pieces_ne_nil ' ' s)
  rw [startsInTag, startsInTag, Text.pieces_blank, hpieces]
  rfl

theorem endsInTag_blank (s t : String) : endsInTag (s ++ " " ++ t) = endsInTag t := by
  rw [endsInTag, endsInTag, Text.pieces_blank,
    List.getLast?_append_of_ne_nil _ (Text.pieces_ne_nil ' ' t)]

/-- A sign right before a spelling keeps a tag word at its beginning from `stripTags`. -/
theorem hasTagWord_stripTags_prepend (hp : Text.isSign p = true) (s : String) :
    hasTagWord (stripTags (p ++ s)) = (startsInTag s || hasTagWord (stripTags s)) := by
  obtain ⟨first, rest, hpieces, hlonger⟩ :=
    Text.exists_pieces_prepend (Text.blank_not_mem_of_isSign hp) s
  have hnot : p ++ first ∉ tagWords := by
    simpa using separates_not_tag (Text.separates_of_isSign hp) "" first
  have hsame : hasTagWord (p ++ first) = hasTagWord first := by
    simpa using hasTagWord_append (Text.separates_of_isSign hp) "" first
  have hfirst : startsInTag s = true ↔ first ∈ tagWords := by
    rw [startsInTag, hpieces]
    exact List.contains_iff_mem
  rw [Bool.eq_iff_iff, Bool.or_eq_true, hasTagWord_stripTags, hasTagWord_stripTags, hpieces,
    hlonger, hfirst]
  simp only [List.mem_cons, exists_eq_or_imp, hnot, hsame, not_false_eq_true, true_and]
  by_cases htag : first ∈ tagWords
  · simp [htag, hasTagWord_tagWord first htag]
  · simp [htag]

private theorem exists_pieces_sign (hp : Text.isSign p = true) (hblank : ' ' ∉ t.toList)
    (s : String) :
    ∃ front last, Text.pieces ' ' s = front ++ [last] ∧
      Text.pieces ' ' (s ++ p ++ t) = front ++ [last ++ p ++ t] := by
  have hfree : ' ' ∉ (p ++ t).toList := by
    simpa [String.toList_append] using ⟨Text.blank_not_mem_of_isSign hp, hblank⟩
  obtain ⟨front, last, hpieces, hlonger⟩ := Text.exists_pieces_append hfree s
  rw [← String.append_assoc, ← String.append_assoc] at hlonger
  exact ⟨front, last, hpieces, hlonger⟩

/-- A sign right after a spelling keeps a tag word at its end from `stripTags`. -/
theorem hasTagWord_stripTags_append (hp : Text.isSign p = true) (hblank : ' ' ∉ t.toList)
    (ht : hasTagWord t = false) (s : String) :
    hasTagWord (stripTags (s ++ p ++ t)) = (hasTagWord (stripTags s) || endsInTag s) := by
  obtain ⟨front, last, hpieces, hlonger⟩ := exists_pieces_sign hp hblank s
  have hnot := separates_not_tag (Text.separates_of_isSign hp) last t
  have hsame : hasTagWord (last ++ p ++ t) = hasTagWord last := by
    rw [hasTagWord_append (Text.separates_of_isSign hp), ht, Bool.or_false]
  have hlast : endsInTag s = true ↔ last ∈ tagWords := by
    rw [endsInTag, hpieces, List.getLast?_concat]
    exact List.contains_iff_mem
  rw [Bool.eq_iff_iff, Bool.or_eq_true, hasTagWord_stripTags, hasTagWord_stripTags, hpieces,
    hlonger, hlast]
  simp only [List.mem_append, List.mem_singleton, or_and_right, exists_or, exists_eq_left,
    hnot, hsame, not_false_eq_true, true_and]
  by_cases htag : last ∈ tagWords
  · simp [htag, hasTagWord_tagWord last htag]
  · simp [htag]

theorem endsInTag_append (hp : Text.isSign p = true) (hblank : ' ' ∉ t.toList) (s : String) :
    endsInTag (s ++ p ++ t) = false := by
  obtain ⟨front, last, -, hlonger⟩ := exists_pieces_sign hp hblank s
  rw [endsInTag, hlonger, List.getLast?_concat, ← Bool.not_eq_true]
  exact fun htag => separates_not_tag (Text.separates_of_isSign hp) last t
    (List.contains_iff_mem.1 htag)

theorem signed (hp : Text.isSign p = true) (s : String) :
    hasTagWord (stripTags (s ++ p)) = (hasTagWord (stripTags s) || endsInTag s) ∧
    endsInTag (s ++ p) = false := by
  have hleft := hasTagWord_stripTags_append hp (t := "") (by simp) hasTagWord_empty s
  have hends := endsInTag_append hp (t := "") (by simp) s
  rw [String.append_empty] at hleft hends
  exact ⟨hleft, hends⟩

private theorem endsInTag_prepend (hp : Text.isSign p = true) (h : endsInTag s = false) :
    endsInTag (p ++ s) = false := by
  obtain ⟨first, rest, hpieces, hlonger⟩ :=
    Text.exists_pieces_prepend (Text.blank_not_mem_of_isSign hp) s
  have hnot : p ++ first ∉ tagWords := by
    simpa using separates_not_tag (Text.separates_of_isSign hp) "" first
  rw [endsInTag, hpieces] at h
  rw [endsInTag, hlonger]
  cases rest with
  | nil => simpa using hnot
  | cons next rest => simpa using h

theorem startsInTag_append (hp : Text.isSign p = true) (h : endsInTag s = false) :
    startsInTag (s ++ p) = startsInTag s := by
  obtain ⟨front, last, hpieces, hlonger⟩ :=
    Text.exists_pieces_append (Text.blank_not_mem_of_isSign hp) s
  have hnot : last ++ p ∉ tagWords := by
    simpa using separates_not_tag (Text.separates_of_isSign hp) last ""
  rw [endsInTag, hpieces, List.getLast?_concat] at h
  rw [startsInTag, startsInTag, hpieces, hlonger]
  cases front with
  | nil =>
    have hlast : last ∉ tagWords := by simpa using h
    simp [hnot, hlast]
  | cons first front => rfl

theorem join_arguments {parts : List String} (h : ∀ part ∈ parts, endsInTag part = false) :
    hasTagWord (stripTags (Text.join ", " parts)) =
      (parts.any fun part => hasTagWord (stripTags part)) ∧
      startsInTag (Text.join ", " parts) = parts.head?.any startsInTag ∧
      endsInTag (Text.join ", " parts) = false := by
  induction parts with
  | nil => exact ⟨rfl, rfl, rfl⟩
  | cons part parts ih =>
    have hpart := h part List.mem_cons_self
    cases parts with
    | nil => simp [Text.join, hpart]
    | cons next parts =>
      obtain ⟨hleft, -, hends⟩ := ih fun part' hpart' => h part' (List.mem_cons_of_mem part hpart')
      have hcomma : Text.isSign "," = true := by decide
      have hjoin : Text.join ", " (part :: next :: parts) =
          part ++ "," ++ " " ++ Text.join ", " (next :: parts) := by
        rw [Text.join, show ", " = "," ++ " " from rfl, ← String.append_assoc]
      rw [hjoin, hasTagWord_stripTags_blank, startsInTag_blank, endsInTag_blank,
        (signed hcomma part).1, hpart, hleft, startsInTag_append hcomma hpart]
      simp [hends]

/-- The opening bracket keeps a tag word at the beginning of the arguments from `stripTags`. -/
theorem bracketed_arguments (result : String) {parts : List String}
    (hparts : ∀ part ∈ parts, endsInTag part = false) :
    hasTagWord (stripTags (result ++ " (" ++ Text.join ", " parts ++ ")")) =
        ((result :: parts).any (fun part => hasTagWord (stripTags part)) ||
          parts.head?.any startsInTag) ∧
      endsInTag (result ++ " (" ++ Text.join ", " parts ++ ")") = false := by
  obtain ⟨hleft, hstarts, hends⟩ := join_arguments hparts
  have hopening : Text.isSign "(" = true := by decide
  have hclosing : Text.isSign ")" = true := by decide
  refine ⟨?_, (signed hclosing _).2⟩
  have hspelled : result ++ " (" ++ Text.join ", " parts ++ ")" =
      result ++ " " ++ ("(" ++ (Text.join ", " parts ++ ")")) := by
    rw [show " (" = " " ++ "(" from rfl]
    simp only [String.append_assoc]
  rw [hspelled, hasTagWord_stripTags_blank, hasTagWord_stripTags_prepend hopening,
    (signed hclosing _).1, hends, Bool.or_false, hleft, startsInTag_append hclosing hends, hstarts,
    List.any_cons, Bool.or_assoc,
    Bool.or_comm (parts.head?.any startsInTag)]

theorem starred_brackets (s : String) (h : endsInTag s = false) :
    hasTagWord (stripTags (String.ofList (Text.replaceFirst " (".toList " (*)(".toList s.toList))) =
        hasTagWord (stripTags s) ∧
      endsInTag (String.ofList (Text.replaceFirst " (".toList " (*)(".toList s.toList)) =
        false := by
  rcases Text.exists_replaceFirst (by simp : " (".toList ≠ []) " (*)(".toList s.toList with
    hsame | ⟨before, after, hs, hreplaced⟩
  · rw [hsame, String.ofList_toList]
    exact ⟨rfl, h⟩
  · have hopening : Text.isSign "(" = true := by decide
    have hstarred : Text.isSign "(*)(" = true := by decide
    have hold : s = String.ofList before ++ " " ++ ("(" ++ String.ofList after) := by
      rw [← String.toList_inj, hs]
      simp
    have hnew : String.ofList (before ++ " (*)(".toList ++ after) =
        String.ofList before ++ " " ++ ("(*)(" ++ String.ofList after) := by
      rw [← String.toList_inj]
      simp
    rw [hreplaced, hnew, hold, hasTagWord_stripTags_blank, hasTagWord_stripTags_blank,
      hasTagWord_stripTags_prepend hopening, hasTagWord_stripTags_prepend hstarred, endsInTag_blank]
    refine ⟨rfl, ?_⟩
    rw [hold, endsInTag_blank] at h
    rw [show "(*)(" = "(*)" ++ "(" from rfl, String.append_assoc]
    exact endsInTag_prepend (by decide) h

end Words

end HeaderSurvey
