import HeaderSurvey.Survey.Context

/-! Spellings and names. A plain identifier is its own name, and that of any type which is spelled
as a tag word followed by it. -/
namespace HeaderSurvey

namespace Text

theorem cut_eq_splitOnP (separator : Char → Bool) (s : List Char) :
    cut separator s = s.splitOnP separator := by
  induction s with
  | nil => rfl
  | cons c s ih =>
    obtain ⟨piece, pieces, hpieces⟩ := List.exists_cons_of_ne_nil (cut_ne_nil separator s)
    rw [cut, List.splitOnP_cons_eq_if_modifyHead, ← ih, hpieces, List.modifyHead_cons]

theorem cut_of_free {separator : Char → Bool} {s : List Char} (h : ∀ c ∈ s, separator c = false) :
    cut separator s = [s] := by
  rw [cut_eq_splitOnP, List.splitOnP_eq_singleton h]

theorem cut_append {separator : Char → Bool} {s : List Char} {c : Char}
    (h : ∀ d ∈ s, separator d = false) (hc : separator c = true) (rest : List Char) :
    cut separator (s ++ c :: rest) = s :: cut separator rest := by
  rw [cut_eq_splitOnP, cut_eq_splitOnP, List.splitOnP_append_cons_of_forall_mem h c hc]

theorem free_of_mem_cut {separator : Char → Bool} {s piece : List Char} {d : Char}
    (h : piece ∈ cut separator s) (hd : d ∈ piece) : separator d = false := by
  induction s generalizing piece with
  | nil => simp_all [cut]
  | cons c s ih =>
    obtain ⟨first, rest, hcut⟩ := List.exists_cons_of_ne_nil (cut_ne_nil separator s)
    rw [hcut] at ih
    rw [cut, hcut] at h
    split at h
    · rcases List.mem_cons.1 h with rfl | h
      · cases hd
      · exact ih h hd
    · next hc =>
      rcases List.mem_cons.1 h with rfl | h
      · rcases List.mem_cons.1 hd with rfl | hd
        · simpa using hc
        · exact ih List.mem_cons_self hd
      · exact ih (List.mem_cons_of_mem first h) hd

theorem mem_cut_iff {separator : Char → Bool} {c : Char} (hc : separator c = false)
    (s : List Char) :
    (∃ piece ∈ cut separator s, c ∈ piece) ↔ c ∈ s := by
  induction s with
  | nil => simp [cut]
  | cons d s ih =>
    rw [cut]
    split
    · next hd =>
      have hne : c ≠ d := by
        rintro rfl
        simp [hc] at hd
      simp [ih, hne]
    · obtain ⟨piece, pieces, hpieces⟩ := List.exists_cons_of_ne_nil (cut_ne_nil separator s)
      rw [hpieces] at ih ⊢
      simp only [List.mem_cons, exists_eq_or_imp] at ih ⊢
      rw [or_assoc, ih]

theorem mem_join_iff {separator : String} {c : Char} (hc : c ∉ separator.toList)
    (words : List String) :
    c ∈ (join separator words).toList ↔ ∃ word ∈ words, c ∈ word.toList := by
  induction words with
  | nil => simp [join]
  | cons word words ih =>
    cases words with
    | nil => simp [join]
    | cons next words =>
      rw [join, String.toList_append, String.toList_append, List.mem_append, List.mem_append, ih]
      simp [hc]

theorem pieces_ne_nil (c : Char) (s : String) : pieces c s ≠ [] := by
  simpa [pieces] using cut_ne_nil (· == c) s.toList

theorem not_mem_of_mem_pieces {c : Char} {s piece : String} (h : piece ∈ pieces c s) :
    c ∉ piece.toList := by
  intro hc
  obtain ⟨cs, hcs, rfl⟩ := List.mem_map.1 h
  have hseparator := free_of_mem_cut hcs (String.toList_ofList ▸ hc)
  simp at hseparator

private theorem toList_join (separator : String) (words : List String) :
    (join separator words).toList = separator.toList.intercalate (words.map String.toList) := by
  induction words with
  | nil => simp [join]
  | cons word words ih =>
    cases words with
    | nil => simp [join]
    | cons next words =>
      rw [join, String.toList_append, String.toList_append, ih]
      exact List.intercalate_cons_cons.symm

/-- `join` undoes `pieces`. -/
theorem join_pieces {separator : String} {c : Char} (h : separator.toList = [c]) (s : String) :
    join separator (pieces c s) = s := by
  have hlists : (pieces c s).map String.toList = s.toList.splitOn c := by
    rw [pieces, cut_eq_splitOnP, List.map_map, List.splitOn]
    exact (List.map_congr_left fun cs _ => String.toList_ofList).trans (List.map_id' _)
  rw [← String.toList_inj, toList_join, h, hlists, List.intercalate_splitOn]

/-- `pieces` undoes `join`, for words without the separator. -/
theorem pieces_join {separator : String} {c : Char} (h : separator.toList = [c])
    {words : List String} (hne : words ≠ []) (hfree : ∀ word ∈ words, c ∉ word.toList) :
    pieces c (join separator words) = words := by
  have hsplit : (join separator words).toList.splitOn c = words.map String.toList := by
    rw [toList_join, h, List.splitOn_intercalate c (by simpa using hfree) (by simpa using hne)]
  rw [List.splitOn] at hsplit
  rw [pieces, cut_eq_splitOnP, hsplit, List.map_map]
  exact (List.map_congr_left fun word _ => String.ofList_toList).trans (List.map_id' _)

theorem occurs_eq_false {p : Char} {pattern s : List Char} (h : p ∉ s) :
    occurs (p :: pattern) s = false := by
  induction s with
  | nil => rfl
  | cons c cs ih =>
    obtain ⟨hc, hcs⟩ := not_or.1 (mt List.mem_cons.2 h)
    rw [occurs, ih hcs]
    simp [List.isPrefixOf, hc]

end Text

/-- A name that can be declared in C: a word of letters, digits and underscores that does not begin
with a digit and is none of `tagWords`. -/
def isPlainName (name : String) : Bool :=
  name.toList.all (fun c => c.isAlphanum || c == '_') &&
    name.toList.head?.any (fun c => !c.isDigit) &&
    !tagWords.contains name

theorem free_of_isPlainName {name : String} (h : isPlainName name = true) {c : Char}
    (hc : c ∈ name.toList) : c ≠ ' ' ∧ c ≠ '(' := by
  simp only [isPlainName, Bool.and_eq_true, List.all_eq_true] at h
  have hword := h.1.1 c hc
  constructor <;>
  · rintro rfl
    revert hword
    decide

theorem free_of_tagWord {tag : String} (h : tag ∈ tagWords) {c : Char} (hc : c ∈ tag.toList) :
    c ≠ ' ' ∧ c ≠ '(' := by
  have hall : ∀ tag ∈ tagWords, tag.toList.all (fun c => c != ' ' && c != '(') = true := by
    decide +kernel
  simpa using List.all_eq_true.1 (hall tag h) c hc

theorem not_tag_of_isPlainName {name : String} (h : isPlainName name = true) :
    tagWords.contains name = false := by
  simp only [isPlainName, Bool.and_eq_true, Bool.not_eq_true'] at h
  exact h.2

theorem stripTags_plain {name : String} (h : isPlainName name = true) : stripTags name = name := by
  have hpieces : Text.pieces ' ' name = [name] := by
    rw [Text.pieces, Text.cut_of_free fun c hc => by simpa using (free_of_isPlainName h hc).1]
    simp
  rw [stripTags, hpieces]
  simp only [List.filter_cons, not_tag_of_isPlainName h, Bool.not_false, if_true, List.filter_nil]
  rfl

theorem stripTags_tagged {tag name : String} (ht : tag ∈ tagWords) (h : isPlainName name = true) :
    stripTags (tag ++ " " ++ name) = name := by
  have htag : ∀ c ∈ tag.toList, (c == ' ') = false := by
    intro c hc
    simpa using (free_of_tagWord ht hc).1
  have hpieces : Text.pieces ' ' (tag ++ " " ++ name) = [tag, name] := by
    have hlist : (tag ++ " " ++ name).toList = tag.toList ++ ' ' :: name.toList := by simp
    rw [Text.pieces, hlist, Text.cut_append htag rfl,
      Text.cut_of_free fun c hc => by simpa using (free_of_isPlainName h hc).1]
    simp
  have htag' : tagWords.contains tag = true := List.contains_iff_mem.2 ht
  rw [stripTags, hpieces]
  simp only [List.filter_cons, htag', not_tag_of_isPlainName h, Bool.not_false, Bool.not_true,
    if_true, Bool.false_eq_true, if_false, List.filter_nil]
  rfl

/-- `stripTags` takes away blanks and characters of `tagWords` only. -/
theorem mem_stripTags_iff {c : Char} (hblank : c ≠ ' ') (htags : ∀ tag ∈ tagWords, c ∉ tag.toList)
    (spelling : String) : c ∈ (stripTags spelling).toList ↔ c ∈ spelling.toList := by
  have hcut : (∃ piece ∈ Text.cut (· == ' ') spelling.toList, c ∈ piece) ↔ c ∈ spelling.toList :=
    Text.mem_cut_iff (by simpa using hblank) _
  rw [stripTags, Text.mem_join_iff (by simpa using hblank), ← hcut, Text.pieces]
  constructor
  · rintro ⟨word, hword, hc⟩
    obtain ⟨piece, hpiece, rfl⟩ := List.mem_map.1 (List.mem_filter.1 hword).1
    exact ⟨piece, hpiece, by simpa using hc⟩
  · rintro ⟨piece, hpiece, hc⟩
    have hword : ¬ String.ofList piece ∈ tagWords := fun htag => htags _ htag (by simpa using hc)
    refine ⟨String.ofList piece, List.mem_filter.2 ⟨List.mem_map_of_mem hpiece, ?_⟩,
      by simpa using hc⟩
    simpa using hword

theorem insertDimension_ne_empty {dimension : String} (h : dimension ≠ "") (base : String) :
    insertDimension dimension base ≠ "" := by
  intro hempty
  refine h (String.toList_eq_nil_iff.1 ?_)
  have hnil := String.toList_eq_nil_iff.2 hempty
  simp only [insertDimension, String.toList_ofList, List.append_eq_nil_iff] at hnil
  exact hnil.1.2

theorem Marker.name_ne_empty (m : Marker) (parent : String) (index : Nat) :
    m.name parent index ≠ "" := by
  cases m <;> simp [name, text]

theorem not_unnamed_of_free {spelling : String} (h : '(' ∉ spelling.toList) :
    Text.contains spelling "(unnamed at " = false := by
  rw [Text.contains, show "(unnamed at ".toList = '(' :: "unnamed at ".toList from by simp]
  exact Text.occurs_eq_false h

end HeaderSurvey
