import HeaderSurvey.Proofs.Naming
import HeaderSurvey.Proofs.Spacing
import HeaderSurvey.Survey.Places
import Mathlib.Data.List.DropRight

/-! Shortened paths. An include directory is taken out of a path wherever it stands, not only at the
front, and at any character. So what is left is the end of the path only if what stood before the
last match is, and its last part is that of the path only if no match reaches into it. -/
namespace HeaderSurvey

namespace Text

variable {c : Char} {pattern inserted s rest kept before : List Char} {pieces : List (List Char)}
  {marked : Char → Bool}

/-! ## Matches -/

/-- The matches of `pattern` in `s` from left to right: each of `pieces` is followed by the first
match from there on, and `rest` has none. -/
structure Matches (pattern s : List Char) (pieces : List (List Char)) (rest : List Char) :
    Prop where
  text : s = pieces.flatMap (· ++ pattern) ++ rest
  first : ∀ piece ∈ pieces, ∀ l r, piece ++ pattern = l ++ pattern ++ r → r = []
  last : ¬ pattern <:+: rest

theorem Matches.prepend (h : Matches pattern s pieces rest) :
    Matches pattern (pattern ++ s) ([] :: pieces) rest := by
  refine ⟨by simp [h.text], ?_, h.last⟩
  intro piece hpiece l r heq
  rcases List.mem_cons.1 hpiece with rfl | hpiece
  · have hlength := congrArg List.length heq
    simp only [List.nil_append, List.length_append] at hlength
    exact List.length_eq_zero_iff.1 (by omega)
  · exact h.first piece hpiece l r heq

private theorem Matches.skip (h : Matches pattern s pieces rest) (hc : ¬ pattern <+: c :: s) :
    ∃ pieces' rest', Matches pattern (c :: s) pieces' rest' ∧
      ∀ inserted, pieces'.flatMap (· ++ inserted) ++ rest' = c ::
        (pieces.flatMap (· ++ inserted) ++ rest) := by
  cases pieces with
  | nil =>
    refine ⟨[], c :: rest, ⟨by simp [h.text], by simp, ?_⟩, by simp⟩
    rw [List.infix_cons_iff, not_or]
    have htext : s = rest := by simpa using h.text
    exact ⟨htext ▸ hc, h.last⟩
  | cons piece pieces =>
    refine ⟨(c :: piece) :: pieces, rest, ⟨by simp [h.text], ?_, h.last⟩, by simp⟩
    intro piece' hpiece l r heq
    rcases List.mem_cons.1 hpiece with rfl | hpiece
    · cases l with
      | nil =>
        -- A match at the character itself.
        refine absurd ?_ hc
        rw [h.text, List.flatMap_cons, List.append_assoc, ← List.cons_append,
          ← List.cons_append, heq]
        simp
      | cons d l => exact h.first piece List.mem_cons_self l r (List.cons.inj heq).2
    · exact h.first piece' (List.mem_cons_of_mem piece hpiece) l r heq

private theorem replaceFrom_skip (c : Char) (pattern inserted s : List Char) (skip : Nat) :
    replaceFrom c pattern inserted skip s = replaceFrom c pattern inserted 0 (s.drop skip) := by
  induction skip generalizing s with
  | zero => rfl
  | succ skip ih =>
    cases s with
    | nil => simp [replaceFrom]
    | cons d s => exact ih s

/-- `replaceAll` puts what is `inserted` at the end of each piece of the `Matches`. -/
theorem exists_matches (hne : pattern ≠ []) (s : List Char) :
    ∃ pieces rest, Matches pattern s pieces rest ∧
    ∀ inserted, replaceAll pattern inserted s = pieces.flatMap (· ++ inserted) ++ rest := by
  obtain ⟨c, cs, rfl⟩ := List.exists_cons_of_ne_nil hne
  -- After a match the text goes on behind it, so the induction is on the length.
  induction hn : s.length using Nat.strongRecOn generalizing s with
  | ind n ih =>
    subst hn
    cases s with
    | nil => exact ⟨[], [], ⟨rfl, by simp, by simp⟩, fun _ => rfl⟩
    | cons d s =>
      by_cases hmatch : c :: cs <+: d :: s
      · obtain ⟨s', hs'⟩ := hmatch
        rw [List.cons_append] at hs'
        obtain ⟨rfl, rfl⟩ := List.cons.inj hs'
        have hshorter : s'.length < (c :: (cs ++ s')).length := by
          rw [List.length_cons, List.length_append]
          omega
        obtain ⟨pieces, rest, hmatches, hreplace⟩ := ih s'.length hshorter s' rfl
        refine ⟨[] :: pieces, rest, hmatches.prepend, fun inserted => ?_⟩
        have hprefix : (c :: cs).isPrefixOf (c :: (cs ++ s')) = true := by simp
        rw [List.flatMap_cons, List.append_assoc, ← hreplace, replaceAll, replaceFrom,
          if_pos hprefix, replaceFrom_skip, List.drop_left]
        rfl
      · obtain ⟨pieces, rest, hmatches, hreplace⟩ := ih s.length (by simp) s rfl
        obtain ⟨pieces', rest', hmatches', hpieces⟩ := hmatches.skip hmatch
        refine ⟨pieces', rest', hmatches', fun inserted => ?_⟩
        rw [hpieces, ← hreplace, replaceAll, replaceFrom, if_neg (by simpa using hmatch)]
        rfl

/-! ## Ends of a text -/

theorem rdropWhile_append (s rest : List Char) : (s ++ rest).rdropWhile marked =
    if rest.rdropWhile marked = [] then s.rdropWhile marked else s ++ rest.rdropWhile marked := by
  simp only [List.rdropWhile, List.reverse_append, List.dropWhile_append, List.isEmpty_iff,
    List.reverse_eq_nil_iff]
  split <;> simp

theorem rtakeWhile_append (s rest : List Char) : (s ++ rest).rtakeWhile marked =
    if rest.all marked then s.rtakeWhile marked ++ rest else rest.rtakeWhile marked := by
  simp only [List.rtakeWhile, List.reverse_append]
  split
  · next hall =>
    rw [List.takeWhile_append_of_pos (by simpa using hall)]
    simp
  · next hsome =>
    rw [List.takeWhile_append, if_neg]
    intro hlength
    have hall := List.takeWhile_eq_self_iff.1
      ( List.takeWhile_prefix marked |>.eq_of_length hlength)
    exact hsome (by simpa using hall)

theorem strip_eq (s : List Char) : strip marked s = (s.rdropWhile marked).dropWhile marked := by
  change (s.dropWhile marked).rdropWhile marked = _
  induction s with
  | nil => rfl
  | cons c s ih =>
    have hcons : ([c] ++ s).rdropWhile marked = _ := rdropWhile_append [c] s
    rw [List.singleton_append, List.rdropWhile_singleton, List.singleton_append] at hcons
    rw [hcons]
    by_cases hc : marked c = true
    · rw [List.dropWhile_cons_of_pos hc, ih]
      split
      · next hnil => simp [hnil]
      · rw [List.dropWhile_cons_of_pos hc]
    · rw [List.dropWhile_cons_of_neg hc, hcons]
      split <;> simp [hc]

private theorem strip_strip (s : List Char) : strip marked (strip marked s) = strip marked s := by
  calc strip marked (strip marked s)
      = ((s.rdropWhile marked).dropWhile marked |>.dropWhile marked).rdropWhile marked := by
        rw [strip_eq s]; rfl
    _ = strip marked (s.rdropWhile marked) := by rw [List.dropWhile_idempotent]; rfl
    _ = strip marked s := by rw [strip_eq, strip_eq, List.rdropWhile_idempotent]

theorem strip_append (h : ∃ c ∈ rest, marked c = false) (s : List Char) :
    strip marked (s ++ rest) = (s ++ rest.rdropWhile marked).dropWhile marked := by
  rw [strip_eq, rdropWhile_append, if_neg]
  rw [List.rdropWhile_eq_nil_iff]
  obtain ⟨c, hc, hmarked⟩ := h
  intro hall
  simp [hall c hc] at hmarked

theorem strip_suffix_iff (h : ∃ c ∈ rest, marked c = false) (hsub : kept ⊆ before) :
    strip marked (kept ++ rest) <:+ strip marked (before ++ rest) ↔
      kept.dropWhile marked <:+ before.dropWhile marked := by
  rw [strip_append h, strip_append h, List.dropWhile_append, List.dropWhile_append]
  by_cases hkept : kept.dropWhile marked = []
  · simp only [hkept, List.isEmpty_nil, if_true, List.nil_suffix, iff_true]
    split
    · exact List.suffix_rfl
    · exact (List.dropWhile_suffix marked).trans (List.suffix_append _ _)
  · have hbefore : ¬ before.dropWhile marked = [] := by
      rw [List.dropWhile_eq_nil_iff] at hkept ⊢
      exact fun hall => hkept fun c hc => hall c (hsub hc)
    rw [if_neg (by simpa using hkept), if_neg (by simpa using hbefore), List.suffix_append_self_iff]

theorem strip_suffix_of_marked (hkept : ∀ c ∈ kept, marked c = true) (hsub : kept ⊆ before)
    (rest : List Char) :
    strip marked (kept ++ rest) <:+ strip marked (before ++ rest) := by
  by_cases h : ∃ c ∈ rest, marked c = false
  · rw [strip_suffix_iff h hsub, List.dropWhile_eq_nil_iff.2 hkept]
    exact List.nil_suffix
  · have hall : ∀ c ∈ kept ++ rest, marked c = true := by
      intro c hc
      rcases List.mem_append.1 hc with hc | hc
      · exact hkept c hc
      · by_contra hmarked
        exact h ⟨c, hc, by simpa using hmarked⟩
    rw [strip_eq, List.rdropWhile_eq_nil_iff.2 hall]
    exact List.nil_suffix

theorem getLastD_cut (s : List Char) : (cut marked s).getLastD [] = s.rtakeWhile (!marked ·) := by
  -- The text is cut at its first separator, and what is behind that is shorter.
  induction hn : s.length using Nat.strongRecOn generalizing s with
  | ind n ih =>
    subst hn
    cases hfind : s.find? marked with
    | none =>
      have hfree : ∀ c ∈ s, marked c = false := by simpa using List.find?_eq_none.1 hfind
      rw [cut_of_free hfree, List.rtakeWhile_eq_self_iff.2 (by simpa using hfree)]
      rfl
    | some c =>
      obtain ⟨hc, l, t, rfl, hl⟩ := List.find?_eq_some_iff_append.1 hfind
      have hlast : (l :: cut marked t).getLastD [] = (cut marked t).getLastD [] := by
        obtain ⟨piece, pieces, ht⟩ := List.exists_cons_of_ne_nil (cut_ne_nil marked t)
        simp [ht]
      have hsplit : (l ++ c :: t).rtakeWhile (!marked ·) = t.rtakeWhile (!marked ·) := by
        rw [List.append_cons, rtakeWhile_append]
        split
        · next hall => simp [hc, List.rtakeWhile_eq_self_iff.2 (List.all_eq_true.1 hall)]
        · rfl
      rw [cut_append (by simpa using hl) hc, hlast, hsplit]
      exact ih t.length (by simp; omega) t rfl

theorem rtakeWhile_dropWhile (s : List Char) :
    (s.dropWhile marked).rtakeWhile (!marked ·) = s.rtakeWhile (!marked ·) := by
  induction s with
  | nil => rfl
  | cons c s ih =>
    by_cases hc : marked c = true
    · rw [List.dropWhile_cons_of_pos hc, ih, ← List.singleton_append, rtakeWhile_append]
      split
      · next hall =>
        rw [List.rtakeWhile_eq_self_iff.2 (List.all_eq_true.1 hall)]
        simp [List.rtakeWhile, hc]
      · rfl
    · rw [List.dropWhile_cons_of_neg hc]

/-- Two texts with the same `rest` have the same characters after the last marked one exactly if
`rest` has a marked one before its end, or if `kept` and `before` agree in them. -/
theorem rtakeWhile_strip_eq_iff (h : ∃ c ∈ rest, marked c = false) :
    (strip marked (kept ++ rest)).rtakeWhile (!marked ·) =
      (strip marked (before ++ rest)).rtakeWhile (!marked ·) ↔
      (∃ c ∈ rest.rdropWhile marked, marked c = true) ∨
        kept.rtakeWhile (!marked ·) = before.rtakeWhile (!marked ·) := by
  rw [strip_append h, strip_append h, rtakeWhile_dropWhile, rtakeWhile_dropWhile, rtakeWhile_append,
    rtakeWhile_append]
  by_cases hall : ∀ c ∈ rest.rdropWhile marked, (!marked c) = true
  · rw [if_pos (List.all_eq_true.2 hall), if_pos (List.all_eq_true.2 hall),
      List.append_cancel_right_eq]
    refine (or_iff_right ?_).symm
    rintro ⟨c, hc, hmarked⟩
    simpa [hmarked] using hall c hc
  · rw [if_neg (mt List.all_eq_true.1 hall), if_neg (mt List.all_eq_true.1 hall)]
    push Not at hall
    simpa using Or.inl hall

/-- The piece before the only match is an end of itself with the `pattern` only if it is an end of
that. -/
theorem Matches.suffix_iff {piece : List Char} (h : Matches pattern s [piece] rest)
    (hne : pattern ≠ []) :
    piece.dropWhile marked <:+ (piece ++ pattern).dropWhile marked ↔
    piece.dropWhile marked <:+ pattern := by
  rw [List.dropWhile_append]
  split
  · next hnil => simp [List.isEmpty_iff.1 hnil]
  · constructor
    · intro hsuffix
      rcases Nat.le_total (piece.dropWhile marked).length pattern.length with hle | hle
      · exact List.suffix_of_suffix_length_le hsuffix (List.suffix_append _ _) hle
      · -- The pattern would stand in the piece, before its first match.
        have hpattern := List.suffix_of_suffix_length_le (List.suffix_append _ _) hsuffix hle
        obtain ⟨l, hl⟩ := hpattern.trans (List.dropWhile_suffix marked)
        exact absurd (h.first piece (by simp) l pattern (by rw [hl])) hne
    · exact fun hsuffix => hsuffix.trans (List.suffix_append _ _)

end Text

namespace Places

variable {p : Places} {c : Cursor} {t : TypeEntry} {l : Location} {d path : String}

def trimmed (path : String) : List Char := Text.strip isSeparator path.toList

/-- What comes after the last separator. -/
def lastPart (s : List Char) : List Char := s.rtakeWhile (!isSeparator ·)

/-- The first of `includeDirectories` that stands in `path`. -/
def directoryIn? (p : Places) (path : String) : Option String :=
  p.includeDirectories.find? fun d => d != "" && Text.contains path d

private theorem toList_fileName (path : String) :
    (fileName path).toList = lastPart path.toList := by
  rw [fileName, String.toList_ofList, Text.getLastD_cut]
  rfl

private theorem remap_eq_self (h : ∀ link ∈ p.linkedPaths, Text.contains path link.part = false) :
    p.remap path = path := by
  have hnone : p.linkedPaths.find? (fun link => Text.contains path link.part) = none := by
    rw [List.find?_eq_none]
    intro link hlink
    simp [h link hlink]
  rw [remap, hnone]

theorem shorten_eq (hfull : p.fullPaths = false) :
    p.shorten path = (p.directoryIn? path).elim path (substitute · "" path) := by
  rw [shorten, hfull, if_neg (by simp)]
  unfold directoryIn?
  cases p.includeDirectories.find? fun d => d != "" && Text.contains path d <;> rfl

theorem locate_cases (h : p.locate c t = .ok l) : l = Location.none ∨
    l.filePath = p.shorten (p.remap (c.position.file.getD p.unitPath)) ∧
      l.fileName.toList = lastPart l.filePath.toList := by
  unfold locate at h
  split at h
  · exact Or.inl (Except.ok.inj h).symm
  · split at h
    · cases h
    · rw [← Except.ok.inj h]
      exact Or.inr ⟨rfl, toList_fileName _⟩

/-- `l` shows `path` without `directory`, which was taken out wherever it stood. Left of the path
are the `pieces` before the matches, and the `rest` behind the last one. -/
structure Shows (l : Location) (path : String) (directory : List Char) (pieces : List (List Char))
    (rest : List Char) : Prop where
  matched : Text.Matches directory path.toList pieces rest
  left : l.filePath.toList = Text.strip isSeparator (pieces.flatten ++ rest)
  /-- Without anything before the matches, an end of the path is left. -/
  front : (∀ c ∈ pieces.flatten, isSeparator c = true) → trimmed l.filePath <:+ trimmed path
  suffix_iff : (∃ c ∈ rest, isSeparator c = false) →
    (trimmed l.filePath <:+ trimmed path ↔ pieces.flatten.dropWhile isSeparator <:+
      (pieces.flatMap (· ++ directory)).dropWhile isSeparator)
  /-- With one match, what stands before it has to be an end of the directory. -/
  suffix_once_iff : ∀ piece, pieces = [piece] → (∃ c ∈ rest, isSeparator c = false) →
    (trimmed l.filePath <:+ trimmed path ↔ piece.dropWhile isSeparator <:+ directory)
  /-- The name of the file is untouched behind a separator; else it is what a match ends with that
  was left. -/
  name_iff : (∃ c ∈ rest, isSeparator c = false) → (l.fileName.toList = lastPart (trimmed path) ↔
    (∃ c ∈ rest.rdropWhile isSeparator, isSeparator c = true) ∨
      lastPart pieces.flatten = lastPart (pieces.flatMap (· ++ directory)))

/-- A directory is taken out of a path piece by piece. -/
theorem shows_substitute (hd : d ≠ "") (hfile : l.filePath = substitute d "" path)
    (hname : l.fileName.toList = lastPart l.filePath.toList) :
    ∃ pieces rest, Shows l path d.toList pieces rest := by
  have hne : d.toList ≠ [] := by simpa [String.toList_eq_nil_iff] using hd
  obtain ⟨pieces, rest, hmatches, hreplace⟩ := Text.exists_matches hne path.toList
  have hleft : l.filePath.toList = Text.strip isSeparator (pieces.flatten ++ rest) := by
    rw [hfile, substitute, String.toList_ofList, hreplace]
    simp [List.flatMap_id']
  have htrimmed : trimmed l.filePath = Text.strip isSeparator (pieces.flatten ++ rest) := by
    rw [trimmed, hleft, Text.strip_strip]
  have hwhole : trimmed path = Text.strip isSeparator (pieces.flatMap (· ++ d.toList) ++ rest) := by
    rw [trimmed, hmatches.text]
  have hsub : pieces.flatten ⊆ pieces.flatMap (· ++ d.toList) := by
    intro c hc
    obtain ⟨piece, hpiece, hmem⟩ := List.mem_flatten.1 hc
    exact List.mem_flatMap.2 ⟨piece, hpiece, List.mem_append_left _ hmem⟩
  refine ⟨pieces, rest, hmatches, hleft, ?_, ?_, ?_, ?_⟩
  · intro hkept
    rw [htrimmed, hwhole]
    exact Text.strip_suffix_of_marked hkept hsub rest
  · intro hrest
    rw [htrimmed, hwhole]
    exact Text.strip_suffix_iff hrest hsub
  · rintro piece rfl hrest
    rw [htrimmed, hwhole, Text.strip_suffix_iff hrest hsub]
    simpa using hmatches.suffix_iff hne
  · intro hrest
    rw [hname, hleft, hwhole]
    exact Text.rtakeWhile_strip_eq_iff hrest

/-- The `fileName` of a place is the last part of its `filePath`. That path is the one of the file
if none of `includeDirectories` stands in it. Otherwise the first one that does is taken out
wherever it `Matches`: what is left is an end of the path if nothing but separators comes before the
matches, and else only by chance; and a match that reaches into the last part of the path takes
something from the name. -/
theorem locate_shortened (p : Places) {c : Cursor} {t : TypeEntry} {l : Location} {path : String}
    (hpath : c.position.file.getD p.unitPath = path) (hfull : p.fullPaths = false)
    (hlinked : ∀ link ∈ p.linkedPaths, Text.contains path link.part = false)
    (hlocate : p.locate c t = .ok l) :
    l = Location.none ∨ l.fileName.toList = lastPart l.filePath.toList ∧
      ((∀ d ∈ p.includeDirectories, d = "" ∨ Text.contains path d = false) ∧ l.filePath = path ∨
        ∃ d pieces rest, p.directoryIn? path = some d ∧ Shows l path d.toList pieces rest) := by
  rcases locate_cases hlocate with hnone | ⟨hfile, hname⟩
  · exact Or.inl hnone
  refine Or.inr ⟨hname, ?_⟩
  rw [hpath, remap_eq_self hlinked, shorten_eq hfull] at hfile
  cases hd : p.directoryIn? path with
  | none =>
    rw [hd] at hfile
    refine Or.inl ⟨fun d hmem => ?_, hfile⟩
    have hnot := List.find?_eq_none.1 hd d hmem
    simpa [Classical.or_iff_not_imp_left] using hnot
  | some d =>
    rw [hd] at hfile
    have hne : d ≠ "" := by
      have hfound := List.find?_some hd
      simp only [Bool.and_eq_true, bne_iff_ne] at hfound
      exact hfound.1
    obtain ⟨pieces, rest, hshows⟩ := shows_substitute hne hfile hname
    exact Or.inr ⟨d, pieces, rest, rfl, hshows⟩

/-- A directory in the middle of a path, and one that ends in the middle of a name. -/
def shortenedPlaces : Places :=
  { unitPath := "src/include/lib.h", fullPaths := false,
    includeDirectories := ["", "include", "/src/lib"],
    linkedPaths := [⟨"/home/ci", "/build"⟩] }

def placedAt (file : String) : Cursor :=
  { kind := .structDecl, position := { file := some file, line := 1, column := 1 } }

theorem locate_shortenedPlaces :
    (∀ path ∈ ["src/include/lib.h", "/src/lib.h"], ∀ link ∈ shortenedPlaces.linkedPaths,
      Text.contains path link.part = false) ∧
    (shortenedPlaces.locate (placedAt "src/include/lib.h") { kind := .record } =
        .ok ⟨"lib.h", "src//lib.h", 1, 1⟩ ∧ ¬ trimmed "src//lib.h" <:+ trimmed "src/include/lib.h" ∧
      ∃ d pieces rest, shortenedPlaces.directoryIn? "src/include/lib.h" = some d ∧
        Shows ⟨"lib.h", "src//lib.h", 1, 1⟩ "src/include/lib.h" d.toList pieces rest) ∧
    (shortenedPlaces.locate (placedAt "/src/lib.h") { kind := .record } = .ok ⟨".h", ".h", 1, 1⟩ ∧
      lastPart (trimmed "/src/lib.h") = "lib.h".toList ∧
      ∃ d pieces rest, shortenedPlaces.directoryIn? "/src/lib.h" = some d ∧
        Shows ⟨".h", ".h", 1, 1⟩ "/src/lib.h" d.toList pieces rest) := by
  have hlinked : ∀ path ∈ ["src/include/lib.h", "/src/lib.h"], ∀ link ∈ shortenedPlaces.linkedPaths,
      Text.contains path link.part = false := by decide +kernel
  have hmiddle : shortenedPlaces.locate (placedAt "src/include/lib.h") { kind := .record } =
      .ok ⟨"lib.h", "src//lib.h", 1, 1⟩ := by decide +kernel
  have hpartial : shortenedPlaces.locate (placedAt "/src/lib.h") { kind := .record } =
      .ok ⟨".h", ".h", 1, 1⟩ := by decide +kernel
  have hpath {file : String} :
      (placedAt file).position.file.getD shortenedPlaces.unitPath = file := rfl
  refine ⟨hlinked, ⟨hmiddle, by decide +kernel, ?_⟩, ⟨hpartial, by decide +kernel, ?_⟩⟩
  · rcases locate_shortened shortenedPlaces hpath rfl (hlinked "src/include/lib.h" (by simp))
      hmiddle with
      hnone | ⟨-, ⟨-, hsame⟩ | hshows⟩
    · exact absurd hnone (by decide)
    · exact absurd hsame (by decide)
    · exact hshows
  · rcases locate_shortened shortenedPlaces hpath rfl (hlinked "/src/lib.h" (by simp)) hpartial with
      hnone | ⟨-, ⟨-, hsame⟩ | hshows⟩
    · exact absurd hnone (by decide)
    · exact absurd hsame (by decide)
    · exact hshows

end Places
end HeaderSurvey
