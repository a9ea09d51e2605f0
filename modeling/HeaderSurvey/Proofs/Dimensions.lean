import HeaderSurvey.Proofs.PointerAliases
import HeaderSurvey.Proofs.Spacing

/-! Names of arrays of arrays. The spelling of an array is that of its elements with the dimension
at the end, and its name has the dimension in front of those of the elements. So the name of an
array has its own dimension first, after the name of the innermost elements, and then the others in
reverse. -/
namespace HeaderSurvey

namespace Text

variable {separator : Char → Bool} {s t pattern : List Char} {c : Char}

theorem exists_cut_append (separator : Char → Bool) (s : List Char) : ∃ front last,
    ∀ t, (∀ c ∈ t, separator c = false) → cut separator (s ++ t) = front ++ [last ++ t] := by
  induction s with
  | nil => exact ⟨[], [], fun t ht => cut_of_free ht⟩
  | cons c s ih =>
    obtain ⟨front, last, hcut⟩ := ih
    by_cases hc : separator c = true
    · refine ⟨[] :: front, last, fun t ht => ?_⟩
      rw [List.cons_append, cut, if_pos hc, hcut t ht]
      rfl
    · cases front with
      | nil =>
        refine ⟨[], c :: last, fun t ht => ?_⟩
        rw [List.cons_append, cut, if_neg hc, hcut t ht]
        rfl
      | cons piece front =>
        refine ⟨(c :: piece) :: front, last, fun t ht => ?_⟩
        rw [List.cons_append, cut, if_neg hc, hcut t ht]
        rfl

theorem exists_pieces_append {t : String} (ht : ' ' ∉ t.toList) (s : String) :
    ∃ front last, pieces ' ' s = front ++ [last] ∧ pieces ' ' (s ++ t) = front ++ [last ++ t] := by
  have hfree : ∀ c ∈ t.toList, (c == ' ') = false := by
    intro c hc
    simpa using fun heq : c = ' ' => ht (heq ▸ hc)
  obtain ⟨front, last, hcut⟩ := exists_cut_append (· == ' ') s.toList
  refine ⟨front.map String.ofList, String.ofList last, ?_, ?_⟩
  · have hplain := hcut [] (by simp)
    simp only [List.append_nil] at hplain
    simp [pieces, hplain]
  · rw [pieces, String.toList_append, hcut _ hfree]
    simp

private theorem join_append (separator : String) (words : List String) (word t : String) :
    join separator (words ++ [word ++ t]) = join separator (words ++ [word]) ++ t := by
  induction words with
  | nil => rfl
  | cons first words ih =>
    obtain ⟨next, rest, hrest⟩ : ∃ next rest, words ++ [word] = next :: rest :=
      List.exists_cons_of_ne_nil (by simp)
    obtain ⟨next', rest', hrest'⟩ : ∃ next rest, words ++ [word ++ t] = next :: rest :=
      List.exists_cons_of_ne_nil (by simp)
    rw [List.cons_append, List.cons_append, hrest, hrest', join, join, ← hrest, ← hrest', ih]
    simp only [String.append_assoc]

theorem infix_append_iff (hc : c ∉ t) : pattern ++ [c] <:+: s ++ t ↔ pattern ++ [c] <:+: s := by
  constructor
  · rintro ⟨l, r, h⟩
    rcases List.append_eq_append_iff.1 h with ⟨m, hs, -⟩ | ⟨m, hm, ht⟩
    · exact ⟨l, m, hs.symm⟩
    · rcases List.eq_nil_or_concat m with rfl | ⟨m, d, rfl⟩
      · exact ⟨l, [], by simpa using hm⟩
      · have hlast := congrArg List.getLast? hm
        simp only [← List.append_assoc, List.concat_eq_append, List.getLast?_concat,
          Option.some.injEq] at hlast
        exact absurd (by simp [ht, hlast]) hc
  · intro h
    exact h.trans (List.prefix_append s t).isInfix

end Text

/-! ## Spellings and names -/

/-- `stripTags` but for the last word. -/
def stripInnerTags (spelling : String) : String :=
  Text.join " " ((Text.pieces ' ' spelling).dropLast.filter (!tagWords.contains ·) ++
    (Text.pieces ' ' spelling).getLast?.toList)

/-- Dimensions as they are written after a type: `[2][3]`. -/
def dimensions : List Int → String
  | [] => ""
  | n :: ns => "[" ++ toString n ++ "]" ++ dimensions ns

private theorem dimensions_append (ns ms : List Int) :
    dimensions (ns ++ ms) = dimensions ns ++ dimensions ms := by
  induction ns with
  | nil => simp [dimensions]
  | cons n ns ih => simp [dimensions, ih, String.append_assoc]

theorem mem_toString_int {n : Int} {c : Char} (h : c ∈ (toString n).toList) :
    c = '-' ∨ c.isDigit = true := by
  have hdigits : ∀ m : Nat, c ∈ (toString m).toList → c.isDigit = true := by
    intro m hc
    rw [Nat.toString_eq_repr, Nat.toList_repr] at hc
    exact Nat.isDigit_of_mem_toDigits (by decide) (by decide) hc
  cases n with
  | ofNat m => exact Or.inr (hdigits m h)
  | negSucc m =>
    have hminus : (toString (Int.negSucc m)).toList = '-' :: (toString (m + 1)).toList := by
      change ("-" ++ toString (m + 1)).toList = _
      simp
    rw [hminus] at h
    exact (List.mem_cons.1 h).imp id (hdigits _)

theorem mem_dimensions {ns : List Int} {c : Char} (h : c ∈ (dimensions ns).toList) :
    c = '[' ∨ c = ']' ∨ c = '-' ∨ c.isDigit = true := by
  induction ns with
  | nil => simp [dimensions] at h
  | cons n ns ih =>
    simp only [dimensions, String.toList_append, List.mem_append] at h
    rcases h with ((h | h) | h) | h
    · exact Or.inl (by simpa using h)
    · exact Or.inr (Or.inr (mem_toString_int h))
    · exact Or.inr (Or.inl (by simpa using h))
    · exact ih h

private theorem blank_not_mem_dimensions (ns : List Int) : ' ' ∉ (dimensions ns).toList := by
  intro h
  rcases mem_dimensions h with h | h | h | h <;> exact absurd h (by decide)

private theorem bracket_not_mem_tag : ∀ tag ∈ tagWords, '[' ∉ tag.toList := by decide +kernel

/-- Before `dimensions` the last word of a `spelling` stays, be it a tag word or not. -/
theorem stripTags_dimensions (spelling : String) (ns : List Int) :
    stripTags (spelling ++ dimensions ns) =
    (if ns = [] then stripTags spelling else stripInnerTags spelling) ++ dimensions ns := by
  cases ns with
  | nil => simp [dimensions]
  | cons n ns =>
    obtain ⟨front, last, hpieces, hlonger⟩ :=
      Text.exists_pieces_append (blank_not_mem_dimensions (n :: ns)) spelling
    have hword : tagWords.contains (last ++ dimensions (n :: ns)) = false := by
      rw [← Bool.not_eq_true, List.contains_iff_mem]
      intro htag
      exact bracket_not_mem_tag _ htag (by simp [dimensions])
    have hstripped : stripTags (spelling ++ dimensions (n :: ns)) = Text.join " "
        (front.filter (!tagWords.contains ·) ++ [last ++ dimensions (n :: ns)]) := by
      rw [stripTags, hlonger, List.filter_append]
      change Text.join " " (_ ++ [_].filter (!tagWords.contains ·)) = _
      rw [List.filter_singleton, hword]
      rfl
    rw [hstripped, Text.join_append, if_neg (by simp), stripInnerTags, hpieces]
    simp

theorem stripInnerTags_eq {spelling : String}
    (h : ∀ word ∈ (Text.pieces ' ' spelling).getLast?, word ∉ tagWords) :
    stripInnerTags spelling = stripTags spelling := by
  unfold stripInnerTags stripTags
  rcases List.eq_nil_or_concat (Text.pieces ' ' spelling) with hnil | ⟨front, last, hpieces⟩
  · rw [hnil]
    rfl
  · rw [List.concat_eq_append] at hpieces
    rw [hpieces] at h ⊢
    have hlast : tagWords.contains last = false := by
      rw [← Bool.not_eq_true, List.contains_iff_mem]
      exact h last (by simp)
    rw [List.dropLast_concat, List.getLast?_concat, List.filter_append]
    change _ = Text.join " " (_ ++ [last].filter (!tagWords.contains ·))
    rw [List.filter_singleton, hlast]
    rfl

private theorem bracket_not_mem_stripInnerTags {spelling : String}
    (h : '[' ∉ (stripTags spelling).toList) :
    '[' ∉ (stripInnerTags spelling).toList := by
  rw [mem_stripTags_iff (by decide) bracket_not_mem_tag] at h
  intro hmem
  rw [stripInnerTags, Text.mem_join_iff (by decide)] at hmem
  obtain ⟨word, hword, hc⟩ := hmem
  have hpieces : word ∈ Text.pieces ' ' spelling := by
    rcases List.mem_append.1 hword with hfront | hlast
    · exact List.mem_of_mem_dropLast (List.mem_filter.1 hfront).1
    · exact List.mem_of_getLast? (by simpa using hlast)
  obtain ⟨piece, hpiece, rfl⟩ := List.mem_map.1 hpieces
  exact h ((Text.mem_cut_iff (by decide) _).1 ⟨piece, hpiece, by simpa using hc⟩)

/-- `insertDimension` puts a dimension before those that are there. -/
theorem insertDimension_append {base : String} (h : '[' ∉ base.toList) (dimension : String)
    (ns : List Int) :
    insertDimension dimension (base ++ dimensions ns) = base ++ dimension ++ dimensions ns := by
  have hfirst : (dimensions ns).toList.takeWhile (· ≠ '[') = [] ∧
      (dimensions ns).toList.dropWhile (· ≠ '[') = (dimensions ns).toList := by
    cases ns <;> simp [dimensions]
  have hbase : ∀ c ∈ base.toList, decide (c ≠ '[') = true := by
    intro c hc
    simpa using fun heq : c = '[' => h (heq ▸ hc)
  rw [insertDimension, String.toList_append, List.takeWhile_append_of_pos hbase,
    List.dropWhile_append_of_pos hbase, hfirst.1, hfirst.2]
  simp [String.append_assoc]

namespace Builder

variable {b : Builder} {steps : List Step} {t w e : TypeId} {n : Int} {ns : List Int}

/-- `Dimensioned b steps e ns w`: `w` is an array of arrays with the counts `ns`, the outermost
first, and elements of type `e`. -/
inductive Dimensioned (b : Builder) (steps : List Step) (e : TypeId) :
    List Int → TypeId → Prop where
  | single {n : Int} {w : TypeId}
      (made : b.Makes steps (.constantArray e n) w) : Dimensioned b steps e [n] w
  | outer {n : Int} {ns : List Int} {t w : TypeId} (made : b.Makes steps (.constantArray t n) w)
      (rest : Dimensioned b steps e ns t) : Dimensioned b steps e (n :: ns) w

theorem typeAt_of_ok {entry : TypeEntry} (h : b.unit.typeAt t = .ok entry) :
    b.typeAt t = entry := by
  rw [typeAt, Array.getD_eq_getD_getElem?, TranslationUnit.typeAt_eq_ok.1 h]
  rfl

/-- `w` is an array of `n` elements of type `t`, with whatever layout. -/
structure IsArray (b : Builder) (w t : TypeId) (n : Int) : Prop where
  lt : w < b.nextType
  kind : (b.typeAt w).kind = .constantArray
  declaration : (b.typeAt w).declaration = none
  element : (b.typeAt w).elementId = t
  count : (b.typeAt w).arraySize = n
  spelling : (b.typeAt w).spelling = (b.typeAt t).spelling ++ dimensions [n]

theorem Makes.isArray (h : b.Makes steps (.constantArray t n) w) (ht : t < w) :
    (b.after steps).IsArray w t n := by
  obtain ⟨before, later, rfl, rfl, hlt, hfixed⟩ := h.fixed fun _ => rfl
  have hkept := typeAt_append_fixed ht (.constantArray t n :: later)
  have hspelling : ((b.after (before ++ .constantArray t n :: later)).typeAt t).spelling =
      ((b.after before).typeAt t).spelling := (congrArg TypeEntry.spelling hkept :)
  refine ⟨hlt, congrArg TypeEntry.kind hfixed, congrArg TypeEntry.declaration hfixed,
    congrArg TypeEntry.elementId hfixed, congrArg TypeEntry.arraySize hfixed, ?_⟩
  have hmade := congrArg TypeEntry.spelling hfixed
  rw [hspelling]
  refine Eq.trans hmade ?_
  change ((b.after before).typeAt t).spelling ++ "[" ++ toString n ++ "]" = _
  simp [dimensions, String.append_assoc]

/-- The spelling of an array has the `dimensions` from the innermost array to the outermost. -/
theorem Dimensioned.spelling (h : b.Dimensioned steps e ns w) (hconnected : Connected b [] steps)
    (hb : b.Sound) :
    ((b.after steps).typeAt w).spelling = ((b.after steps).typeAt e).spelling ++
      dimensions ns.reverse := by
  induction h with
  | single made =>
    have he := made.reference_lt hconnected hb (List.mem_singleton.2 rfl)
    simpa using (made.isArray he).spelling
  | outer made rest ih =>
    have ht := made.reference_lt hconnected hb (List.mem_singleton.2 rfl)
    rw [(made.isArray ht).spelling, ih, List.reverse_cons, dimensions_append, String.append_assoc]

theorem Dimensioned.outermost (h : b.Dimensioned steps e (n :: ns) w)
    (hconnected : Connected b [] steps) (hb : b.Sound) :
    ∃ t, t < w ∧ (b.after steps).IsArray w t n ∧
      ((b.after steps).typeAt t).spelling = ((b.after steps).typeAt e).spelling ++
        dimensions ns.reverse := by
  cases h with
  | single made =>
    have he := made.reference_lt hconnected hb (List.mem_singleton.2 rfl)
    exact ⟨e, he, made.isArray he, by simp [dimensions]⟩
  | @outer _ _ t _ made rest =>
    have ht := made.reference_lt hconnected hb (List.mem_singleton.2 rfl)
    exact ⟨t, ht, made.isArray ht, rest.spelling hconnected hb⟩

end Builder

private theorem contains_unnamed_append (spelling : String) (ns : List Int) :
    Text.contains (spelling ++ dimensions ns) "(unnamed at " =
      Text.contains spelling "(unnamed at " := by
  rw [Bool.eq_iff_iff, Text.contains_iff, Text.contains_iff, String.toList_append,
    show "(unnamed at ".toList = "(unnamed at".toList ++ [' '] from by decide +kernel]
  exact Text.infix_append_iff (blank_not_mem_dimensions ns)

namespace Context

variable {x : Context}

theorem typeName_undeclared (kind : Kind) (hkind : kind.isType = true) (hu : x.unit.Linked)
    {w : TypeId} {entry : TypeEntry} (hentry : x.unit.typeAt w = .ok entry)
    (hnone : entry.declaration = none) {name : String} (hname : x.spelledName entry = .ok name)
    (hne : name ≠ "") (parent : Option String) (index : Nat) :
    x.typeName kind w parent index = .ok (if Text.contains entry.spelling "(unnamed at " then
      Marker.unnamed.name (parent.getD "") index else name) := by
  have hother : ¬ (kind = .macroObject ∨ kind = .function) := by
    rintro (rfl | rfl) <;> cases hkind
  obtain ⟨cursor, hcursor, hfixed⟩ := hu.paired.undeclared hnone
  have hnamed : cursor.anonymous = false := congrArg Cursor.anonymous hfixed
  simp only [typeName, Marker.of?, if_neg hother, hentry, hcursor, hname, hnamed, bind, Except.bind,
    Bool.false_eq_true, if_false]
  by_cases hspelled : Text.contains entry.spelling "(unnamed at " = true
  · simp [hspelled, pure, Except.pure]
  · simp [hspelled, hne, pure, Except.pure]

/-- `spelledName` has the dimension of the array itself before those that its elements are spelled
with. -/
theorem spelledName_isArray {b : Builder} (hunit : x.unit = b.unit) {w t : TypeId} {n : Int}
    {ns : List Int} {base : String} (h : b.IsArray w t n) (ht : t < w)
    (hspelling : stripTags (b.typeAt t).spelling = base ++ dimensions ns)
    (hfree : '[' ∉ base.toList) :
    x.spelledName (b.typeAt w) = .ok (base ++ dimensions (n :: ns)) := by
  have helement := Builder.typeAt_of_lt (Nat.lt_trans ht h.lt)
  rw [spelledName, h.kind]
  simp only [arrayName, h.element, hunit, helement, h.count, bind, Except.bind, pure, Except.pure]
  rw [hspelling, insertDimension_append hfree]
  simp [dimensions, String.append_assoc]

end Context

def endsInTag (spelling : String) : Bool :=
  (Text.pieces ' ' spelling).getLast?.any tagWords.contains

private theorem stripTags_reverse_dimensions (spelling : String) (ns : List Int) :
    stripTags (spelling ++ dimensions ns.reverse) =
      (if ns = [] ∨ endsInTag spelling = false then stripTags spelling
        else stripInnerTags spelling) ++
        dimensions ns.reverse := by
  rw [stripTags_dimensions]
  by_cases hns : ns = []
  · simp [hns]
  · by_cases htag : endsInTag spelling = false
    · have hsame : stripInnerTags spelling = stripTags spelling := by
        refine stripInnerTags_eq fun word hword => ?_
        unfold endsInTag at htag
        rw [Option.mem_def.1 hword] at htag
        simpa using htag
      simp [htag, hsame]
    · simp [hns, htag]

/-- The `typeName` of an array of arrays whose elements are spelled as unnamed is that of
`Marker.unnamed`. Any other is the name of the elements with `dimensions (n :: ns.reverse)`: the own
dimension first, and then those of the arrays inside, from the innermost to the outermost. A tag
word at the end of the spelling of the elements stays if a dimension comes after it. -/
theorem typeName_dimensioned {file triple : String} {pointerBits : Nat} {steps : List Builder.Step}
    {x : Context} (hconnected : Builder.Connected (Builder.start file triple pointerBits) [] steps)
    (hunit : x.unit = Builder.build file triple pointerBits steps) {e w : TypeId} {n : Int}
    {ns : List Int}
    (harray : (Builder.start file triple pointerBits).Dimensioned steps e (n :: ns) w)
    {element : TypeEntry} (helement : x.unit.typeAt e = .ok element)
    (hfree : '[' ∉ (stripTags element.spelling).toList) (parent : Option String) (index : Nat) :
    (Text.contains element.spelling "(unnamed at " = true →
      x.typeName .array w parent index = .ok (Marker.unnamed.name (parent.getD "") index)) ∧
    (Text.contains element.spelling "(unnamed at " = false →
      x.typeName .array w parent index =
        .ok ((if ns = [] ∨ endsInTag element.spelling = false then stripTags element.spelling
          else stripInnerTags element.spelling) ++ dimensions (n :: ns.reverse))) := by
  have hsound := Builder.start_sound file triple pointerBits
  have hlinked : x.unit.Linked := hunit ▸ Builder.build_linked file triple pointerBits steps
  obtain ⟨t, ht, hw, hinner⟩ := harray.outermost hconnected hsound
  have hspelling := harray.spelling hconnected hsound
  have hentry : x.unit.typeAt w =
      .ok (((Builder.start file triple pointerBits).after steps).typeAt w) :=
    hunit ▸ Builder.typeAt_of_lt hw.lt
  have he : ((Builder.start file triple pointerBits).after steps).typeAt e = element := by
    rw [hunit] at helement
    exact Builder.typeAt_of_ok helement
  rw [he] at hinner hspelling
  have hbase : '[' ∉ (if ns = [] ∨
      endsInTag element.spelling = false then stripTags element.spelling
      else stripInnerTags element.spelling).toList := by
    split
    · exact hfree
    · exact bracket_not_mem_stripInnerTags hfree
  have hspelled := Context.spelledName_isArray hunit hw ht
    (hinner ▸ stripTags_reverse_dimensions element.spelling ns) hbase
  have hname := Context.typeName_undeclared .array rfl hlinked hentry hw.declaration hspelled
    (by simp [dimensions]) parent index
  rw [hspelling, contains_unnamed_append] at hname
  refine ⟨fun hunnamed => ?_, fun hnamed => ?_⟩
  · rw [hname, if_pos hunnamed]
  · rw [hname, if_neg (by simp [hnamed])]

def tableStart : Builder := Builder.start "a.h" "x86_64-unknown-linux-gnu" 64

def tagName : String := "enum"

/-- An array of a record without a name, two of a typedef that has a tag word as its name, and three
of a primitive type, one inside the other. -/
def tableSteps : List Builder.Step :=
  [.primitive .int, .unnamedStruct [("x", 1)], .constantArray 2 3, .typedef tagName 1,
    .constantArray 4 3, .constantArray 5 2, .constantArray 1 4, .constantArray 7 3,
    .constantArray 8 2]

def tableContext : Context :=
  .ofSettings (Builder.build "a.h" "x86_64-unknown-linux-gnu" 64 tableSteps) {} 64

/-- The dimensions `2`, `3`, `4` of the array `9`, from the outermost to the innermost, are named in
another order. -/
theorem typeName_tableContext : Builder.Connected tableStart [] tableSteps ∧
    (tableStart.Dimensioned tableSteps 1 [2, 3, 4] 9 ∧
      tableContext.typeName .array 9 none 0 = .ok "int[2][4][3]") ∧
    (tableStart.Dimensioned tableSteps 4 [2, 3] 6 ∧
      tableContext.typeName .array 6 none 0 = .ok "enum[2][3]") ∧
    tableStart.Dimensioned tableSteps 2 [3] 3 ∧
      tableContext.typeName .array 3 (some "Owner") 1 = .ok "Owner_UNNAMED_FIELD1" := by
  have hconnected : Builder.Connected tableStart [] tableSteps := by decide +kernel
  have hints : tableStart.Dimensioned tableSteps 1 [2, 3, 4] 9 :=
    .outer (.of_take 8 rfl rfl) (.outer (.of_take 7 rfl rfl) (.single (.of_take 6 rfl rfl)))
  have htags : tableStart.Dimensioned tableSteps 4 [2, 3] 6 :=
    .outer (.of_take 5 rfl rfl) (.single (.of_take 4 rfl rfl))
  have hrecords : tableStart.Dimensioned tableSteps 2 [3] 3 := .single (.of_take 2 rfl rfl)
  obtain ⟨int, hint, hspelling⟩ : ∃ element, tableContext.unit.typeAt 1 = .ok element ∧
      element.spelling = "int" := ⟨_, rfl, rfl⟩
  obtain ⟨tag, htag, hspelling'⟩ : ∃ element, tableContext.unit.typeAt 4 = .ok element ∧
      element.spelling = "enum" := ⟨_, rfl, rfl⟩
  obtain ⟨record, hrecord, hspelling''⟩ : ∃ element, tableContext.unit.typeAt 2 = .ok element ∧
      element.spelling = "struct (unnamed at a.h:1:1)" := ⟨_, rfl, by decide +kernel⟩
  refine ⟨hconnected, ⟨hints, ?_⟩, ⟨htags, ?_⟩, hrecords, ?_⟩
  · have hname :=
      (typeName_dimensioned hconnected rfl hints hint (by rw [hspelling]; decide +kernel) none 0).2
      (by rw [hspelling]; decide +kernel)
    rw [hname, hspelling]
    decide +kernel
  · have hname :=
      (typeName_dimensioned hconnected rfl htags htag (by rw [hspelling']; decide +kernel) none 0).2
      (by rw [hspelling']; decide +kernel)
    rw [hname, hspelling']
    decide +kernel
  · have hname :=
      (typeName_dimensioned hconnected rfl hrecords hrecord (by rw [hspelling'']; decide +kernel)
      (some "Owner") 1).1 (by rw [hspelling'']; decide +kernel)
    rw [hname]
    decide +kernel

end HeaderSurvey
