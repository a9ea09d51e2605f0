import HeaderSurvey.Proofs.TagWords

/-! Tag words in the names of what is built. The spellings that steps compose never end in a tag
word, so of all of them only that of a function type brings a tag word and another sign together:
the opening bracket stands right before the first argument. -/
namespace HeaderSurvey.Builder

variable {b : Builder} {step : Step} {steps : List Step} {t : TypeId} {s : String}

def spellings (b : Builder) : List String := b.unit.fixedTypes.map TypeEntry.spelling

theorem length_spellings (b : Builder) : b.spellings.length = b.nextType := by
  rw [spellings, List.length_map, length_fixedTypes]

theorem spelling_typeAt (b : Builder) (t : TypeId) :
    (b.typeAt t).spelling = b.spellings[t]?.getD "" := by
  simp only [typeAt, spellings, TranslationUnit.fixedTypes, List.getElem?_map,
    Array.getElem?_toList, Array.getD_eq_getD_getElem?]
  cases b.unit.types[t]? <;> rfl

@[simp] theorem spellings_addType (b : Builder) (entry : TypeEntry) :
    (b.addType entry).spellings = b.spellings ++ [entry.spelling] := by
  rw [spellings, fixedTypes_addType, List.map_append]
  rfl

def primitiveSpelling (b : Builder) (kind : TypeKind) : List String :=
  if (b.primitives.lookup kind).isSome then []
  else (primitiveLayout? b.longSize kind).toList.map (·.1)

private theorem spellings_primitive (b : Builder) (kind : TypeKind) :
    (b.primitive kind).1.spellings = b.spellings ++ b.primitiveSpelling kind := by
  unfold primitive primitiveSpelling
  split
  · next hfound => simp [hfound]
  · next hnew =>
    split
    · next hnone => simp [hnew, hnone]
    · next spelling size hlayout =>
      rw [hnew, hlayout]
      exact b.spellings_addType _

private theorem spellings_defineRecord (b : Builder) (t : TypeId) (fields : NamedTypes) :
    (b.defineRecord t fields).spellings = b.spellings := by
  unfold defineRecord
  split
  · rfl
  · refine congrArg (List.map TypeEntry.spelling) ((fixedTypes_modifyType ?_ _ t).trans rfl)
    exact fun _ => rfl

theorem spellings_addRecord (b : Builder) (tag : RecordTag) (name spelling : String)
    (anonymous : Bool) (fields : Option NamedTypes) :
    (b.addRecord tag name spelling anonymous fields).1.spellings = b.spellings ++ [spelling] := by
  cases fields with
  | none => exact spellings_addType _ _
  | some fields => exact (spellings_defineRecord _ _ fields).trans (spellings_addType _ _)

theorem spellings_addEnum (b : Builder) (name spelling : String) (anonymous : Bool)
    (values : List (String × Int)) : (b.addEnum name spelling anonymous values).1.spellings =
      b.spellings ++ (b.primitiveSpelling (if values.any (·.2 < 0) then .int else .uInt) ++
        [spelling]) := by
  rw [← List.append_assoc, ← spellings_primitive]
  exact spellings_addType _ _

theorem spellings_addTopLevel (b : Builder) (c : CursorId) :
    (b.addTopLevel c).spellings = b.spellings := rfl

private theorem spellings_addFunction (b : Builder) (name : String) (t : TypeId)
    (names : List String) (linkage : Linkage) :
    (b.addFunction name t names linkage).1.spellings = b.spellings := by
  simp only [spellings, TranslationUnit.fixedTypes, types_addFunction]

private theorem spellings_namedRecord (b : Builder) (tag : RecordTag) (name : String)
    (fields : Option NamedTypes) :
    (b.namedRecord tag name fields).1.spellings = b.spellings ++
      [recordKeyword tag ++ " " ++ name] := by
  unfold namedRecord
  rw [spellings_addTopLevel, spellings_addRecord]

/-- The spellings of the types that a step makes. -/
def Step.spellings (b : Builder) : Step → List String
  | primitive kind => b.primitiveSpelling kind
  | constQualified t => ["const " ++ (b.typeAt t).spelling]
  | pointer t => [pointerSpelling (b.typeAt t)]
  | constantArray t count => [(b.typeAt t).spelling ++ "[" ++ toString count ++ "]"]
  | incompleteArray t => [(b.typeAt t).spelling ++ "[]"]
  | elaborated t | attributed t | unexposed t => [(b.typeAt t).spelling]
  | functionType result arguments variadic _ => [b.functionSpelling result arguments variadic]
  | function _ result parameters variadic =>
    [b.functionSpelling result (parameters.map (·.2)) variadic]
  | staticFunction _ result => [b.functionSpelling result [] false]
  | record tag name _ | forwardRecord tag name => [recordKeyword tag ++ " " ++ name]
  | anonymousRecord tag _ => [b.namelessSpelling tag "anonymous"]
  | unnamedStruct _ => [b.namelessSpelling .struct "unnamed"]
  | typedefStruct name _ => [name, name, name]
  | typedef name _ => [name]
  | enum name values =>
    b.primitiveSpelling (if values.any (·.2 < 0) then .int else .uInt) ++ ["enum " ++ name]
  | anonymousEnum values _ =>
    b.primitiveSpelling (if values.any (·.2 < 0) then .int else .uInt) ++
      ["enum (anonymous at " ++ placeText (b.positionAfter 0) ++ ")"]
  | inFile _ | systemHeader _ | defineRecord _ _ | functionOfType _ _ _ | globalVariable _ _ _
  | macroDefinition _ _ _ => []

private theorem spellings_typedefStruct (b : Builder) (name : String) (fields : NamedTypes) :
    (b.typedefStruct name fields).1.spellings = b.spellings ++ [name, name, name] := by
  have hrecord := b.spellings_addRecord .struct "" name false (some fields)
  have hwrapped : ((b.addRecord .struct "" name false (some fields)).1.typeAt
      (b.addRecord .struct "" name false (some fields)).2).spelling = name := by
    have hnext : (b.addRecord .struct "" name false (some fields)).2 = b.spellings.length :=
      (length_spellings b).symm
    rw [spelling_typeAt, hrecord, hnext]
    simp
  calc (b.typedefStruct name fields).1.spellings
      = ((b.addRecord .struct "" name false (some fields)).1.elaborated
          (b.addRecord .struct "" name false (some fields)).2).1.spellings ++ [name] :=
            spellings_addType _ _
    _ = (b.addRecord .struct "" name false (some fields)).1.spellings ++
          [((b.addRecord .struct "" name false (some fields)).1.typeAt
            (b.addRecord .struct "" name false (some fields)).2).spelling] ++ [name] :=
        congrArg (· ++ [name]) (spellings_addType _ _)
    _ = b.spellings ++ [name, name, name] := by rw [hwrapped, hrecord]; simp

theorem spellings_run (step : Step) (b : Builder) :
    (step.run b).1.spellings = b.spellings ++ step.spellings b := by
  cases step with
  | inFile | systemHeader | functionOfType | globalVariable | macroDefinition =>
    exact (List.append_nil _).symm
  | primitive kind => exact b.spellings_primitive kind
  | constQualified | pointer | constantArray | incompleteArray | functionType | elaborated
  | attributed | unexposed | typedef => exact spellings_addType _ _
  | function name result parameters variadic =>
    change (b.function name result parameters variadic).1.spellings = _
    unfold function functionType
    rw [spellings_addFunction, spellings_addType]
    rfl
  | staticFunction name result =>
    change (b.staticFunction name result).1.spellings = _
    unfold staticFunction functionType
    rw [spellings_addFunction, spellings_addType]
    rfl
  | defineRecord t fields =>
    exact (b.spellings_defineRecord t fields).trans (List.append_nil _).symm
  | record tag name fields => exact b.spellings_namedRecord tag name (some fields)
  | forwardRecord tag name => exact b.spellings_namedRecord tag name none
  | anonymousRecord tag fields =>
    change (b.anonymousRecord tag fields).1.spellings = _
    unfold anonymousRecord
    rw [spellings_addRecord]
    rfl
  | unnamedStruct fields =>
    change (b.unnamedStruct fields).1.spellings = _
    unfold unnamedStruct
    rw [spellings_addRecord]
    rfl
  | typedefStruct name fields => exact b.spellings_typedefStruct name fields
  | enum name values =>
    change (b.namedEnum name values).1.spellings = _
    unfold namedEnum
    rw [spellings_addTopLevel, spellings_addEnum]
    rfl
  | anonymousEnum values topLevel =>
    change (b.anonymousEnum values topLevel).1.spellings = _
    unfold anonymousEnum
    cases topLevel with
    | false =>
      simp only [Bool.false_eq_true, if_false]
      rw [spellings_addEnum]
      rfl
    | true =>
      simp only [if_true]
      rw [spellings_addTopLevel, spellings_addEnum]
      rfl

/-- Whether `stripTags` leaves a tag word when the spelling of `t` is made a name. -/
def leavesTag (b : Builder) (t : TypeId) : Bool := hasTagWord (stripTags (b.typeAt t).spelling)

/-- The types whose spellings a step puts into that of a new one. -/
def Step.spelledTypes : Step → List TypeId
  | constQualified t | pointer t | constantArray t _ | incompleteArray t | elaborated t
  | attributed t | unexposed t | staticFunction _ t => [t]
  | functionType result arguments _ _ => result :: arguments
  | function _ result parameters _ => result :: parameters.map (·.2)
  | _ => []

def Step.firstArgument? : Step → Option TypeId
  | functionType _ arguments _ _ => arguments.head?
  | function _ _ parameters _ => (parameters.map (·.2)).head?
  | _ => none

/-- Whether a step makes a function type whose arguments begin with a tag word. -/
def Step.opensWithTag (step : Step) (b : Builder) : Bool :=
  step.firstArgument?.any fun t => startsInTag (b.typeAt t).spelling

/-- The text that goes into the spelling of a type that a step declares: its name, or the file if it
has none. -/
def Step.givenText? (b : Builder) : Step → Option String
  | record _ name _ | forwardRecord _ name | typedefStruct name _ | typedef name _ | enum name _ =>
    some name
  | anonymousRecord _ _ | unnamedStruct _ | anonymousEnum _ _ => some b.file
  | _ => none

def Step.isUntagged (step : Step) (b : Builder) : Bool := (step.givenText? b).all (!hasTagWord ·)

/-- Whether the names of types, and the files where types without a name are declared, have no
`tagWords` in them. -/
def untagged (b : Builder) : List Step → Bool
  | [] => true
  | step :: steps => step.isUntagged b && (step.run b).1.untagged steps

/-- No spelling `endsInTag`. -/
def Closed (b : Builder) : Prop := ∀ s ∈ b.spellings, endsInTag s = false

theorem Closed.typeAt (h : b.Closed) (t : TypeId) : endsInTag (b.typeAt t).spelling = false := by
  rw [spelling_typeAt]
  cases hs : b.spellings[t]? with
  | none => exact (plain_of_hasTagWord hasTagWord_empty).2.2
  | some s => exact h s (List.mem_of_getElem? hs)

theorem hasTagWord_primitive {kind : TypeKind} (hs : s ∈ b.primitiveSpelling kind) :
    hasTagWord s = false := by
  unfold primitiveSpelling at hs
  split at hs
  · cases hs
  · obtain ⟨layout, hlayout, rfl⟩ := List.mem_map.1 hs
    rw [Option.mem_toList] at hlayout
    unfold primitiveLayout? at hlayout
    split at hlayout <;> cases hlayout <;> dsimp only <;> decide +kernel

private theorem hasTagWord_toString (n : Int) : hasTagWord (toString n) = false := by
  refine hasTagWord_of_free fun h => ?_
  rcases mem_toString_int h with h | h <;> exact absurd h (by decide)

theorem hasTagWord_place (hfile : hasTagWord b.file = false) {marker : String}
    (hmarker : hasTagWord marker = false) :
    hasTagWord ("(" ++ marker ++ " at " ++ placeText (b.positionAfter 0) ++ ")") = false := by
  have hplace : hasTagWord (placeText (b.positionAfter 0)) = false := by
    have hcolon : Text.separates ":" = true := by decide
    have hline := hasTagWord_toString (b.line + 0 + 1 : Nat)
    have hcolumn := hasTagWord_toString (1 : Nat)
    change hasTagWord (b.file ++ ":" ++ toString (b.line + 0 + 1) ++ ":" ++ toString 1) = false
    rw [hasTagWord_append hcolon, hasTagWord_append hcolon, hfile]
    simpa using ⟨hline, hcolumn⟩
  have hspelled : "(" ++ marker ++ " at " ++ placeText (b.positionAfter 0) ++ ")" =
      "" ++ "(" ++ (marker ++ " " ++
        ("at" ++ " " ++ (placeText (b.positionAfter 0) ++ ")" ++ ""))) := by
    rw [show " at " = " " ++ ("at" ++ " ") from rfl]
    simp only [String.append_assoc, String.empty_append, String.append_empty]
  have hblank : Text.separates " " = true := by decide
  have hat : hasTagWord "at" = false := hasTagWord_of_free (by simp)
  rw [hspelled, hasTagWord_append (by decide), hasTagWord_append hblank, hasTagWord_append hblank,
    hasTagWord_append (by decide), hmarker, hat, hplace]
  simp

/-! ## One step -/

theorem spelled_plain (h : hasTagWord s = false) :
    hasTagWord (stripTags s) = false ∧ endsInTag s = false :=
  ⟨(plain_of_hasTagWord h).1, (plain_of_hasTagWord h).2.2⟩

theorem spelled_tagged {tag : String} (ht : tag ∈ tagWords) (h : hasTagWord s = false) :
    hasTagWord (stripTags (tag ++ " " ++ s)) = false ∧ endsInTag (tag ++ " " ++ s) = false := by
  have htags : ∀ tag ∈ tagWords, hasTagWord (stripTags tag) = false := by decide +kernel
  rw [hasTagWord_stripTags_blank, endsInTag_blank, htags tag ht, Bool.false_or]
  exact spelled_plain h

theorem recordKeyword_mem (tag : RecordTag) : recordKeyword tag ∈ tagWords := by
  cases tag <;> decide

theorem spelled_nameless (hfile : hasTagWord b.file = false) {marker : String}
    (hmarker : hasTagWord marker = false) {tag : String} (ht : tag ∈ tagWords) :
    hasTagWord (stripTags (tag ++ " (" ++ marker ++ " at " ++ placeText (b.positionAfter 0) ++
      ")")) = false ∧
      endsInTag (tag ++ " (" ++ marker ++ " at " ++ placeText (b.positionAfter 0) ++ ")") =
        false := by
  have hspelled : tag ++ " (" ++ marker ++ " at " ++ placeText (b.positionAfter 0) ++ ")" =
      tag ++ " " ++ ("(" ++ marker ++ " at " ++ placeText (b.positionAfter 0) ++ ")") := by
    rw [show " (" = " " ++ "(" from rfl]
    simp only [String.append_assoc]
  rw [hspelled]
  exact spelled_tagged ht (hasTagWord_place hfile hmarker)

private theorem spelled_const (hb : b.Closed) (t : TypeId) :
    hasTagWord (stripTags ("const " ++ (b.typeAt t).spelling)) = b.leavesTag t ∧
      endsInTag ("const " ++ (b.typeAt t).spelling) = false := by
  have hspelled : "const " ++ (b.typeAt t).spelling = "const" ++ " " ++ (b.typeAt t).spelling := rfl
  have hconst : hasTagWord "const" = false := hasTagWord_of_free (by simp)
  rw [hspelled, hasTagWord_stripTags_blank, endsInTag_blank, (plain_of_hasTagWord hconst).1,
    Bool.false_or]
  exact ⟨rfl, hb.typeAt t⟩

private theorem spelled_signed (hb : b.Closed) (t : TypeId) {p : String}
    (hp : Text.isSign p = true) :
    hasTagWord (stripTags ((b.typeAt t).spelling ++ p)) = b.leavesTag t ∧
      endsInTag ((b.typeAt t).spelling ++ p) = false := by
  rw [(signed hp _).1, hb.typeAt t, Bool.or_false]
  exact ⟨rfl, (signed hp _).2⟩

private theorem spelled_array (hb : b.Closed) (t : TypeId) (count : Int) :
    hasTagWord (stripTags ((b.typeAt t).spelling ++ "[" ++ toString count ++ "]")) = b.leavesTag t ∧
      endsInTag ((b.typeAt t).spelling ++ "[" ++ toString count ++ "]") = false := by
  have hfree : ∀ c ∈ (toString count ++ "]").toList, c = ']' ∨ c = '-' ∨ c.isDigit = true := by
    intro c hc
    rw [String.toList_append, List.mem_append] at hc
    rcases hc with hc | hc
    · exact Or.inr (mem_toString_int hc)
    · exact Or.inl (by simpa using hc)
  have hblank : ' ' ∉ (toString count ++ "]").toList := fun hc => absurd (hfree ' ' hc) (by decide)
  have hcount : hasTagWord (toString count ++ "]") = false :=
    hasTagWord_of_free fun hc => absurd (hfree 'u' hc) (by decide)
  have hspelled : (b.typeAt t).spelling ++ "[" ++ toString count ++ "]" =
      (b.typeAt t).spelling ++ "[" ++ (toString count ++ "]") := String.append_assoc
  rw [hspelled, hasTagWord_stripTags_append (by decide) hblank hcount, hb.typeAt t, Bool.or_false]
  exact ⟨rfl, endsInTag_append (by decide) hblank _⟩

private theorem spelled_pointer (hb : b.Closed) (t : TypeId) :
    hasTagWord (stripTags (pointerSpelling (b.typeAt t))) = b.leavesTag t ∧
      endsInTag (pointerSpelling (b.typeAt t)) = false := by
  unfold pointerSpelling
  split
  · exact starred_brackets _ (hb.typeAt t)
  · split
    · exact spelled_signed hb t (by decide)
    · have hspelled : (b.typeAt t).spelling ++ " *" = (b.typeAt t).spelling ++ " " ++ "*" := by
        rw [String.append_assoc]
        rfl
      obtain ⟨hleft, -, hends⟩ :=
        plain_of_hasTagWord (hasTagWord_of_free (by simp : 'u' ∉ "*".toList))
      rw [hspelled, hasTagWord_stripTags_blank, endsInTag_blank, hleft, Bool.or_false]
      exact ⟨rfl, hends⟩

/-- `functionSpelling` leaves a tag word in a name if that of its result or of an argument has one
left, or if its first argument `startsInTag`. -/
theorem spelled_function (hb : b.Closed) (result : TypeId) (arguments : List TypeId)
    (variadic : Bool) :
    hasTagWord (stripTags (b.functionSpelling result arguments variadic)) =
        ((result :: arguments).any b.leavesTag ||
          arguments.head?.any fun t => startsInTag (b.typeAt t).spelling) ∧
      endsInTag (b.functionSpelling result arguments variadic) = false := by
  have hfixed : ∀ text ∈ ["...", "void"],
      hasTagWord (stripTags text) = false ∧ startsInTag text = false ∧ endsInTag text = false := by
    intro text htext
    refine plain_of_hasTagWord (hasTagWord_of_free ?_)
    rcases List.mem_pair.1 htext with rfl | rfl <;> simp
  cases arguments with
  | nil =>
    obtain ⟨text, htext, hspelled⟩ :
        ∃ text ∈ ["...", "void"], b.functionSpelling result [] variadic =
        (b.typeAt result).spelling ++ " (" ++ Text.join ", " [text] ++ ")" := by
      cases variadic with
      | true => exact ⟨"...", by simp, rfl⟩
      | false => exact ⟨"void", by simp, rfl⟩
    obtain ⟨hleft, hstarts, hends⟩ := hfixed text htext
    have hbrackets := bracketed_arguments (b.typeAt result).spelling
      (fun part (hpart : part ∈ [text]) => by rwa [List.mem_singleton.1 hpart])
    rw [hspelled, hbrackets.1]
    exact ⟨by simp [hleft, hstarts, leavesTag], hbrackets.2⟩
  | cons first rest =>
    obtain ⟨dots, hdots, hspelled⟩ : ∃ dots : List String, dots ⊆ ["...", "void"] ∧
        b.functionSpelling result (first :: rest) variadic = (b.typeAt result).spelling ++ " (" ++
          Text.join ", " ((first :: rest).map (b.typeAt · |>.spelling) ++ dots) ++ ")" := by
      cases variadic with
      | true => exact ⟨["..."], by simp, rfl⟩
      | false => exact ⟨[], by simp, rfl⟩
    have hends : ∀ part ∈ (first :: rest).map (b.typeAt · |>.spelling) ++ dots,
        endsInTag part = false := by
      intro part hpart
      rcases List.mem_append.1 hpart with hpart | hpart
      · obtain ⟨t, -, rfl⟩ := List.mem_map.1 hpart
        exact hb.typeAt t
      · exact (hfixed part (hdots hpart)).2.2
    have hleft : dots.any (fun part => hasTagWord (stripTags part)) = false := by
      rw [List.any_eq_false]
      exact fun part hpart => by simp [(hfixed part (hdots hpart)).1]
    have hbrackets := bracketed_arguments (b.typeAt result).spelling hends
    rw [hspelled, hbrackets.1, List.any_cons, List.any_append, List.any_map, hleft, Bool.or_false]
    have hsame : b.leavesTag = fun t => hasTagWord (stripTags (b.typeAt t).spelling) := rfl
    exact ⟨by simp [hsame, Function.comp_def], hbrackets.2⟩

/-- What becomes of the tag words in each of the `spellings` of a step. -/
theorem Step.spelled (hb : b.Closed) (hstep : step.isUntagged b = true)
    (hs : s ∈ step.spellings b) :
    hasTagWord (stripTags s) = (step.spelledTypes.any b.leavesTag || step.opensWithTag b) ∧
      endsInTag s = false := by
  cases step with
  | inFile | systemHeader | defineRecord | functionOfType | globalVariable | macroDefinition =>
    cases hs
  | primitive kind => exact spelled_plain (hasTagWord_primitive hs)
  | constQualified t =>
    rw [List.mem_singleton.1 hs]
    simpa [spelledTypes, opensWithTag, firstArgument?] using spelled_const hb t
  | pointer t =>
    rw [List.mem_singleton.1 hs]
    simpa [spelledTypes, opensWithTag, firstArgument?] using spelled_pointer hb t
  | constantArray t count =>
    rw [List.mem_singleton.1 hs]
    simpa [spelledTypes, opensWithTag, firstArgument?] using spelled_array hb t count
  | incompleteArray t =>
    rw [List.mem_singleton.1 hs]
    have hsign : Text.isSign "[]" = true := by decide
    simpa [spelledTypes, opensWithTag, firstArgument?] using spelled_signed hb t hsign
  | elaborated t | attributed t | unexposed t =>
    rw [List.mem_singleton.1 hs]
    simpa [spelledTypes, opensWithTag, firstArgument?] using ⟨rfl, hb.typeAt t⟩
  | functionType result arguments variadic =>
    rw [List.mem_singleton.1 hs]
    simpa [spelledTypes, opensWithTag, firstArgument?] using spelled_function hb result arguments
      variadic
  | function name result parameters variadic =>
    rw [List.mem_singleton.1 hs]
    simpa [spelledTypes, opensWithTag, firstArgument?] using
      spelled_function hb result (parameters.map (·.2)) variadic
  | staticFunction name result =>
    rw [List.mem_singleton.1 hs]
    simpa [spelledTypes, opensWithTag, firstArgument?] using spelled_function hb result [] false
  | record tag name | forwardRecord tag name =>
    rw [List.mem_singleton.1 hs]
    have hname : hasTagWord name = false := by simpa [isUntagged, givenText?] using hstep
    simpa [spelledTypes, opensWithTag, firstArgument?] using spelled_tagged
      (recordKeyword_mem tag) hname
  | anonymousRecord tag =>
    rw [List.mem_singleton.1 hs]
    have hfile : hasTagWord b.file = false := by simpa [isUntagged, givenText?] using hstep
    have hmarker : hasTagWord "anonymous" = false := by decide +kernel
    simpa [spelledTypes, opensWithTag, firstArgument?, namelessSpelling] using
      spelled_nameless hfile hmarker (recordKeyword_mem tag)
  | unnamedStruct =>
    rw [List.mem_singleton.1 hs]
    have hfile : hasTagWord b.file = false := by simpa [isUntagged, givenText?] using hstep
    have hmarker : hasTagWord "unnamed" = false := by decide +kernel
    simpa [spelledTypes, opensWithTag, firstArgument?, namelessSpelling] using
      spelled_nameless hfile hmarker (recordKeyword_mem .struct)
  | typedefStruct name | typedef name =>
    have hname : s = name := by simpa [Step.spellings] using hs
    rw [hname]
    exact spelled_plain (by simpa [isUntagged, givenText?] using hstep)
  | enum name values =>
    rcases List.mem_append.1 hs with hs | hs
    · exact spelled_plain (hasTagWord_primitive hs)
    · have hname : hasTagWord name = false := by simpa [isUntagged, givenText?] using hstep
      have htag : "enum" ∈ tagWords := by decide
      rw [List.mem_singleton.1 hs]
      simpa [spelledTypes, opensWithTag, firstArgument?] using spelled_tagged htag hname
  | anonymousEnum values =>
    rcases List.mem_append.1 hs with hs | hs
    · exact spelled_plain (hasTagWord_primitive hs)
    · have hfile : hasTagWord b.file = false := by simpa [isUntagged, givenText?] using hstep
      have hmarker : hasTagWord "anonymous" = false := by decide +kernel
      have htag : "enum" ∈ tagWords := by decide
      rw [List.mem_singleton.1 hs]
      simpa [spelledTypes, opensWithTag, firstArgument?] using spelled_nameless hfile hmarker htag

/-! ## Many steps -/

theorem Closed.run (hb : b.Closed) (hstep : step.isUntagged b = true) : (step.run b).1.Closed := by
  intro s hs
  rw [spellings_run] at hs
  rcases List.mem_append.1 hs with hs | hs
  · exact hb s hs
  · exact (Step.spelled hb hstep hs).2

private theorem start_closed (file triple : String) (pointerBits : Nat) :
    (start file triple pointerBits).Closed := by
  intro s hs
  have hempty : s = "" := List.mem_singleton.1 hs
  rw [hempty]
  exact (plain_of_hasTagWord hasTagWord_empty).2.2

theorem Closed.after (hb : b.Closed) (h : b.untagged steps = true) : (b.after steps).Closed := by
  induction steps generalizing b with
  | nil => exact hb
  | cons step steps ih =>
    simp only [untagged, Bool.and_eq_true] at h
    exact ih (hb.run h.1) h.2

private theorem untagged_append (b : Builder) (steps more : List Step) :
    b.untagged (steps ++ more) = (b.untagged steps && (b.after steps).untagged more) := by
  induction steps generalizing b with
  | nil => rfl
  | cons step steps ih =>
    rw [List.cons_append, untagged, untagged, ih, Bool.and_assoc]
    rfl

theorem exists_leavesTag_iff (b : Builder) :
    (∃ t, b.leavesTag t = true) ↔ ∃ s ∈ b.spellings, hasTagWord (stripTags s) = true := by
  constructor
  · rintro ⟨t, ht⟩
    rw [leavesTag, spelling_typeAt] at ht
    cases hs : b.spellings[t]? with
    | none =>
      rw [hs, Option.getD_none, (plain_of_hasTagWord hasTagWord_empty).1] at ht
      cases ht
    | some s =>
      rw [hs] at ht
      exact ⟨s, List.mem_of_getElem? hs, ht⟩
  · rintro ⟨s, hs, htag⟩
    obtain ⟨t, ht⟩ := List.getElem?_of_mem hs
    refine ⟨t, ?_⟩
    rw [leavesTag, spelling_typeAt, ht]
    exact htag

/-- A step brings in a type that `leavesTag` only from another, or if it `opensWithTag`. -/
theorem exists_leavesTag_run (hb : b.Closed) (hstep : step.isUntagged b = true) :
    (∃ t, (step.run b).1.leavesTag t = true) ↔ (∃ t, b.leavesTag t = true) ∨
    step.opensWithTag b = true := by
  rw [exists_leavesTag_iff, spellings_run]
  constructor
  · rintro ⟨s, hs, htag⟩
    rcases List.mem_append.1 hs with hs | hs
    · exact Or.inl ((exists_leavesTag_iff b).2 ⟨s, hs, htag⟩)
    · rw [(Step.spelled hb hstep hs).1, Bool.or_eq_true, List.any_eq_true] at htag
      rcases htag with ⟨t, -, ht⟩ | hopens
      · exact Or.inl ⟨t, ht⟩
      · exact Or.inr hopens
  · rintro (hold | hopens)
    · obtain ⟨s, hs, htag⟩ := (exists_leavesTag_iff b).1 hold
      exact ⟨s, List.mem_append_left _ hs, htag⟩
    · obtain ⟨s, hs⟩ : ∃ s, s ∈ step.spellings b := by
        cases step with
        | functionType | function => exact ⟨_, List.mem_singleton.2 rfl⟩
        | _ => cases hopens
      refine ⟨s, List.mem_append_right _ hs, ?_⟩
      rw [(Step.spelled hb hstep hs).1, hopens, Bool.or_true]

private theorem exists_leavesTag_after (hb : b.Closed) (h : b.untagged steps = true) :
    (∃ t, (b.after steps).leavesTag t = true) ↔ (∃ t, b.leavesTag t = true) ∨
      ∃ before step later, steps = before ++ step :: later ∧
        step.opensWithTag (b.after before) = true := by
  induction steps generalizing b with
  | nil => simp [after]
  | cons step steps ih =>
    simp only [untagged, Bool.and_eq_true] at h
    have hrest := ih (hb.run h.1) h.2
    rw [exists_leavesTag_run hb h.1, or_assoc] at hrest
    refine hrest.trans (or_congr_right ?_)
    constructor
    · rintro (hopens | ⟨before, step', later, rfl, hopens⟩)
      · exact ⟨[], step, steps, rfl, hopens⟩
      · exact ⟨step :: before, step', later, rfl, hopens⟩
    · rintro ⟨before, step', later, hsteps, hopens⟩
      cases before with
      | nil =>
        cases hsteps
        exact Or.inl hopens
      | cons first before =>
        cases hsteps
        exact Or.inr ⟨before, step', later, rfl, hopens⟩

private theorem start_leavesTag (file triple : String) (pointerBits : Nat) (t : TypeId) :
    (start file triple pointerBits).leavesTag t = false := by
  rw [← Bool.not_eq_true]
  intro ht
  obtain ⟨s, hs, htag⟩ := (exists_leavesTag_iff _).1 ⟨t, ht⟩
  have hempty : s = "" := List.mem_singleton.1 hs
  rw [hempty, (plain_of_hasTagWord hasTagWord_empty).1] at htag
  cases htag

private theorem hasTagWord_of_isPlainName {name : String} (h : isPlainName name = true) :
    hasTagWord name = false := by
  have hchars : ∀ c ∈ name.toList, (!Text.isWordChar c) = false := by
    simp only [isPlainName, Bool.and_eq_true, List.all_eq_true] at h
    intro c hc
    rw [Text.isWordChar, h.1.1 c hc]
    rfl
  have hnot : tagWords.contains name = false := not_tag_of_isPlainName h
  rw [hasTagWord, Text.words, Text.cut_of_free hchars]
  simp only [List.map_cons, List.map_nil, String.ofList_toList, List.any_cons, List.any_nil, hnot,
    Bool.or_false]

theorem untagged_of_isPlainName (hnamed : ∀ step ∈ steps, ∀ b, step.givenText? b = step.typeName?)
    (hnames : ∀ step ∈ steps, ∀ name ∈ step.typeName?, isPlainName name = true) (b : Builder) :
    b.untagged steps = true := by
  induction steps generalizing b with
  | nil => rfl
  | cons step steps ih =>
    have hrest := ih (fun step' hstep => hnamed step' (List.mem_cons_of_mem step hstep))
      (fun step' hstep => hnames step' (List.mem_cons_of_mem step hstep)) (step.run b).1
    rw [untagged, hrest, Bool.and_true, Step.isUntagged, hnamed step List.mem_cons_self,
      Option.all_eq_true]
    intro name hname
    rw [hasTagWord_of_isPlainName (hnames step List.mem_cons_self name hname)]
    rfl

/-- If names and files are `untagged`, a new type `leavesTag` exactly if one of `spelledTypes` does,
or if it is a function type that `opensWithTag`: its first argument is spelled with a tag word in
front. So some type does exactly if there is such a function type. -/
theorem leavesTag_iff {file triple : String} {pointerBits : Nat} {steps : List Step} {step : Step}
    {b : Builder} (hb : b = (start file triple pointerBits).after steps)
    (h : (start file triple pointerBits).untagged (steps ++ [step]) = true) :
    (∀ t, b.nextType ≤ t → t < (step.run b).1.nextType →
      (step.run b).1.leavesTag t = (step.spelledTypes.any b.leavesTag || step.opensWithTag b)) ∧
    ((∃ t, (step.run b).1.leavesTag t = true) ↔
      ∃ before maker later, steps ++ [step] = before ++ maker :: later ∧
        maker.opensWithTag ((start file triple pointerBits).after before) = true) := by
  have hstart := start_closed file triple pointerBits
  have hall := exists_leavesTag_after hstart h
  rw [untagged_append, Bool.and_eq_true] at h
  have hclosed := hstart.after h.1
  rw [← hb] at hclosed h
  have hstep : step.isUntagged b = true := by simpa [untagged] using h.2
  constructor
  · intro t ht hlt
    rw [← length_spellings] at ht
    rw [← length_spellings, spellings_run] at hlt
    rw [leavesTag, spelling_typeAt, spellings_run, List.getElem?_eq_getElem hlt]
    refine (Step.spelled hclosed hstep ?_).1
    rw [Option.getD_some, List.getElem_append_right ht]
    exact List.getElem_mem _
  · rw [after_append, ← hb] at hall
    refine hall.trans ?_
    simp [start_leavesTag]

def callbackStart : Builder := start "a.h" "x86_64-unknown-linux-gnu" 64

/-- A pointer to a struct, and a function type that is given it. -/
def callbackSteps (arguments : List TypeId) : List Step :=
  [.primitive .void, .primitive .int, .forwardRecord .struct "Foo", .pointer 3,
    .functionType 1 arguments false .c]

/-- As the first argument the struct `4` keeps its tag word in the name of a pointer to the function
type, after the argument `2` it does not. -/
theorem leavesTag_callbackSteps :
    (∀ arguments, callbackStart.untagged (callbackSteps arguments ++ [.pointer 5]) = true) ∧
    ((Step.pointer 5).run (callbackStart.after (callbackSteps [4]))).1.leavesTag 6 = true ∧
    ((Step.pointer 5).run (callbackStart.after (callbackSteps [2, 4]))).1.leavesTag 6 = false ∧
    ∃ before maker later, callbackSteps [4] ++ [.pointer 5] = before ++ maker :: later ∧
      maker.opensWithTag (callbackStart.after before) = true := by
  have huntagged : ∀ arguments,
      callbackStart.untagged (callbackSteps arguments ++ [.pointer 5]) = true := by
    intro arguments
    apply untagged_of_isPlainName
    · intro step hstep b
      simp only [callbackSteps, List.cons_append, List.nil_append, List.mem_cons, List.not_mem_nil,
        or_false] at hstep
      rcases hstep with rfl | rfl | rfl | rfl | rfl | rfl <;> rfl
    · intro step hstep name hname
      simp only [callbackSteps, List.cons_append, List.nil_append, List.mem_cons, List.not_mem_nil,
        or_false] at hstep
      rcases hstep with rfl | rfl | rfl | rfl | rfl | rfl <;> cases hname
      decide +kernel
  obtain ⟨hfirst, hany⟩ := leavesTag_iff rfl (huntagged [4])
  obtain ⟨hsecond, -⟩ := leavesTag_iff rfl (huntagged [2, 4])
  have htagged := hfirst 6 (by decide +kernel) (by decide +kernel)
  refine ⟨huntagged, htagged.trans (by decide +kernel), ?_,
    hany.1 ⟨6, htagged.trans (by decide +kernel)⟩⟩
  exact (hsecond 6 (by decide +kernel) (by decide +kernel)).trans (by decide +kernel)

end HeaderSurvey.Builder
