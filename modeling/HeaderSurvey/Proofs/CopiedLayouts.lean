import HeaderSurvey.Proofs.Dimensions

/-! Layouts that are taken over. A qualified type or a wrapper is made with the layout that another
type has at that time. It goes on to agree with the type that it stands for as long as no type gets
fields after its layout was taken over. -/
namespace HeaderSurvey

namespace TranslationUnit

variable {u v : TranslationUnit} {t t' : TypeId} {entry : TypeEntry} {cursor : Cursor}
  {c : CursorId}

/-- The layout of `t` comes from the other type: from the one that the declaration of `t` declares,
or from the one that `t` is put on. -/
inductive Leans (u : TranslationUnit) (t : TypeId) : TypeId → Prop where
  | declared {entry : TypeEntry} {c : CursorId} {cursor : Cursor}
      (found : u.fixedTypes[t]? = some entry) (declaration : entry.declaration = some c)
      (declares : u.fixedCursors[c]? = some cursor)
      (other : cursor.type ≠ t) : Leans u t cursor.type
  | link {entry : TypeEntry} {t' : TypeId} (found : u.fixedTypes[t]? = some entry)
      (undeclared : entry.declaration = none) (sort : entry.kind ≠ .typedef)
      (link : u.linkOf? entry = some t') : Leans u t t'

theorem Leans.lt_length (h : u.Leans t t') : t < u.fixedTypes.length := by
  cases h with
  | declared found => exact (List.getElem?_eq_some_iff.1 found).1
  | link found => exact (List.getElem?_eq_some_iff.1 found).1

theorem Leans.eq_declared (h : u.Leans t t') (hfound : u.fixedTypes[t]? = some entry)
    (hc : entry.declaration = some c) (hcursor : u.fixedCursors[c]? = some cursor) :
    t' = cursor.type ∧ cursor.type ≠ t := by
  cases h with
  | declared found declaration declares other =>
    cases hfound.symm.trans found
    cases hc.symm.trans declaration
    cases hcursor.symm.trans declares
    exact ⟨rfl, other⟩
  | link found undeclared =>
    cases hfound.symm.trans found
    cases hc.symm.trans undeclared

theorem Leans.eq_link (h : u.Leans t t') (hfound : u.fixedTypes[t]? = some entry)
    (hnone : entry.declaration = none) : u.linkOf? entry = some t' := by
  cases h with
  | declared found declaration =>
    cases hfound.symm.trans found
    cases hnone.symm.trans declaration
  | link found undeclared sort link =>
    cases hfound.symm.trans found
    exact link

theorem linkOf?_congr (h : entry.kind ≠ .typedef) : u.linkOf? entry = v.linkOf? entry := by
  unfold linkOf?
  split
  · rfl
  · rfl
  · rfl
  · contradiction
  · rfl

theorem Leans.of_extended (h : v.Leans t t') (hgrounded : Grounded u.fixedCursors u.fixedTypes)
    (hcs : u.fixedCursors <+: v.fixedCursors) (hts : u.fixedTypes <+: v.fixedTypes)
    (ht : t < u.fixedTypes.length) : u.Leans t t' := by
  have hfound := List.getElem?_eq_getElem ht
  cases hc : u.fixedTypes[t].declaration with
  | none =>
    have hlink := h.eq_link (getElem?_extended hts hfound) hc
    cases h with
    | declared found declaration =>
      cases (getElem?_extended hts hfound).symm.trans found
      cases hc.symm.trans declaration
    | link found undeclared sort =>
      cases (getElem?_extended hts hfound).symm.trans found
      exact .link hfound hc sort ((linkOf?_congr sort).trans hlink)
  | some c =>
    obtain ⟨cursor, hcursor, -⟩ := (hgrounded.types t _ hfound).declaration c hc
    obtain ⟨rfl, hother⟩ := h.eq_declared (getElem?_extended hts hfound) hc
      (getElem?_extended hcs hcursor)
    exact .declared hfound hc hcursor hother

theorem Leans.congr (h : v.Leans t t') (hcs : u.fixedCursors = v.fixedCursors)
    (hts : u.fixedTypes = v.fixedTypes) :
    u.Leans t t' := by
  cases h with
  | declared found declaration declares other =>
    exact .declared (hts ▸ found) declaration (hcs ▸ declares) other
  | link found undeclared sort link =>
    exact .link (hts ▸ found) undeclared sort ((linkOf?_congr sort).trans link)

end TranslationUnit

namespace Builder

variable {b : Builder} {step : Step} {steps : List Step} {t t' w : TypeId} {kin tied : List TypeId}

/-- The types that a step makes with the layout of another, each with that other. -/
def Step.copies (b : Builder) : Step → List (TypeId × TypeId)
  | constQualified t | elaborated t | attributed t | unexposed t => [(b.nextType, t)]
  | typedefStruct _ _ => [(b.nextType + 1, b.nextType)]
  | _ => []

/-- The pairs in `Step.copies` have the same layout right after the step. -/
theorem Step.layoutAt_copies (h : (w, t) ∈ step.copies b) (ht : t < (step.run b).1.nextType) :
    (step.run b).1.layoutAt w = (step.run b).1.layoutAt t := by
  cases step with
  | constQualified t' | elaborated t' | attributed t' | unexposed t' =>
    obtain ⟨rfl, rfl⟩ : w = b.nextType ∧ t = t' := by simpa [copies] using h
    exact layoutAt_push rfl rfl ht
  | typedefStruct name fields =>
    obtain ⟨rfl, rfl⟩ : w = b.nextType + 1 ∧ t = b.nextType := by simpa [copies] using h
    exact (b.layoutAt_typedefStruct name fields).1
  | _ => simp [copies] at h

/-! ## New types -/

theorem fixedTypes_push {b' : Builder} {entry : TypeEntry}
    (h : b'.unit.types = b.unit.types.push entry) :
    b'.unit.fixedTypes = b.unit.fixedTypes ++ [entry.fixed] := by
  simp [TranslationUnit.fixedTypes, h]

theorem eq_of_push {b' : Builder} {entry : TypeEntry}
    (h : b'.unit.fixedTypes = b.unit.fixedTypes ++ [entry]) (hnew : b.nextType ≤ t)
    (ht : t < b'.unit.fixedTypes.length) :
    t = b.nextType ∧ b'.unit.fixedTypes[t]? = some entry := by
  obtain rfl : t = b.nextType := by
    rw [h, List.length_append, length_fixedTypes] at ht
    exact Nat.le_antisymm (Nat.lt_succ_iff.1 ht) hnew
  refine ⟨rfl, ?_⟩
  rw [h, ← length_fixedTypes, List.getElem?_concat_length]

theorem leans_push {b' : Builder} {entry : TypeEntry} (h : b'.unit.types = b.unit.types.push entry)
    (hnone : entry.declaration = none) (hnew : b.nextType ≤ t) (hleans : b'.unit.Leans t t') :
    t = b.nextType ∧ b'.unit.linkOf? entry.fixed = some t' := by
  obtain ⟨rfl, hfound⟩ := eq_of_push (fixedTypes_push h) hnew hleans.lt_length
  exact ⟨rfl, hleans.eq_link hfound hnone⟩

theorem not_leans_declare {b' : Builder} {entry : TypeEntry} {cursor : Cursor}
    (h : b'.unit.fixedTypes = b.unit.fixedTypes ++ [entry])
    (hc : entry.declaration = some b.nextCursor)
    (hcursor : b'.unit.fixedCursors[b.nextCursor]? = some cursor) (hself : cursor.type = b.nextType)
    (hnew : b.nextType ≤ t) : ¬ b'.unit.Leans t t' := by
  intro hleans
  obtain ⟨rfl, hfound⟩ := eq_of_push h hnew hleans.lt_length
  exact (hleans.eq_declared hfound hc hcursor).2 hself

private theorem fixedTypes_defineRecord (b : Builder) (t : TypeId) (fields : NamedTypes) :
    (b.defineRecord t fields).unit.fixedTypes = b.unit.fixedTypes := by
  have hextended : b.unit.fixedTypes <+: (b.defineRecord t fields).unit.fixedTypes :=
    (b.prefixes_after [.defineRecord t fields]).2
  refine (hextended.eq_of_length ?_).symm
  rw [length_fixedTypes, length_fixedTypes, nextType_defineRecord]

theorem addRecord_fixed (b : Builder) (tag : RecordTag) (name spelling : String) (anonymous : Bool)
    (fields : Option NamedTypes) : ∃ entry cursor,
      (b.addRecord tag name spelling anonymous fields).1.unit.fixedTypes = b.unit.fixedTypes ++
        [entry] ∧
      entry.declaration = some b.nextCursor ∧
      (b.addRecord tag name spelling anonymous fields).1.unit.fixedCursors[b.nextCursor]? =
        some cursor ∧
      cursor.type = b.nextType := by
  let cursor : Cursor :=
    { kind := recordCursorKind tag, spelling := name, type := b.nextType, anonymous,
      position := b.positionAfter 0 }
  let entry : TypeEntry :=
    { kind := .record, spelling, declaration := some b.nextCursor, size := Layout.incomplete,
      align := Layout.incomplete }
  let b' := ((b.addCursor cursor).skipLines 1).addType entry
  have htypes : b'.unit.fixedTypes = b.unit.fixedTypes ++ [entry.fixed] := fixedTypes_addType _ _
  have hcursors : b'.unit.fixedCursors[b.nextCursor]? = some cursor.fixed := by
    have hadded : b'.unit.fixedCursors = b.unit.fixedCursors ++ [cursor.fixed] :=
      fixedCursors_addCursors b [cursor]
    rw [hadded, ← length_fixedCursors, List.getElem?_concat_length]
  refine ⟨entry.fixed, cursor.fixed, ?_, rfl, ?_, rfl⟩
  · cases fields with
    | none => exact htypes
    | some fields => exact (fixedTypes_defineRecord b' _ fields).trans htypes
  · cases fields with
    | none => exact hcursors
    | some fields =>
      exact getElem?_extended (b'.prefixes_after [.defineRecord b.nextType fields]).1 hcursors

private theorem not_leans_addRecord (tag : RecordTag) (name spelling : String) (anonymous : Bool)
    (fields : Option NamedTypes) (hnew : b.nextType ≤ t) :
    ¬ (b.addRecord tag name spelling anonymous fields).1.unit.Leans t t' := by
  obtain ⟨entry, cursor, htypes, hc, hcursor, hself⟩ :=
    b.addRecord_fixed tag name spelling anonymous fields
  exact not_leans_declare htypes hc hcursor hself hnew

theorem leans_of_addTopLevel {b : Builder} {c : CursorId} (h : (b.addTopLevel c).unit.Leans t t') :
    b.unit.Leans t t' := by
  have hchildren : ∀ root : Cursor,
      Cursor.fixed { root with children := root.children ++ [c] } = root.fixed :=
    fun _ => rfl
  exact h.congr (fixedCursors_modifyCursor hchildren _ _).symm rfl

private theorem not_leans_namedRecord (tag : RecordTag) (name : String) (fields : Option NamedTypes)
    (hnew : b.nextType ≤ t) : ¬ (b.namedRecord tag name fields).1.unit.Leans t t' := by
  unfold namedRecord
  exact fun h => not_leans_addRecord _ _ _ _ _ hnew (leans_of_addTopLevel h)

private theorem not_leans_typedef (name : String) (underlying : TypeId) (hnew : b.nextType ≤ t) :
    ¬ (b.typedef name underlying).1.unit.Leans t t' := by
  obtain ⟨cursor, hcursor, -, hself, -⟩ := b.typedef_fixedCursors name underlying
  have htypes : (b.typedef name underlying).1.unit.types = b.unit.types.push _ := rfl
  exact not_leans_declare (fixedTypes_push htypes) rfl hcursor hself hnew

private theorem linkOf?_of_primitiveLayout? {longSize : Int} {kind : TypeKind}
    {layout : String × Int} (h : primitiveLayout? longSize kind = some layout) (u : TranslationUnit)
    {entry : TypeEntry} (hkind : entry.kind = kind) : u.linkOf? entry = none := by
  unfold TranslationUnit.linkOf?
  rw [hkind]
  cases kind with
  | attributed | elaborated | unexposed | typedef => cases h
  | _ => rfl

private theorem not_leans_primitive (kind : TypeKind) (hnew : b.nextType ≤ t) :
    ¬ (b.primitive kind).1.unit.Leans t t' := by
  intro hleans
  unfold primitive at hleans
  split at hleans
  · have hlt := hleans.lt_length
    rw [length_fixedTypes] at hlt
    exact Nat.not_le_of_lt hlt hnew
  · split at hleans
    · have hlt := hleans.lt_length
      rw [length_fixedTypes] at hlt
      exact Nat.not_le_of_lt hlt hnew
    · next layout =>
      obtain ⟨-, hlink⟩ := leans_push rfl rfl hnew hleans
      cases (linkOf?_of_primitiveLayout? layout _ rfl).symm.trans hlink

def enumInteger (values : List (String × Int)) : TypeKind :=
  if values.any (·.2 < 0) then .int else .uInt

theorem addEnum_fixed (b : Builder) (name spelling : String) (anonymous : Bool)
    (values : List (String × Int)) :
    ∃ entry cursor constants,
      (b.addEnum name spelling anonymous values).1.unit.fixedTypes =
        (b.primitive (enumInteger values)).1.unit.fixedTypes ++ [entry] ∧
      entry.declaration = some (b.primitive (enumInteger values)).1.nextCursor ∧
      (b.addEnum name spelling anonymous values).1.unit.fixedCursors =
        (b.primitive (enumInteger values)).1.unit.fixedCursors ++ [cursor] ++ constants ∧
      cursor.type = (b.primitive (enumInteger values)).1.nextType :=
  ⟨_, _, _, fixedTypes_addType _ _, congrArg some (nextCursor_primitive b _).symm,
    (fixedCursors_addCursors _ _).trans (congrArg (· ++ _) (fixedCursors_addCursors _ [_])), rfl⟩

theorem not_leans_addEnum (hb : b.Sound) (name spelling : String) (anonymous : Bool)
    (values : List (String × Int)) (hnew : b.nextType ≤ t) :
    ¬ (b.addEnum name spelling anonymous values).1.unit.Leans t t' := by
  obtain ⟨entry, cursor, constants, htypes, hc, hcursors, hself⟩ :=
    b.addEnum_fixed name spelling anonymous values
  have hsound := ((Step.primitive (enumInteger values)).run_sound hb (by simp [Step.references])).1
  intro hleans
  by_cases hlt : t < (b.primitive (enumInteger values)).1.nextType
  · refine not_leans_primitive (enumInteger values) hnew
      (hleans.of_extended hsound.grounded ?_ ?_ ?_)
    · exact hcursors ▸ (List.prefix_append _ _).trans (List.prefix_append _ _)
    · exact htypes ▸ List.prefix_append _ _
    · exact Nat.lt_of_lt_of_eq hlt (length_fixedTypes _).symm
  · refine not_leans_declare htypes hc ?_ hself (Nat.le_of_not_lt hlt) hleans
    rw [hcursors, List.append_assoc, ← length_fixedCursors,
      List.getElem?_append_right (Nat.le_refl _), Nat.sub_self]
    rfl

private theorem not_leans_namedEnum (hb : b.Sound) (name : String) (values : List (String × Int))
    (hnew : b.nextType ≤ t) :
    ¬ (b.namedEnum name values).1.unit.Leans t t' := by
  unfold namedEnum
  exact fun h => not_leans_addEnum hb _ _ _ _ hnew (leans_of_addTopLevel h)

private theorem not_leans_anonymousEnum (hb : b.Sound) (values : List (String × Int))
    (topLevel : Bool) (hnew : b.nextType ≤ t) :
    ¬ (b.anonymousEnum values topLevel).1.unit.Leans t t' := by
  cases topLevel with
  | false => exact not_leans_addEnum hb _ _ _ _ hnew
  | true =>
    simp only [anonymousEnum, if_true]
    exact fun h => not_leans_addEnum hb _ _ _ _ hnew (leans_of_addTopLevel h)

theorem leans_copy {b' : Builder} {s : TypeId} {entry : TypeEntry} {c : CursorId} (hb : b.Sound)
    (htypes : b'.unit.types = b.unit.types.push entry)
    (hcursors : b'.unit.fixedCursors = b.unit.fixedCursors) (hs : s < b.nextType)
    (hentry : entry.declaration = some c) (hc : (b.typeAt s).declaration = some c)
    (hnew : b.nextType ≤ t) (hleans : b'.unit.Leans t t') :
    t = b.nextType ∧ (t' = s ∨ s < b.nextType ∧ b.unit.Leans s t') := by
  have hfixed := TranslationUnit.fixedTypes_getElem?
    (TranslationUnit.typeAt_eq_ok.1 (typeAt_of_lt hs))
  obtain ⟨cursor, hcursor, -⟩ := (hb.grounded.types s _ hfixed).declaration c hc
  obtain ⟨rfl, hfound⟩ := eq_of_push (fixedTypes_push htypes) hnew hleans.lt_length
  obtain ⟨rfl, -⟩ := hleans.eq_declared hfound hentry (hcursors ▸ hcursor)
  refine ⟨rfl, ?_⟩
  by_cases hself : cursor.type = s
  · exact Or.inl hself
  · exact Or.inr ⟨hs, .declared hfixed hc hcursor hself⟩

private theorem leans_constQualified {s : TypeId} (hb : b.Sound) (hs : s < b.nextType)
    (hnew : b.nextType ≤ t) (h : (b.constQualified s).1.unit.Leans t t') :
    t = b.nextType ∧ (t' = s ∨ s < b.nextType ∧ b.unit.Leans s t') := by
  have htypes : (b.constQualified s).1.unit.types = b.unit.types.push _ := rfl
  cases hc : (b.typeAt s).declaration with
  | some c => exact leans_copy hb htypes rfl hs hc hc hnew h
  | none =>
    have hfixed := TranslationUnit.fixedTypes_getElem?
      (TranslationUnit.typeAt_eq_ok.1 (typeAt_of_lt hs))
    obtain ⟨rfl, hfound⟩ := eq_of_push (fixedTypes_push htypes) hnew h.lt_length
    refine ⟨rfl, Or.inr ⟨hs, ?_⟩⟩
    cases h with
    | declared found declaration =>
      cases hfound.symm.trans found
      cases hc.symm.trans declaration
    | link found undeclared sort link =>
      cases hfound.symm.trans found
      have hexposed : (b.typeAt s).kind ≠ .unexposed := by
        intro hunexposed
        simp [TranslationUnit.linkOf?, TypeEntry.fixed, hunexposed] at link
      have hsame := @TranslationUnit.linkOf?_of_exposed b.unit (b.typeAt s).fixed hexposed
        ("const " ++ (b.typeAt s).spelling) none
      exact .link hfixed hc sort
        (hsame.symm.trans ((TranslationUnit.linkOf?_congr sort).trans link))

private theorem leans_elaborated {s : TypeId} (hb : b.Sound) (hs : s < b.nextType)
    (hnew : b.nextType ≤ t) (h : (b.elaborated s).1.unit.Leans t t') :
    t = b.nextType ∧ (t' = s ∨ s < b.nextType ∧ b.unit.Leans s t') := by
  have htypes : (b.elaborated s).1.unit.types = b.unit.types.push _ := rfl
  cases hc : (b.typeAt s).declaration with
  | some c => exact leans_copy hb htypes rfl hs hc hc hnew h
  | none =>
    obtain ⟨rfl, hlink⟩ := leans_push htypes hc hnew h
    cases hlink
    exact ⟨rfl, Or.inl rfl⟩

theorem leans_typedefStruct (name : String) (fields : NamedTypes) (hnew : b.nextType ≤ t)
    (h : (b.typedefStruct name fields).1.unit.Leans t t') :
    t = b.nextType + 1 ∧ t' = b.nextType := by
  obtain ⟨record, cursor, htypes, hc, hcursor, hself⟩ :=
    b.addRecord_fixed .struct "" name false (some fields)
  let bRecord := (b.addRecord .struct "" name false (some fields)).1
  let bWrapped := (bRecord.elaborated b.nextType).1
  change (bWrapped.typedef name bRecord.nextType).1.unit.Leans t t' at h
  have hrecord : bRecord.nextType = b.nextType + 1 := nextType_addRecord ..
  have hwrapped : bWrapped.nextType = b.nextType + 2 :=
    (nextType_addType ..).trans (congrArg (· + 1) hrecord)
  by_cases hlt : t < bWrapped.nextType
  · obtain ⟨hcursors, hwrappedTypes⟩ := bWrapped.prefixes_after [.typedef name bRecord.nextType]
    have hdeclares := getElem?_extended hcursors hcursor
    have hfound : bRecord.unit.fixedTypes[b.nextType]? = some record := by
      rw [htypes, ← length_fixedTypes, List.getElem?_concat_length]
    have hadded : bWrapped.unit.fixedTypes = bRecord.unit.fixedTypes ++ [_] :=
      fixedTypes_addType _ _
    rcases Nat.lt_or_ge t bRecord.nextType with hold | hlast
    · obtain rfl : t = b.nextType :=
        Nat.le_antisymm (Nat.lt_succ_iff.1 (Nat.lt_of_lt_of_eq hold hrecord)) hnew
      have hkept : bWrapped.unit.fixedTypes[b.nextType]? = some record :=
        getElem?_extended (hadded ▸ List.prefix_append _ _) hfound
      exact absurd hself (h.eq_declared (getElem?_extended hwrappedTypes hkept) hc hdeclares).2
    · obtain ⟨rfl, hwrapper⟩ :=
        eq_of_push hadded hlast (Nat.lt_of_lt_of_eq hlt (length_fixedTypes _).symm)
      have hdeclaration : (bRecord.typeAt b.nextType).declaration = some b.nextCursor := by
        obtain ⟨entry, hentry, rfl⟩ := TranslationUnit.typeAt_of_fixedTypes hfound
        rw [typeAt_of_ok hentry]
        exact hc
      obtain ⟨rfl, -⟩ := h.eq_declared (getElem?_extended hwrappedTypes hwrapper) hdeclaration
        hdeclares
      exact ⟨hrecord, hself⟩
  · exact absurd h (not_leans_typedef name bRecord.nextType (Nat.le_of_not_lt hlt))

/-- A new type that `Leans` on another is in `Step.copies`, with that type or with one that leans on
it. -/
theorem Step.copies_of_leans (hb : b.Sound) (hgiven : ∀ t ∈ step.references, t < b.nextType)
    (hnew : b.nextType ≤ t) (h : (step.run b).1.unit.Leans t t') :
    ∃ s, (t, s) ∈ step.copies b ∧ (t' = s ∨ s < b.nextType ∧ b.unit.Leans s t') := by
  have hnone : (step.run b).1.nextType = b.nextType → ∃ s, (t, s) ∈ step.copies b ∧
      (t' = s ∨ s < b.nextType ∧ b.unit.Leans s t') := by
    intro hsame
    have hlt := h.lt_length
    rw [length_fixedTypes, hsame] at hlt
    exact absurd hnew (Nat.not_le_of_lt hlt)
  cases step with
  | inFile | systemHeader | functionOfType | globalVariable | macroDefinition => exact hnone rfl
  | defineRecord => exact hnone (nextType_defineRecord ..)
  | primitive kind => exact absurd h (not_leans_primitive kind hnew)
  | pointer | constantArray | incompleteArray | functionType | function | staticFunction =>
    obtain ⟨-, hlink⟩ := leans_push rfl rfl hnew h
    cases hlink
  | attributed s | unexposed s =>
    obtain ⟨rfl, hlink⟩ := leans_push rfl rfl hnew h
    cases hlink
    exact ⟨_, List.mem_singleton.2 rfl, Or.inl rfl⟩
  | constQualified s =>
    obtain ⟨rfl, hor⟩ := leans_constQualified hb (hgiven s (List.mem_singleton.2 rfl)) hnew h
    exact ⟨s, List.mem_singleton.2 rfl, hor⟩
  | elaborated s =>
    obtain ⟨rfl, hor⟩ := leans_elaborated hb (hgiven s (List.mem_singleton.2 rfl)) hnew h
    exact ⟨s, List.mem_singleton.2 rfl, hor⟩
  | record tag name fields => exact absurd h (not_leans_namedRecord tag name (some fields) hnew)
  | forwardRecord tag name => exact absurd h (not_leans_namedRecord tag name none hnew)
  | anonymousRecord | unnamedStruct => exact absurd h (not_leans_addRecord _ _ _ _ _ hnew)
  | typedef => exact absurd h (not_leans_typedef _ _ hnew)
  | typedefStruct name fields =>
    obtain ⟨rfl, rfl⟩ := leans_typedefStruct name fields hnew h
    exact ⟨_, List.mem_singleton.2 rfl, Or.inl rfl⟩
  | enum name values => exact absurd h (not_leans_namedEnum hb name values hnew)
  | anonymousEnum values topLevel =>
    exact absurd h (not_leans_anonymousEnum hb values topLevel hnew)

/-! ## Types that are tied -/

/-- The types among `kin` that a step makes as copies, and the originals. -/
def Step.ties (b : Builder) (kin : List TypeId) (step : Step) : List TypeId :=
  ((step.copies b).filter fun copy => copy.1 ∈ kin).flatMap fun copy => [copy.1, copy.2]

private theorem Step.mem_ties (h : (w, t) ∈ step.copies b) (hw : w ∈ kin) :
    w ∈ step.ties b kin ∧ t ∈ step.ties b kin := by
  have hcopy : (w, t) ∈ (step.copies b).filter fun copy => copy.1 ∈ kin :=
    List.mem_filter.2 ⟨h, decide_eq_true hw⟩
  exact ⟨List.mem_flatMap.2 ⟨_, hcopy, by simp⟩, List.mem_flatMap.2 ⟨_, hcopy, by simp⟩⟩

/-- With each copy among `kin` there is the original, and none of these is given fields after the
copy is made. -/
def CompletesInTime (b : Builder) (kin tied : List TypeId) : List Step → Prop
  | [] => True
  | step :: steps =>
      (∀ t ∈ step.completes?, t ∉ tied) ∧ (∀ copy ∈ step.copies b, copy.1 ∈ kin → copy.2 ∈ kin) ∧
      CompletesInTime (step.run b).1 kin (step.ties b kin ++ tied) steps

instance CompletesInTime.decidable (b : Builder) (kin tied : List TypeId) (steps : List Step) :
    Decidable (CompletesInTime b kin tied steps) :=
  match steps with
  | [] => .isTrue trivial
  | step :: steps =>
    have := CompletesInTime.decidable (step.run b).1 kin (step.ties b kin ++ tied) steps
    inferInstanceAs (Decidable (_ ∧ _ ∧ _))

/-- The types among `kin` have the layouts of those they lean on, and are tied to them. -/
def Even (b : Builder) (kin tied : List TypeId) : Prop :=
  ∀ t ∈ kin, ∀ t', b.unit.Leans t t' → t' ∈ kin ∧ t ∈ tied ∧ t' ∈ tied ∧
    b.layoutAt t = b.layoutAt t'

theorem start_even (file triple : String) (pointerBits : Nat) (kin : List TypeId) :
    (start file triple pointerBits).Even kin [] := by
  intro t _ t' h
  have hlt := h.lt_length
  obtain rfl : t = 0 := Nat.lt_one_iff.1 hlt
  cases h.eq_link rfl rfl

private theorem Sound.leans_lt (hb : b.Sound) (h : b.unit.Leans t t') : t' < b.nextType := by
  have ht := Nat.lt_of_lt_of_eq h.lt_length (length_fixedTypes b)
  cases h with
  | declared found declaration declares other =>
    obtain ⟨cursor, hcursor, htype, -⟩ := (hb.grounded.types t _ found).declaration _ declaration
    cases declares.symm.trans hcursor
    exact Nat.lt_of_le_of_lt htype ht
  | @link entry _ found undeclared sort link =>
    have hhandles := (hb.grounded.types t _ found).handles
    have hlt : ∀ handle : Option TypeId, handle.toList ⊆ entry.handles →
        handle.getD TypeId.invalid < b.nextType := by
      intro handle hsub
      cases handle with
      | none => exact hb.invalid
      | some j => exact Nat.lt_trans (hhandles j (hsub (List.mem_singleton.2 rfl))) ht
    unfold TranslationUnit.linkOf? at link
    split at link
    · cases link
      exact hlt _ fun j hj => by simp [TypeEntry.handles, Option.mem_toList.1 hj]
    · cases link
      exact hlt _ fun j hj => by simp [TypeEntry.handles, Option.mem_toList.1 hj]
    · exact Nat.lt_trans (hhandles t' (by simp [TypeEntry.handles, link])) ht
    · contradiction
    · cases link

private theorem Step.lt_of_copies (h : (w, t) ∈ step.copies b)
    (hgiven : ∀ t ∈ step.references, t < b.nextType) :
    t < (step.run b).1.nextType := by
  cases step with
  | constQualified | elaborated | attributed | unexposed =>
    obtain ⟨rfl, rfl⟩ := Prod.mk.inj (List.mem_singleton.1 h)
    exact Nat.lt_of_lt_of_le (hgiven _ (List.mem_singleton.2 rfl)) (b.nextType_le_after [_])
  | typedefStruct name fields =>
    obtain ⟨rfl, rfl⟩ := Prod.mk.inj (List.mem_singleton.1 h)
    exact Nat.lt_of_lt_of_eq (Nat.lt_add_of_pos_right (by decide))
      (b.nextType_typedefStruct name fields).symm
  | _ => simp [copies] at h

/-- A step that does not complete what is `tied` keeps `Even`. -/
theorem Even.run (h : b.Even kin tied) (hb : b.Sound)
    (hgiven : ∀ t ∈ step.references, t < b.nextType) (hfree : ∀ t ∈ step.completes?, t ∉ tied)
    (hkin : ∀ copy ∈ step.copies b, copy.1 ∈ kin → copy.2 ∈ kin) :
    (step.run b).1.Even kin (step.ties b kin ++ tied) := by
  have hkept : ∀ t ∈ tied, t < b.nextType → (step.run b).1.layoutAt t = b.layoutAt t :=
    fun t ht hlt => layoutAt_congr (types_run hlt fun hcompletes => hfree t hcompletes ht)
  have hold : ∀ t ∈ kin, ∀ t', b.unit.Leans t t' → t' ∈ kin ∧ t ∈ tied ∧ t' ∈ tied ∧
      (step.run b).1.layoutAt t = (step.run b).1.layoutAt t' := by
    intro t hmem t' hleans
    obtain ⟨hmem', ht, ht', heq⟩ := h t hmem t' hleans
    have hlt : t < b.nextType := Nat.lt_of_lt_of_eq hleans.lt_length (length_fixedTypes b)
    exact ⟨hmem', ht, ht', by rw [hkept t ht hlt, hkept t' ht' (hb.leans_lt hleans), heq]⟩
  intro t hmem t' hleans
  by_cases hlt : t < b.nextType
  · obtain ⟨hcursors, htypes⟩ := b.prefixes_after [step]
    obtain ⟨hmem', ht, ht', heq⟩ := hold t hmem t'
      (hleans.of_extended hb.grounded hcursors htypes
        (Nat.lt_of_lt_of_eq hlt (length_fixedTypes b).symm))
    exact ⟨hmem', List.mem_append_right _ ht, List.mem_append_right _ ht', heq⟩
  · obtain ⟨s, hcopy, hor⟩ := Step.copies_of_leans hb hgiven (Nat.le_of_not_lt hlt) hleans
    have hs := hkin _ hcopy hmem
    obtain ⟨ht, hties⟩ := Step.mem_ties hcopy hmem
    have hcopied := Step.layoutAt_copies hcopy (Step.lt_of_copies hcopy hgiven)
    rcases hor with rfl | ⟨-, hleans'⟩
    · exact ⟨hs, List.mem_append_left _ ht, List.mem_append_left _ hties, hcopied⟩
    · obtain ⟨hmem', -, ht', heq⟩ := hold s hs t' hleans'
      exact ⟨hmem', List.mem_append_left _ ht, List.mem_append_right _ ht', hcopied.trans heq⟩

theorem CompletesInTime.even {returned : List TypeId} (h : CompletesInTime b kin tied steps)
    (hb : b.Sound) (hconnected : Connected b returned steps)
    (hreturned : ∀ t ∈ returned, t < b.nextType) (heven : b.Even kin tied) :
    ∃ tied', (b.after steps).Even kin tied' := by
  induction steps generalizing b tied returned with
  | nil => exact ⟨tied, heven⟩
  | cons step steps ih =>
    obtain ⟨hgiven, hsound, hmade⟩ := hconnected.run hb hreturned
    exact ih h.2.2 hsound hconnected.2 hmade (heven.run hb hgiven h.1 h.2.1)

/-! ## What a reference stands for -/

section Classification

variable (heven : b.Even kin tied) (hlinked : b.unit.Linked)

include heven hlinked

theorem Even.layoutAt_declared {d : TranslationUnit.Declared} (ht : t ∈ kin)
    (hd : b.unit.declaredType t = .ok d) :
    b.layoutAt t = b.layoutAt d.type ∧
      (d.entry.kind.isDeclared = false → d.type = t ∧ b.unit.fixedTypes[t]? = some d.entry.fixed ∧
        d.entry.declaration = none) := by
  obtain ⟨entry, hentry, -⟩ := TranslationUnit.declaredType_ok hd
  have hfound := TranslationUnit.fixedTypes_getElem? (TranslationUnit.typeAt_eq_ok.1 hentry)
  cases hc : entry.declaration with
  | none =>
    obtain ⟨cursor, hself⟩ := hlinked.declaredType_self hentry hc
    cases hself.symm.trans hd
    exact ⟨rfl, fun _ => ⟨rfl, hfound, hc⟩⟩
  | some c =>
    obtain ⟨cursor, own, hcursor, howner, hkind, -⟩ := hlinked.owner hentry hc
    cases howner.symm.trans hd
    refine ⟨?_, fun hnot => absurd hkind (by simp [hnot])⟩
    have hdeclares := TranslationUnit.fixedCursors_getElem?
      (TranslationUnit.cursorAt_eq_ok.1 hcursor)
    by_cases hself : cursor.type = t
    · rw [hself]
    · have hleans : b.unit.Leans t cursor.fixed.type := .declared hfound hc hdeclares hself
      exact (heven t ht _ hleans).2.2.2

theorem Even.layoutAt_link {d : TranslationUnit.Declared} (ht : t ∈ kin)
    (hd : b.unit.declaredType t = .ok d) (hkind : d.entry.kind.isDeclared = false)
    (hlink : b.unit.linkOf? d.entry.fixed = some t') :
    t' ∈ kin ∧ b.layoutAt t = b.layoutAt t' := by
  obtain ⟨-, hundeclared⟩ := heven.layoutAt_declared hlinked ht hd
  obtain ⟨-, hfound, hnone⟩ := hundeclared hkind
  have hsort : d.entry.fixed.kind ≠ .typedef := by
    intro hsort
    rw [show d.entry.kind = .typedef from hsort] at hkind
    cases hkind
  obtain ⟨hmem, -, -, hlayout⟩ := heven t ht t' (.link hfound hnone hsort hlink)
  exact ⟨hmem, hlayout⟩

/-- In an `Even` builder, a type has the layout of what it is classified as. -/
theorem Even.layoutAt_classified {kind : Kind} {r : TypeId} (ht : t ∈ kin)
    (h : b.unit.Classifies t kind r) :
    b.layoutAt t = b.layoutAt r := by
  induction h with
  | primitive declared | enum declared | record declared | pointerTypedef declared
  | typedef declared | function declared | pointer declared | array declared =>
    exact (heven.layoutAt_declared hlinked ht declared).1
  | @attributed _ d _ _ declared sort inner ih =>
    have hlink : b.unit.linkOf? d.entry.fixed = some d.entry.modifiedId := by
      simp [TranslationUnit.linkOf?, TypeEntry.fixed, TypeEntry.modifiedId, sort]
    obtain ⟨hmem, hlayout⟩ := heven.layoutAt_link hlinked ht declared (by rw [sort]; rfl) hlink
    exact hlayout.trans (ih hmem)
  | @elaborated _ d _ _ declared sort inner ih =>
    have hlink : b.unit.linkOf? d.entry.fixed = some d.entry.namedId := by
      simp [TranslationUnit.linkOf?, TypeEntry.fixed, TypeEntry.namedId, sort]
    obtain ⟨hmem, hlayout⟩ := heven.layoutAt_link hlinked ht declared (by rw [sort]; rfl) hlink
    exact hlayout.trans (ih hmem)
  | @unexposed _ d _ _ declared sort wrapped inner ih =>
    have hlink : b.unit.linkOf? d.entry.fixed = some (d.entry.canonicalId d.type) := by
      cases hcanonical : d.entry.canonical with
      | none => exact absurd (congrArg (Option.getD · _) hcanonical) wrapped
      | some c =>
        simp [TranslationUnit.linkOf?, TypeEntry.canonicalId, TypeEntry.fixed, sort, hcanonical]
    obtain ⟨hmem, hlayout⟩ := heven.layoutAt_link hlinked ht declared (by rw [sort]; rfl) hlink
    exact hlayout.trans (ih hmem)

end Classification

end Builder
end HeaderSurvey
