import HeaderSurvey.Proofs.Construction
import HeaderSurvey.Proofs.Transparency
import HeaderSurvey.Proofs.Wrappers

/-! Typedefs of pointers. A pointer has a size, and whatever is put on top of it has the same, so a
typedef that leads to a pointer is never opaque. -/
namespace HeaderSurvey

namespace Builder

variable {b : Builder} {step : Step} {steps before later : List Step} {w t : TypeId} {n : Nat}
  {lost : Bool}

/-- One of `steps` is `step`, and `w` is the `nextType` when its turn comes. -/
def Makes (b : Builder) (steps : List Step) (step : Step) (w : TypeId) : Prop :=
  ∃ before later, steps = before ++ step :: later ∧ w = (b.after before).nextType

/-- The type that a step puts a typedef or a wrapper on. -/
def Step.base? : Step → Option TypeId
  | elaborated t | attributed t | unexposed t | typedef _ t => some t
  | _ => none

/-- `LeadsToPointer b steps w n lost`: `w` is a pointer, or `n` typedefs and wrappers, with
qualifiers between them, lead from it to one. `lost` says that there is a qualifier on an
`unexposed` type, which loses what it stands for. -/
inductive LeadsToPointer (b : Builder) (steps : List Step) : TypeId → Nat → Bool → Prop where
  | pointer {t w : TypeId} (made : b.Makes steps (.pointer t) w) : LeadsToPointer b steps w 0 false
  | qualified {t w : TypeId} {n : Nat} {lost : Bool} (made : b.Makes steps (.constQualified t) w)
      (rest : LeadsToPointer b steps t n lost) :
      LeadsToPointer b steps w n (lost || ((b.after steps).typeAt t).kind == .unexposed)
  | link {step : Step} {t w : TypeId} {n : Nat} {lost : Bool} (made : b.Makes steps step w)
      (base : step.base? = some t) (rest : LeadsToPointer b steps t n lost) :
      LeadsToPointer b steps w (n + 1) lost

/-! ## Sizes -/

theorem after_split (b : Builder) (before : List Step) (step : Step) (later : List Step) :
    b.after (before ++ step :: later) = (step.run (b.after before)).1.after later := by
  rw [after_append]
  rfl

theorem typeAt_append_fixed (ht : t < (b.after before).nextType) (later : List Step) :
    ((b.after (before ++ later)).typeAt t).fixed = ((b.after before).typeAt t).fixed := by
  rw [after_append]
  exact typeAt_after_fixed ht later

@[simp] theorem pointerSize_addCursors (b : Builder) (cs : List Cursor) :
    (b.addCursors cs).pointerSize = b.pointerSize := rfl

@[simp] theorem pointerSize_addType (b : Builder) (t : TypeEntry) :
    (b.addType t).pointerSize = b.pointerSize := rfl

@[simp] theorem pointerSize_skipLines (b : Builder) (n : Nat) :
    (b.skipLines n).pointerSize = b.pointerSize := rfl

@[simp] theorem pointerSize_addTopLevel (b : Builder) (c : CursorId) :
    (b.addTopLevel c).pointerSize = b.pointerSize := rfl

@[simp] theorem pointerSize_addFunction (b : Builder) (name : String) (t : TypeId)
    (names : List String) (linkage : Linkage) :
    (b.addFunction name t names linkage).1.pointerSize = b.pointerSize := rfl

@[simp] theorem pointerSize_primitive (b : Builder) (kind : TypeKind) :
    (b.primitive kind).1.pointerSize = b.pointerSize := by
  unfold primitive
  split
  · rfl
  · split <;> rfl

@[simp] theorem pointerSize_defineRecord (b : Builder) (t : TypeId) (fields : NamedTypes) :
    (b.defineRecord t fields).pointerSize = b.pointerSize := by
  unfold defineRecord
  split <;> rfl

@[simp] theorem pointerSize_addRecord (b : Builder) (tag : RecordTag) (name spelling : String)
    (anonymous : Bool) (fields : Option NamedTypes) :
    (b.addRecord tag name spelling anonymous fields).1.pointerSize = b.pointerSize := by
  cases fields <;> simp [addRecord, addCursor]

private theorem pointerSize_namedRecord (b : Builder) (tag : RecordTag) (name : String)
    (fields : Option NamedTypes) :
    (b.namedRecord tag name fields).1.pointerSize = b.pointerSize := by
  simp [namedRecord]

private theorem pointerSize_typedefStruct (b : Builder) (name : String) (fields : NamedTypes) :
    (b.typedefStruct name fields).1.pointerSize = b.pointerSize := by
  simp [typedefStruct, typedef, elaborated, addCursor]

@[simp] theorem pointerSize_addEnum (b : Builder) (name spelling : String) (anonymous : Bool)
    (values : List (String × Int)) :
    (b.addEnum name spelling anonymous values).1.pointerSize = b.pointerSize := by
  simp [addEnum, addCursor]

private theorem pointerSize_namedEnum (b : Builder) (name : String) (values : List (String × Int)) :
    (b.namedEnum name values).1.pointerSize = b.pointerSize := by
  simp [namedEnum]

private theorem pointerSize_anonymousEnum (b : Builder) (values : List (String × Int))
    (topLevel : Bool) :
    (b.anonymousEnum values topLevel).1.pointerSize = b.pointerSize := by
  cases topLevel <;> simp [anonymousEnum]

private theorem pointerSize_function (b : Builder) (name : String) (result : TypeId)
    (parameters : NamedTypes) (variadic : Bool) :
    (b.function name result parameters variadic).1.pointerSize = b.pointerSize := by
  simp [function, functionType]

private theorem pointerSize_staticFunction (b : Builder) (name : String) (result : TypeId) :
    (b.staticFunction name result).1.pointerSize = b.pointerSize := by
  simp [staticFunction, functionType]

theorem pointerSize_run (b : Builder) (step : Step) :
    (step.run b).1.pointerSize = b.pointerSize := by
  cases step with
  | primitive => exact pointerSize_primitive ..
  | defineRecord => exact pointerSize_defineRecord ..
  | record tag name fields => exact pointerSize_namedRecord b tag name (some fields)
  | forwardRecord tag name => exact pointerSize_namedRecord b tag name none
  | anonymousRecord | unnamedStruct => exact pointerSize_addRecord ..
  | typedefStruct => exact pointerSize_typedefStruct ..
  | enum => exact pointerSize_namedEnum ..
  | anonymousEnum => exact pointerSize_anonymousEnum ..
  | function => exact pointerSize_function ..
  | staticFunction => exact pointerSize_staticFunction ..
  | _ => rfl

private theorem pointerSize_after (b : Builder) (steps : List Step) :
    (b.after steps).pointerSize = b.pointerSize := by
  induction steps generalizing b with
  | nil => rfl
  | cons step steps ih => exact (ih _).trans (pointerSize_run b step)

private theorem ofFields_size_nonneg (union : Bool) (b : Builder) (fields : NamedTypes) :
    0 ≤ (RecordLayout.ofFields union (fields.map (b.fieldExtent ·.2))).size := by
  cases union with
  | false => exact ((b.recordLayout_natural .struct fields).nonneg (b.fieldExtents_proper fields)).1
  | true => exact ((b.recordLayout_natural .union fields).nonneg (b.fieldExtents_proper fields)).1

theorem size_defineRecord (h : 0 ≤ (b.typeAt t).size) (fields : NamedTypes) :
    0 ≤ ((b.defineRecord t fields).typeAt t).size := by
  unfold defineRecord
  split
  · exact h
  · next c hdeclaration =>
    have hfound : b.unit.types[t]? = some (b.typeAt t) := by
      rcases b.typeAt_cases t with hfound | hmissing
      · exact hfound
      · rw [hmissing] at hdeclaration
        cases hdeclaration
    extract_lets union layout cursors ids
    simp only [typeAt, Array.getD_eq_getD_getElem?, modifyType, Array.getElem?_modify, if_true]
    change 0 ≤ TypeEntry.size (Option.getD (Option.map _ b.unit.types[t]?) _)
    rw [hfound]
    exact ofFields_size_nonneg union b fields

theorem size_run (hw : w < b.nextType) (h : 0 ≤ (b.typeAt w).size) (step : Step) :
    0 ≤ ((step.run b).1.typeAt w).size := by
  by_cases hcompletes : w ∈ step.completes?
  · obtain ⟨fields, rfl⟩ := Step.eq_defineRecord hcompletes
    exact size_defineRecord h fields
  · rwa [typeAt, Array.getD_eq_getD_getElem?, types_run hw hcompletes,
      ← Array.getD_eq_getD_getElem?]

private theorem size_after (hw : w < b.nextType) (h : 0 ≤ (b.typeAt w).size) (steps : List Step) :
    0 ≤ ((b.after steps).typeAt w).size := by
  induction steps generalizing b with
  | nil => exact h
  | cons step steps ih =>
    exact ih (Nat.lt_of_lt_of_le hw (b.nextType_le_after [step])) (size_run hw h step)

/-! ## Types that steps make -/

theorem typeAt_of_lt (h : t < b.nextType) : b.unit.typeAt t = .ok (b.typeAt t) := by
  rw [TranslationUnit.typeAt_eq_ok, typeAt]
  simp [show t < b.unit.types.size from h]

theorem Makes.of_take (i : Nat) (hsplit : steps = steps.take i ++ step :: steps.drop (i + 1))
    (hnext : (b.after (steps.take i)).nextType = w) : b.Makes steps step w :=
  ⟨_, _, hsplit, hnext.symm⟩

/-- A type that a step of `Makes` adds has for good what is `fixed` about it. -/
theorem Makes.fixed (h : b.Makes steps step w) {entryOf : Builder → TypeEntry}
    (hrun : ∀ b, (step.run b).1.unit.types = b.unit.types.push (entryOf b)) :
    ∃ before later, steps = before ++ step :: later ∧ w = (b.after before).nextType ∧
      w < (b.after steps).nextType ∧
      ((b.after steps).typeAt w).fixed = (entryOf (b.after before)).fixed := by
  obtain ⟨before, later, rfl, rfl⟩ := h
  have hadded := hrun (b.after before)
  have hlt : (b.after before).nextType < (step.run (b.after before)).1.nextType := by
    simp [nextType, hadded]
  refine ⟨before, later, rfl, rfl, ?_⟩
  rw [after_split]
  exact ⟨Nat.lt_of_lt_of_le hlt (nextType_le_after _ later),
    (typeAt_after_fixed hlt later).trans (congrArg TypeEntry.fixed (typeAt_push hadded))⟩

theorem Makes.pointer (h : b.Makes steps (.pointer t) w) : w < (b.after steps).nextType ∧
    ((b.after steps).typeAt w).kind = .pointer ∧ ((b.after steps).typeAt w).declaration = none := by
  obtain ⟨_, _, _, _, hlt, hfixed⟩ := h.fixed fun _ => rfl
  exact ⟨hlt, congrArg TypeEntry.kind hfixed, congrArg TypeEntry.declaration hfixed⟩

/-- `constQualified` makes a copy without the `canonical` type. -/
theorem Makes.qualified (h : b.Makes steps (.constQualified t) w) (ht : t < w) :
    w < (b.after steps).nextType ∧ ∃ spelling, ((b.after steps).typeAt w).fixed =
      TypeEntry.fixed { (b.after steps).typeAt t with spelling, canonical := none } := by
  obtain ⟨before, later, rfl, rfl, hlt, hfixed⟩ := h.fixed fun _ => rfl
  have hkept := typeAt_append_fixed ht (.constQualified t :: later)
  let qualify (entry : TypeEntry) : TypeEntry :=
    { entry with spelling := "const " ++ ((b.after before).typeAt t).spelling, canonical := none }
  exact ⟨hlt, _, hfixed.trans (congrArg qualify hkept.symm)⟩

private theorem wraps_of_fixed {entry : TypeEntry} (hw : w < b.nextType)
    (hfixed : (b.typeAt w).fixed = entry.fixed) (hkind : entry.kind ≠ .typedef)
    (hlink : b.unit.linkOf? entry = some t) : b.unit.Wraps w t := by
  have hentry := typeAt_of_lt hw
  refine ⟨b.typeAt w, hentry, ?_, ?_⟩
  · have hsame : (b.typeAt w).fixed.kind = entry.fixed.kind := by rw [hfixed]
    rwa [show (b.typeAt w).kind = entry.kind from hsame]
  · calc b.unit.link? w = b.unit.linkOf? (b.typeAt w) := TranslationUnit.link?_eq hentry
      _ = b.unit.linkOf? (b.typeAt w).fixed := rfl
      _ = b.unit.linkOf? entry := by rw [hfixed]; rfl
      _ = some t := hlink

theorem Makes.wraps (h : b.Makes steps step w) (hbase : step.base? = some t)
    (hwrapper : ∀ name, step ≠ .typedef name t) : (b.after steps).unit.Wraps w t := by
  cases step with
  | elaborated | attributed | unexposed =>
    cases hbase
    obtain ⟨_, _, _, _, hlt, hfixed⟩ := h.fixed fun _ => rfl
    exact wraps_of_fixed hlt hfixed (by simp) rfl
  | typedef name s =>
    cases hbase
    exact absurd rfl (hwrapper name)
  | _ => cases hbase

theorem typedef_fixedCursors (b : Builder) (name : String) (t : TypeId) :
    ∃ cursor : Cursor, (b.typedef name t).1.unit.fixedCursors[b.nextCursor]? = some cursor ∧
      cursor.kind = .typedefDecl ∧ cursor.type = b.nextType ∧ cursor.underlying = some t := by
  let cursor : Cursor :=
    { kind := .typedefDecl, spelling := name, type := b.nextType, position := b.positionAfter 0,
      underlying := some t }
  have hchildren : ∀ root : Cursor,
      Cursor.fixed { root with children := root.children ++ [b.nextCursor] } = root.fixed :=
    fun _ => rfl
  have hadded : (b.typedef name t).1.unit.fixedCursors = b.unit.fixedCursors ++ [cursor.fixed] :=
    (fixedCursors_modifyCursor hchildren _ _).trans (fixedCursors_addCursors b [cursor])
  refine ⟨cursor.fixed, ?_, rfl, rfl, rfl⟩
  rw [hadded, ← length_fixedCursors, List.getElem?_concat_length]

theorem Makes.typedef {name : String} (h : b.Makes steps (.typedef name t) w) :
    w < (b.after steps).nextType ∧ ((b.after steps).typeAt w).kind = .typedef ∧
      ∃ cursor, (b.after steps).unit.declaredType w = .ok ⟨w, (b.after steps).typeAt w, cursor⟩ ∧
        cursor.underlyingId = t := by
  obtain ⟨before, later, rfl, rfl, hlt, hfixed⟩ := h.fixed fun _ => rfl
  obtain ⟨cursor, hadded, hsort, htype, hunderlying⟩ := (b.after before).typedef_fixedCursors name t
  have hkept : (b.after (before ++ .typedef name t :: later)).unit.fixedCursors[(b.after
      before).nextCursor]? =
      some cursor := by
    rw [after_split]
    exact getElem?_extended (prefixes_after _ later).1 hadded
  generalize b.after (before ++ .typedef name t :: later) = final at hlt hfixed hkept
  obtain ⟨cursor, hcursor, rfl⟩ := TranslationUnit.cursorAt_of_fixedCursors hkept
  have hentry := typeAt_of_lt hlt
  have hkind : (final.typeAt (b.after before).nextType).kind = .typedef :=
    congrArg TypeEntry.kind hfixed
  have hdeclaration : (final.typeAt (b.after before).nextType).declaration =
      some (b.after before).nextCursor :=
    congrArg TypeEntry.declaration hfixed
  have hdeclarationOf : final.unit.declarationOf (final.typeAt (b.after before).nextType) =
      .ok cursor := by
    rw [TranslationUnit.declarationOf, TypeEntry.declarationId, hdeclaration]
    exact hcursor
  refine ⟨hlt, hkind, cursor, ?_, congrArg (Option.getD · TypeId.invalid) hunderlying⟩
  have hself : cursor.type = (b.after before).nextType := htype
  have hsome : cursor.kind ≠ .noDeclFound := by simp [show cursor.kind = .typedefDecl from hsort]
  have hown : final.unit.typeAt cursor.type = .ok (final.typeAt (b.after before).nextType) := by
    rwa [hself]
  have hdeclared := TranslationUnit.declaredType_declared hentry hdeclarationOf hsome hown
    (by simp [hkind])
  rwa [hself] at hdeclared

/-! ## The way to the pointer -/

theorem Makes.reference_lt (h : b.Makes steps step w) (hconnected : Connected b [] steps)
    (hb : b.Sound) (ht : t ∈ step.references) : t < w := by
  obtain ⟨before, later, rfl, rfl⟩ := h
  obtain ⟨returned, ⟨hgiven, -⟩, hsound, hreturned⟩ := hconnected.suffix hb (by simp)
  rcases hgiven t ht with rfl | hmem
  · exact hsound.invalid
  · exact hreturned t hmem

theorem Step.base?_mem (h : step.base? = some t) : t ∈ step.references := by
  cases step with
  | elaborated | attributed | unexposed | typedef =>
    cases h
    exact List.mem_singleton.2 rfl
  | _ => cases h

/-- `w` has a size at all times from when it is made. -/
def Sized (b : Builder) (steps : List Step) (w : TypeId) : Prop :=
  ∀ before later, steps = before ++ later → w < (b.after before).nextType →
    0 ≤ ((b.after before).typeAt w).size

theorem Makes.sized (h : b.Makes steps step w) {entryOf : Builder → TypeEntry}
    (hrun : ∀ b, (step.run b).1.unit.types = b.unit.types.push (entryOf b))
    (hsize : ∀ before later, steps = before ++ later → w = (b.after before).nextType →
      0 ≤ (entryOf (b.after before)).size) : b.Sized steps w := by
  obtain ⟨before', later', rfl, rfl⟩ := h
  intro before later hsplit hw
  have hadded := hrun (b.after before')
  -- The step is among the first ones, as the type is there after them.
  rcases List.append_eq_append_iff.1 hsplit with ⟨mid, rfl, hmid⟩ | ⟨mid, rfl, -⟩
  · cases mid with
    | nil =>
      rw [List.append_nil] at hw
      exact absurd hw (Nat.lt_irrefl _)
    | cons step' mid =>
      cases hmid
      rw [after_split]
      refine size_after (by simp [nextType, hadded]) ?_ mid
      rw [typeAt_push hadded]
      exact hsize before' _ rfl rfl
  · rw [after_append] at hw
    exact absurd hw (Nat.not_lt_of_le (nextType_le_after _ mid))

theorem Makes.sized_copy (h : b.Makes steps step w) {entryOf : Builder → TypeEntry}
    (hrun : ∀ b, (step.run b).1.unit.types = b.unit.types.push (entryOf b))
    (hcopy : ∀ b, (entryOf b).size = (b.typeAt t).size) (ht : t < w) (hsized : b.Sized steps t) :
    b.Sized steps w := by
  refine h.sized hrun ?_
  rintro before later hsplit rfl
  rw [hcopy]
  exact hsized before later hsplit ht

theorem LeadsToPointer.sized (h : b.LeadsToPointer steps w n lost)
    (hconnected : Connected b [] steps) (hb : b.Sound) (hpointer : 0 ≤ b.pointerSize) :
    b.Sized steps w := by
  induction h with
  | pointer made =>
    refine made.sized (fun _ => rfl) ?_
    rintro before - - -
    change 0 ≤ (b.after before).pointerSize
    rwa [pointerSize_after]
  | @qualified t w n lost made rest ih =>
    have ht := made.reference_lt hconnected hb (List.mem_singleton.2 rfl)
    exact made.sized_copy (fun _ => rfl) (fun _ => rfl) ht ih
  | @link step t w n lost made base rest ih =>
    have ht := made.reference_lt hconnected hb (Step.base?_mem base)
    cases step with
    | elaborated | attributed | unexposed | typedef =>
      cases base
      exact made.sized_copy (fun _ => rfl) (fun _ => rfl) ht ih
    | _ => cases base

end Builder

namespace TranslationUnit

variable {u : TranslationUnit} {w t : TypeId} {n : Nat} {lost : Bool}

/-- What `LeadsToPointer` says of the steps, as the unit has it; the types have sizes. -/
inductive OnPointer (u : TranslationUnit) : TypeId → Nat → Bool → Prop where
  | pointer {t : TypeId} {entry : TypeEntry} (found : u.typeAt t = .ok entry)
      (sort : entry.kind = .pointer) (undeclared : entry.declaration = none)
      (sized : 0 ≤ entry.size) : OnPointer u t 0 false
  | lost {t : TypeId} {n : Nat} {entry : TypeEntry} (found : u.typeAt t = .ok entry)
      (sort : entry.kind = .unexposed) (undeclared : entry.declaration = none)
      (gone : entry.canonical = none) : OnPointer u t n true
  | wrapper {w t : TypeId} {n : Nat} {lost : Bool} (wraps : u.Wraps w t) (below : t < w)
      (rest : OnPointer u t n lost) : OnPointer u w (n + 1) lost
  | typedef {w : TypeId} {n : Nat} {lost : Bool} {d : Declared}
      (declared : u.declaredType w = .ok d) (sort : d.entry.kind = .typedef)
      (sized : 0 ≤ d.entry.size)
      (rest : OnPointer u d.declaration.underlyingId n lost) : OnPointer u w (n + 1) lost

/-- From the limit `n` on `w` is classified, and neither it nor what it stands for is opaque; or,
with the flag, it stands for nothing. -/
def Settles (u : TranslationUnit) (w : TypeId) (n : Nat) : Bool → Prop
  | false => ∃ kind r entry, kind ≠ Kind.opaqueType ∧ u.typeAt r = .ok entry ∧ 0 ≤ entry.size ∧
      ∀ m, n ≤ m → u.classifyWithin (m + 1) w = .ok (kind, r)
  | true => ∃ spelling, ∀ m, n ≤ m →
      u.classifyWithin (m + 1) w = .error (.unknownTypeKind .unexposed spelling)

theorem Valid.pointsToFunction_ok (h : u.Valid) {entry : TypeEntry} (he : entry.InRange u) :
    ∃ toFunction, u.pointsToFunction entry = .ok toFunction := by
  have hfound : ∀ t < u.types.size, ∃ entry, u.typeAt t = .ok entry :=
    fun t ht => ⟨_, typeAt_eq_ok.2 (Array.getElem?_eq_getElem ht)⟩
  obtain ⟨pointee, hpointee⟩ := hfound _ he.pointee
  obtain ⟨t, ht⟩ : ∃ t, u.unwrapAttributed entry.pointeeId = .ok t := by
    simp only [unwrapAttributed, bind_eq_ok_iff, pure_eq_ok_iff]
    exact ⟨_, pointee, hpointee, rfl⟩
  have hlt := h.unwrapAttributed_lt ht
  obtain ⟨unwrapped, hunwrapped⟩ := hfound t hlt
  obtain ⟨canonical, hcanonical⟩ := hfound _ ((h.entry_inRange hunwrapped).canonical t hlt)
  simp only [pointsToFunction, bind_eq_ok_iff, pure_eq_ok_iff]
  exact ⟨_, t, ht, unwrapped, hunwrapped, canonical, hcanonical, rfl⟩

private theorem Linked.settles_pointer (h : u.Linked) (hvalid : u.Valid) {entry : TypeEntry}
    (hentry : u.typeAt t = .ok entry) (hkind : entry.kind = .pointer)
    (hnone : entry.declaration = none) (hsize : 0 ≤ entry.size) : u.Settles t 0 false := by
  obtain ⟨cursor, hself⟩ := h.declaredType_self hentry hnone
  obtain ⟨toFunction, hpointee⟩ := hvalid.pointsToFunction_ok (hvalid.entry_inRange hentry)
  refine ⟨if toFunction then .functionPointer else .pointer, t, entry,
    by cases toFunction <;> simp, hentry, hsize, fun m _ => ?_⟩
  rw [classifyWithin, hself]
  simp [bind, Except.bind, hkind, TypeKind.isPrimitive, hpointee, pure, Except.pure]

private theorem Linked.settles_lost (h : u.Linked) {entry : TypeEntry}
    (hentry : u.typeAt t = .ok entry) (hkind : entry.kind = .unexposed)
    (hnone : entry.declaration = none) (hgone : entry.canonical = none) (n : Nat) :
    u.Settles t n true := by
  obtain ⟨cursor, hself⟩ := h.declaredType_self hentry hnone
  refine ⟨entry.spelling, fun m _ => ?_⟩
  rw [classifyWithin, hself]
  simp [bind, Except.bind, hkind, TypeKind.isPrimitive, TypeEntry.canonicalId, hgone]

theorem Linked.classifyWithin_wrapper (h : u.Linked) (hwraps : u.Wraps w t) (hne : t ≠ w)
    {answer : Except SurveyError (Kind × TypeId)}
    (ht : ∀ m, n ≤ m → u.classifyWithin (m + 1) t = answer) :
    ∀ m, n + 1 ≤ m → u.classifyWithin (m + 1) w = answer := by
  intro m hm
  obtain ⟨m, rfl⟩ : ∃ m', m = m' + 1 := ⟨m - 1, by omega⟩
  rcases h.classifyWithin_wraps_or hwraps hne with hsame | hless
  · exact (hsame _).trans (ht _ (by omega))
  · exact (hless _).trans (ht m (by omega))

private theorem Linked.settles_wrapper (h : u.Linked) (hwraps : u.Wraps w t) (hne : t ≠ w)
    (ht : u.Settles t n lost) :
    u.Settles w (n + 1) lost := by
  cases lost with
  | false =>
    obtain ⟨kind, r, entry, hkind, hentry, hsize, hanswer⟩ := ht
    exact ⟨kind, r, entry, hkind, hentry, hsize, h.classifyWithin_wrapper hwraps hne hanswer⟩
  | true =>
    obtain ⟨spelling, hanswer⟩ := ht
    exact ⟨spelling, h.classifyWithin_wrapper hwraps hne hanswer⟩

section Typedef

variable {d : Declared} {underlying : TypeEntry} (hd : u.declaredType w = .ok d)
  (hkind : d.entry.kind = .typedef)
  (hunderlying : u.typeAt d.declaration.underlyingId = .ok underlying)

include hd hkind hunderlying

theorem Settles.typeAlias (h : u.Settles d.declaration.underlyingId n false) :
    ∀ m, n + 1 ≤ m → u.classifyWithin (m + 1) w = .ok (.typeAlias, d.type) := by
  intro m hm
  obtain ⟨m, rfl⟩ : ∃ m', m = m' + 1 := ⟨m - 1, by omega⟩
  obtain ⟨kind, r, entry, hopaque, hentry, hsize, hanswer⟩ := h
  have hcomplete : entry.size ≠ Layout.incomplete := by
    simp only [Layout.incomplete]
    omega
  rw [classifyWithin, hd]
  simp [bind, Except.bind, hkind, TypeKind.isPrimitive, hunderlying, hanswer m (by omega), hentry,
    hopaque, hcomplete, pure, Except.pure]

theorem Settles.typedef_lost (h : u.Settles d.declaration.underlyingId n true)
    (hpointer : underlying.kind ≠ .pointer) : u.Settles w (n + 1) true := by
  obtain ⟨spelling, hanswer⟩ := h
  refine ⟨spelling, fun m hm => ?_⟩
  obtain ⟨m, rfl⟩ : ∃ m', m = m' + 1 := ⟨m - 1, by omega⟩
  rw [classifyWithin, hd]
  simp [bind, Except.bind, hkind, TypeKind.isPrimitive, hunderlying, hanswer m (by omega), hpointer]

end Typedef

theorem Linked.declared_typedef (h : u.Linked) {d : Declared} (hd : u.declaredType t = .ok d)
    (hkind : d.entry.kind = .typedef) :
    ∃ entry c, u.typeAt t = .ok entry ∧ entry.declaration = some c ∧
      (entry.kind = .typedef ∨ entry.kind = .elaborated) := by
  obtain ⟨entry, hentry, -⟩ := declaredType_ok hd
  cases hc : entry.declaration with
  | none =>
    obtain ⟨cursor, hself⟩ := h.declaredType_self hentry hc
    cases hself.symm.trans hd
    have hundeclared := h.kind_of_undeclared hentry hc
    rw [show entry.kind = .typedef from hkind] at hundeclared
    cases hundeclared
  | some c =>
    obtain ⟨cursor, own, -, hown, -, hsort⟩ := h.owner hentry hc
    cases hown.symm.trans hd
    exact ⟨entry, c, hentry, hc, hsort.imp (·.trans hkind) And.left⟩

private theorem Linked.declaration_of_unexposed (h : u.Linked) {entry : TypeEntry}
    (hentry : u.typeAt t = .ok entry) (hkind : entry.kind = .unexposed) :
    entry.declaration = none := by
  cases hc : entry.declaration with
  | none => rfl
  | some c =>
    obtain ⟨_, own, -, -, hown, hsame | ⟨helaborated, -⟩⟩ := h.owner hentry hc
    · rw [← hsame, hkind] at hown
      cases hown
    · cases hkind.symm.trans helaborated

theorem linkOf?_of_exposed {entry : TypeEntry} (h : entry.kind ≠ .unexposed) {spelling : String}
    {canonical : Option TypeId} :
    u.linkOf? { entry with spelling, canonical } = u.linkOf? entry := by
  obtain ⟨kind⟩ := entry
  cases kind with
  | unexposed => exact absurd rfl h
  | _ => rfl

theorem OnPointer.kind_ne_pointer (h : u.OnPointer t n true) (hlinked : u.Linked)
    {entry : TypeEntry} (hentry : u.typeAt t = .ok entry) : entry.kind ≠ .pointer := by
  intro hkind
  cases h with
  | lost found sort =>
    cases hentry.symm.trans found
    cases hkind.symm.trans sort
  | wrapper wraps =>
    obtain ⟨_, found, -, hlink⟩ := wraps
    cases hentry.symm.trans found
    simp [link?_eq hentry, linkOf?, hkind] at hlink
  | typedef declared sort =>
    obtain ⟨_, -, found, -, hsort⟩ := hlinked.declared_typedef declared sort
    cases hentry.symm.trans found
    simp [hkind] at hsort

private theorem OnPointer.settles (h : u.OnPointer w n lost) (hlinked : u.Linked)
    (hvalid : u.Valid) :
    u.Settles w n lost := by
  induction h with
  | pointer found sort undeclared sized =>
    exact hlinked.settles_pointer hvalid found sort undeclared sized
  | lost found sort undeclared gone => exact hlinked.settles_lost found sort undeclared gone _
  | wrapper wraps below rest ih => exact hlinked.settles_wrapper wraps (Nat.ne_of_lt below) ih
  | @typedef w n lost d declared sort sized rest ih =>
    obtain ⟨entry, hentry, hdeclaration, hown, -⟩ := declaredType_ok declared
    have hlt := (hvalid.cursor_inRange hdeclaration).underlying
    have hunderlying := typeAt_eq_ok.2 (Array.getElem?_eq_getElem hlt)
    cases lost with
    | false =>
      exact ⟨.typeAlias, d.type, d.entry,
        by simp, hown, sized, ih.typeAlias declared sort hunderlying⟩
    | true =>
      exact ih.typedef_lost declared sort hunderlying (rest.kind_ne_pointer hlinked hunderlying)

/-- If all limits from `n` on give one `answer`, a lower limit gives the same or is `Unresolved`. -/
theorem Valid.classifyWithin_settled (h : u.Valid) {answer : Except SurveyError (Kind × TypeId)}
    (hanswer : ∀ m, n ≤ m → u.classifyWithin (m + 1) t = answer)
    (hne : ∀ spelling, answer ≠ .error (.invalidUnit (.unresolved spelling))) (k : Nat) :
    u.classifyWithin (k + 1) t = answer ∧ ¬ Walks u.Follows (k + 1) t ∨
      k < n ∧ u.Unresolved (k + 1) t ∧ Walks u.Follows (k + 1) t := by
  by_cases hwalks : Walks u.Follows (k + 1) t
  · have hunresolved := h.unresolved_iff_walks.2 hwalks
    refine Or.inr ⟨Nat.lt_of_not_le fun hle => ?_, hunresolved, hwalks⟩
    obtain ⟨spelling, herror⟩ := hunresolved
    exact hne spelling ((hanswer k hle).symm.trans herror)
  · refine Or.inl ⟨?_, hwalks⟩
    rw [← hanswer (max k n) (Nat.le_max_right ..)]
    exact (classifyWithin_eq_of_not_walks hwalks (Nat.le_max_left ..)).symm

end TranslationUnit

namespace Builder

variable {b : Builder} {steps : List Step} {w t : TypeId} {n : Nat} {lost : Bool}

/-- A qualifier loses the link of an `unexposed` type, and of no other. -/
theorem onPointer_qualified (hlinked : b.unit.Linked) (ht : t < w) (hw : w < b.nextType)
    {spelling : String}
    (hfixed : (b.typeAt w).fixed = TypeEntry.fixed { b.typeAt t with spelling, canonical := none })
    (hsize : 0 ≤ (b.typeAt w).size) (h : b.unit.OnPointer t n lost) :
    b.unit.OnPointer w n (lost || (b.typeAt t).kind == .unexposed) := by
  have hentry := typeAt_of_lt hw
  have htarget := typeAt_of_lt (Nat.lt_trans ht hw)
  have hkind : (b.typeAt w).kind = (b.typeAt t).kind := (congrArg TypeEntry.kind hfixed :)
  have hdeclaration : (b.typeAt w).declaration = (b.typeAt t).declaration :=
    (congrArg TypeEntry.declaration hfixed :)
  by_cases hunexposed : (b.typeAt t).kind = .unexposed
  · have hnone := hlinked.declaration_of_unexposed htarget hunexposed
    simp only [hunexposed, beq_self_eq_true, Bool.or_true]
    exact .lost hentry (hkind.trans hunexposed) (hdeclaration.trans hnone)
      (congrArg TypeEntry.canonical hfixed)
  · simp only [beq_eq_false_iff_ne.2 hunexposed, Bool.or_false]
    cases h with
    | pointer found sort undeclared =>
      cases htarget.symm.trans found
      exact .pointer hentry (hkind.trans sort) (hdeclaration.trans undeclared) hsize
    | lost found sort =>
      cases htarget.symm.trans found
      exact absurd sort hunexposed
    | wrapper wraps below rest =>
      refine .wrapper ?_ (Nat.lt_trans below ht) rest
      obtain ⟨_, found, hsort, hlink⟩ := wraps
      cases htarget.symm.trans found
      refine wraps_of_fixed hw hfixed hsort ?_
      rw [← hlink, TranslationUnit.link?_eq htarget]
      exact TranslationUnit.linkOf?_of_exposed hunexposed
    | typedef declared sort sized rest =>
      obtain ⟨_, c, found, hc, -⟩ := hlinked.declared_typedef declared sort
      cases htarget.symm.trans found
      have hsame := hlinked.declaredType_named hentry (hdeclaration.trans hc) htarget hc
      exact .typedef (hsame.trans declared) sort sized rest

private theorem LeadsToPointer.onPointer (h : b.LeadsToPointer steps w n lost)
    (hconnected : Connected b [] steps) (hb : b.Sound) (hpointer : 0 ≤ b.pointerSize)
    (hlinked : (b.after steps).unit.Linked) :
    (b.after steps).unit.OnPointer w n lost := by
  have hsize : ∀ {w n lost}, b.LeadsToPointer steps w n lost → w < (b.after steps).nextType →
      0 ≤ ((b.after steps).typeAt w).size :=
    fun h hw => h.sized hconnected hb hpointer steps [] (List.append_nil steps).symm hw
  induction h with
  | pointer made =>
    obtain ⟨hw, hkind, hnone⟩ := made.pointer
    exact .pointer (typeAt_of_lt hw) hkind hnone (hsize (.pointer made) hw)
  | @qualified t w n lost made rest ih =>
    have ht := made.reference_lt hconnected hb (List.mem_singleton.2 rfl)
    obtain ⟨hw, spelling, hfixed⟩ := made.qualified ht
    exact onPointer_qualified hlinked ht hw hfixed (hsize (.qualified made rest) hw) ih
  | @link step t w n lost made base rest ih =>
    have ht := made.reference_lt hconnected hb (Step.base?_mem base)
    cases step with
    | elaborated | attributed | unexposed => exact .wrapper (made.wraps base (by simp)) ht ih
    | typedef name s =>
      cases base
      obtain ⟨hw, hkind, cursor, hdeclared, rfl⟩ := made.typedef
      exact .typedef hdeclared hkind (hsize (.link made rfl rest) hw) ih
    | _ => cases base

end Builder

/-- In a unit that `build` makes of `Connected` steps, a typedef that `LeadsToPointer` over at most
63 typedefs and wrappers is classified as a `typeAlias`, whatever the pointer points to. Over more
of them it is one as long as classification ends within its limit, and whenever it is classified it
is one. -/
theorem classify_pointer_typedef {file triple : String} {pointerBits : Nat}
    {steps : List Builder.Step}
    (hconnected : Builder.Connected (Builder.start file triple pointerBits) [] steps)
    {name : String} {w t : TypeId} {n : Nat} {lost : Bool}
    (hmade : (Builder.start file triple pointerBits).Makes steps (.typedef name t) w)
    (hleads : (Builder.start file triple pointerBits).LeadsToPointer steps t n lost) :
    (lost = false → n ≤ 63 → (Builder.build file triple pointerBits steps).classify w =
      .ok (.typeAlias, w)) ∧
    (lost = false →
      ((Builder.build file triple pointerBits steps).classify w = .ok (.typeAlias, w) ↔
      ¬ Walks (Builder.build file triple pointerBits steps).Follows 65 w)) ∧
    ∀ kind r, (Builder.build file triple pointerBits steps).classify w = .ok (kind, r) →
      kind = .typeAlias ∧ r = w := by
  have hlinked := Builder.build_linked file triple pointerBits steps
  have hvalid := hconnected.valid
  have hsettles : ∀ {s m lost},
      (Builder.start file triple pointerBits).LeadsToPointer steps s m lost →
      (Builder.build file triple pointerBits steps).Settles s m lost := fun h =>
    (h.onPointer hconnected (Builder.start_sound ..) (Int.natCast_nonneg _) hlinked).settles
      hlinked hvalid
  have hclassify : (Builder.build file triple pointerBits steps).classify w =
      (Builder.build file triple pointerBits steps).classifyWithin (64 + 1) w := rfl
  rw [hclassify]
  -- The answer over long enough chains is the answer over the chains in use, unless the typedef is
  -- given up.
  cases lost with
  | false =>
    obtain ⟨-, hkind, cursor, hdeclared, rfl⟩ := hmade.typedef
    obtain ⟨_, -, hdeclaration, -⟩ := TranslationUnit.declaredType_ok hdeclared
    have hlt := (hvalid.cursor_inRange hdeclaration).underlying
    have hunderlying := TranslationUnit.typeAt_eq_ok.2 (Array.getElem?_eq_getElem hlt)
    have halias := (hsettles hleads).typeAlias hdeclared hkind hunderlying
    rcases hvalid.classifyWithin_settled halias (by simp) 64 with
      ⟨hanswer, hwalks⟩ | ⟨hlong, ⟨spelling, herror⟩, hwalks⟩
    · simp [hanswer, hwalks]
    · have hshort : ¬ n ≤ 63 := by omega
      simp [herror, hwalks, hshort]
  | true =>
    obtain ⟨spelling, hlost⟩ := hsettles (.link hmade rfl hleads)
    rcases hvalid.classifyWithin_settled hlost (by simp) 64 with
      ⟨hanswer, -⟩ | ⟨-, ⟨spelling, herror⟩, -⟩
    · simp [hanswer]
    · simp [herror]

def chainName : String := "Handle"

def chainStart : Builder := Builder.start "a.h" "x86_64-unknown-linux-gnu" 64

/-- A typedef of a pointer to a record under a qualifier and an attribute, another typedef of it
under a qualifier, a tag and an unexposed type; the record gets its fields at last. -/
def chainSteps : List Builder.Step :=
  [.forwardRecord .struct chainName, .pointer 1, .constQualified 2, .attributed 3,
    .typedef chainName 4, .constQualified 5, .elaborated 6, .unexposed 7, .typedef chainName 8,
    .primitive .int,
    .defineRecord 1 [("x", 10)]]

theorem classify_chainSteps_typedef :
    Builder.Connected chainStart [] chainSteps ∧
      chainStart.Makes chainSteps (.typedef chainName 8) 9 ∧
      chainStart.LeadsToPointer chainSteps 8 4 false ∧
      (Builder.build "a.h" "x86_64-unknown-linux-gnu" 64 chainSteps).classify 9 =
        .ok (.typeAlias, 9) := by
  have hconnected : Builder.Connected chainStart [] chainSteps := by decide +kernel
  have hmade : chainStart.Makes chainSteps (.typedef chainName 8) 9 := .of_take 8 rfl rfl
  have hpointer : chainStart.LeadsToPointer chainSteps 3 0 false :=
    .qualified (.of_take 2 rfl rfl) (.pointer (.of_take 1 rfl rfl))
  have hinner : chainStart.LeadsToPointer chainSteps 6 2 false :=
    .qualified (.of_take 5 rfl rfl)
      (.link (.of_take 4 rfl rfl) rfl (.link (.of_take 3 rfl rfl) rfl hpointer))
  have hleads : chainStart.LeadsToPointer chainSteps 8 4 false :=
    .link (.of_take 7 rfl rfl) rfl (.link (.of_take 6 rfl rfl) rfl hinner)
  exact ⟨hconnected, hmade, hleads,
    (classify_pointer_typedef hconnected hmade hleads).1 rfl (by decide)⟩

/-- A typedef of a pointer under 64 attributes. -/
def deepSteps : List Builder.Step :=
  [.primitive .int, .pointer 1] ++ (List.range 64).map (fun i => .attributed (i + 2)) ++
    [.typedef chainName 66]

/-- A typedef of a pointer under an unexposed type with a qualifier. -/
def lostSteps : List Builder.Step :=
  [.primitive .int, .pointer 1, .unexposed 2, .constQualified 3, .typedef chainName 4]

theorem classify_deepSteps_not_alias :
    (Builder.Connected chainStart [] deepSteps ∧
      chainStart.Makes deepSteps (.typedef chainName 66) 67 ∧
      chainStart.LeadsToPointer deepSteps 66 64 false ∧
      (Builder.build "a.h" "x86_64-unknown-linux-gnu" 64 deepSteps).classify 67 =
        .error (.invalidUnit (.unresolved "int *"))) ∧
    Builder.Connected chainStart [] lostSteps ∧
      chainStart.Makes lostSteps (.typedef chainName 4) 5 ∧
      chainStart.LeadsToPointer lostSteps 4 1 true ∧
      (Builder.build "a.h" "x86_64-unknown-linux-gnu" 64 lostSteps).classify 5 =
        .error (.unknownTypeKind .unexposed "const int *") := by
  have hmade : ∀ i < 64, deepSteps = deepSteps.take (i + 2) ++ .attributed (i + 2) ::
      deepSteps.drop (i + 3) ∧
      (chainStart.after (deepSteps.take (i + 2))).nextType = i + 3 := by decide +kernel
  have hleads : ∀ i ≤ 64, chainStart.LeadsToPointer deepSteps (i + 2) i false := by
    intro i hi
    induction i with
    | zero => exact .pointer (.of_take 1 rfl rfl)
    | succ i ih =>
      exact .link (.of_take (i + 2) (hmade i hi).1 (hmade i hi).2) rfl (ih (Nat.le_of_lt hi))
  refine ⟨⟨by decide +kernel, .of_take 66 rfl rfl, hleads 64 (Nat.le_refl _), by decide +kernel⟩,
    by decide +kernel, .of_take 4 rfl rfl, ?_, rfl⟩
  exact .qualified (.of_take 3 rfl rfl)
    (.link (.of_take 2 rfl rfl) rfl (.pointer (.of_take 1 rfl rfl)))

end HeaderSurvey
