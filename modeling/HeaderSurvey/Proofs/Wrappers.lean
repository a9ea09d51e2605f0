import HeaderSurvey.Proofs.NaturalLayout

/-! Layouts of wrappers and typedefs. They are copied from the type that is wrapped and never change
again, so they are those of the type for good unless it is a record that is completed only later. -/
namespace HeaderSurvey.Builder

variable {b : Builder} {step : Step} {steps : List Step} {w t : TypeId} {tag : RecordTag}

def layoutAt (b : Builder) (t : TypeId) : Extent := ⟨(b.typeAt t).size, (b.typeAt t).align⟩

/-- The wrappers and typedefs that a step makes, each with the type that it is made from. -/
def Step.wraps (b : Builder) : Step → List (TypeId × TypeId)
  | elaborated t | attributed t | unexposed t | typedef _ t => [(b.nextType, t)]
  | typedefStruct _ _ => [(b.nextType + 1, b.nextType), (b.nextType + 2, b.nextType + 1)]
  | _ => []

/-- The records that a step declares without fields. -/
def Step.forwards (b : Builder) : Step → List TypeId
  | forwardRecord tag name => [(b.namedRecord tag name none).2]
  | _ => []

/-- Fields are given only to records that were declared without any, by a step before or as one of
`forward`. -/
def CompletesForward (b : Builder) (forward : List TypeId) : List Step → Prop
  | [] => True
  | step :: steps => (∀ t ∈ step.completes?, t ∈ forward) ∧
      CompletesForward (step.run b).1 (step.forwards b ++ forward) steps

instance CompletesForward.decidable (b : Builder) (forward : List TypeId) (steps : List Step) :
    Decidable (CompletesForward b forward steps) :=
  match steps with
  | [] => .isTrue trivial
  | step :: steps =>
    have := CompletesForward.decidable (step.run b).1 (step.forwards b ++ forward) steps
    inferInstanceAs (Decidable (_ ∧ _))

/-! ## Wrapping -/

theorem typeAt_push {b' : Builder} {entry : TypeEntry}
    (h : b'.unit.types = b.unit.types.push entry) :
    b'.typeAt b.nextType = entry := by
  simp [typeAt, h, nextType]

theorem layoutAt_congr {b' : Builder} (h : b'.unit.types[t]? = b.unit.types[t]?) :
    b'.layoutAt t = b.layoutAt t := by
  simp only [layoutAt, typeAt, Array.getD_eq_getD_getElem?, h]

theorem layoutAt_after (ht : t < b.nextType) (h : ∀ step ∈ steps, t ∉ step.completes?) :
    (b.after steps).layoutAt t = b.layoutAt t := layoutAt_congr (types_after ht h)

theorem layoutAt_push {b' : Builder} {entry : TypeEntry}
    (h : b'.unit.types = b.unit.types.push entry)
    (hentry : ⟨entry.size, entry.align⟩ = b.layoutAt t) (ht : t < b'.nextType) :
    b'.layoutAt b.nextType = b'.layoutAt t := by
  have hsize : b'.nextType = b.nextType + 1 := by simp [nextType, h]
  rw [hsize] at ht
  rcases Nat.lt_succ_iff_lt_or_eq.1 ht with hlt | rfl
  · have hkept : b'.unit.types[t]? = b.unit.types[t]? := by
      have hne : t ≠ b.unit.types.size := Nat.ne_of_lt hlt
      simp [h, Array.getElem?_push, hne]
    rw [layoutAt_congr hkept, layoutAt, typeAt_push h, hentry]
  · rfl

theorem nextType_typedefStruct (b : Builder) (name : String) (fields : NamedTypes) :
    (b.typedefStruct name fields).1.nextType = b.nextType + 3 := by
  simp [typedefStruct, typedef, elaborated]

theorem layoutAt_typedefStruct (b : Builder) (name : String) (fields : NamedTypes) :
    (b.typedefStruct name fields).1.layoutAt (b.nextType + 1) =
        (b.typedefStruct name fields).1.layoutAt b.nextType ∧
      (b.typedefStruct name fields).1.layoutAt (b.nextType + 2) =
        (b.typedefStruct name fields).1.layoutAt (b.nextType + 1) := by
  let bRecord := (b.addRecord .struct "" name false (some fields)).1
  let bWrapped := (bRecord.elaborated b.nextType).1
  have hrecord : bRecord.nextType = b.nextType + 1 := nextType_addRecord ..
  have hwrapped : bWrapped.nextType = b.nextType + 2 :=
    (nextType_addType ..).trans (congrArg (· + 1) hrecord)
  have hlt : b.nextType < bWrapped.nextType := by simp [hwrapped]
  have hlt' : b.nextType + 1 < bWrapped.nextType := by simp [hwrapped]
  have heq : b.typedefStruct name fields = bWrapped.typedef name (b.nextType + 1) := by
    rw [← hrecord]
    rfl
  rw [heq]
  constructor
  · rw [layoutAt_congr (types_typedef hlt ..), layoutAt_congr (types_typedef hlt' ..), ← hrecord]
    exact layoutAt_push rfl rfl hlt
  · rw [← hwrapped]
    have hle := bWrapped.nextType_le_after [.typedef name (b.nextType + 1)]
    exact layoutAt_push rfl rfl (Nat.lt_of_lt_of_le hlt' hle)

/-- The pairs in `Step.wraps` have the same layout right after the step. -/
theorem Step.layoutAt_wraps (h : (w, t) ∈ step.wraps b) (ht : t < (step.run b).1.nextType) :
    (step.run b).1.layoutAt w = (step.run b).1.layoutAt t := by
  cases step with
  | elaborated t' | attributed t' | unexposed t' | typedef _ t' =>
    obtain ⟨rfl, rfl⟩ : w = b.nextType ∧ t = t' := by simpa [wraps] using h
    exact layoutAt_push rfl rfl ht
  | typedefStruct name fields =>
    obtain ⟨hwrapper, htypedef⟩ := b.layoutAt_typedefStruct name fields
    obtain ⟨rfl, rfl⟩ | ⟨rfl, rfl⟩ : w = b.nextType + 1 ∧ t = b.nextType ∨
        w = b.nextType + 2 ∧ t = b.nextType + 1 := by simpa [wraps] using h
    exacts [hwrapper, htypedef]
  | _ => simp [wraps] at h

theorem Step.lt_of_wraps (h : (w, t) ∈ step.wraps b) :
    b.nextType ≤ w ∧ w < (step.run b).1.nextType ∧ step.forwards b = [] := by
  cases step with
  | elaborated | attributed | unexposed | typedef =>
    obtain ⟨rfl, rfl⟩ : w = b.nextType ∧ t = _ := by simpa [wraps] using h
    exact ⟨Nat.le_refl _, Nat.lt_of_lt_of_eq (Nat.lt_succ_self _) (nextType_addType _ _).symm, rfl⟩
  | typedefStruct name fields =>
    have hnext : (run b (.typedefStruct name fields)).1.nextType = b.nextType + 3 :=
      b.nextType_typedefStruct name fields
    rw [hnext]
    obtain rfl | rfl : w = b.nextType + 1 ∨ w = b.nextType + 2 := by
      rcases List.mem_cons.1 h with heq | hmem
      · exact Or.inl (congrArg Prod.fst heq)
      · exact Or.inr (congrArg Prod.fst (List.mem_singleton.1 hmem))
    · simp [forwards]
    · simp [forwards]
  | _ => simp [wraps] at h

/-! ## Completing -/

theorem typeAt_after_fixed (ht : t < b.nextType) (steps : List Step) :
    ((b.after steps).typeAt t).fixed = (b.typeAt t).fixed := by
  have hlater : t < (b.after steps).nextType := Nat.lt_of_lt_of_le ht (b.nextType_le_after steps)
  have hfound : ∀ b : Builder, t < b.nextType → b.unit.fixedTypes[t]? = some (b.typeAt t).fixed :=
    fun b hb => TranslationUnit.fixedTypes_getElem?
      (by simp [typeAt, show t < b.unit.types.size from hb])
  exact Option.some.inj ((hfound _ hlater).symm.trans
    (getElem?_extended (b.prefixes_after steps).2 (hfound b ht)))

private theorem kind_cursorAt_after {c : CursorId} (hc : c < b.nextCursor) (steps : List Step) :
    ((b.after steps).cursorAt c).kind = (b.cursorAt c).kind := by
  have hfound : b.unit.fixedCursors[c]? = some (b.cursorAt c).fixed := by
    simp [TranslationUnit.fixedCursors, cursorAt, show c < b.unit.cursors.size from hc]
  rw [kind_cursorAt (getElem?_extended (b.prefixes_after steps).1 hfound)]
  rfl

theorem DeclaredAs.after (h : b.DeclaredAs t tag) (steps : List Step) :
    (b.after steps).DeclaredAs t tag := by
  have ht := congrArg TypeEntry.declaration (typeAt_after_fixed h.lt steps)
  obtain ⟨c, hdeclaration, hkind⟩ := h
  have hc : c < b.nextCursor := by
    by_contra hmissing
    have hdefault : b.cursorAt c = { kind := .noDeclFound } := by
      simp [cursorAt, show ¬c < b.unit.cursors.size from hmissing]
    rw [hdefault] at hkind
    cases tag <;> cases hkind
  exact ⟨c, ht.trans hdeclaration, (kind_cursorAt_after hc steps).trans hkind⟩

theorem declaredAs_push {b' : Builder} {entry : TypeEntry} {cursor : Cursor}
    (htypes : b'.unit.types = b.unit.types.push entry)
    (hcursors : b'.unit.fixedCursors = b.unit.fixedCursors ++ [cursor])
    (hdeclaration : entry.declaration = some b.nextCursor)
    (hkind : cursor.kind = recordCursorKind tag) :
    b'.DeclaredAs b.nextType tag := by
  have hnew : b'.unit.fixedCursors[b.nextCursor]? = some cursor := by
    rw [hcursors, ← length_fixedCursors, List.getElem?_concat_length]
  refine ⟨b.nextCursor, ?_, (kind_cursorAt hnew).trans hkind⟩
  rw [typeAt_push htypes, hdeclaration]

private theorem namedRecord_declaredAs (b : Builder) (tag : RecordTag) (name : String) :
    (b.namedRecord tag name none).1.DeclaredAs b.nextType tag := by
  let cursor : Cursor :=
    { kind := recordCursorKind tag, spelling := name, type := b.nextType,
      position := b.positionAfter 0 }
  have hchildren : ∀ root : Cursor,
      Cursor.fixed { root with children := root.children ++ [b.nextCursor] } = root.fixed :=
    fun _ => rfl
  have hcursors : (b.namedRecord tag name none).1.unit.fixedCursors = b.unit.fixedCursors ++
      [cursor.fixed] :=
    (fixedCursors_modifyCursor hchildren _ _).trans (fixedCursors_addCursors b [cursor])
  exact declaredAs_push rfl hcursors rfl rfl

theorem Step.declaredAs_forwards (h : t ∈ step.forwards b) :
    b.nextType ≤ t ∧ ∃ tag, (step.run b).1.DeclaredAs t tag := by
  cases step with
  | forwardRecord tag name =>
    obtain rfl : t = b.nextType := List.mem_singleton.1 h
    exact ⟨Nat.le_refl _, tag, b.namedRecord_declaredAs tag name⟩
  | _ => cases h

variable {forward : List TypeId}

theorem declaredAs_run (hforward : ∀ t ∈ forward, ∃ tag, b.DeclaredAs t tag) (step : Step) :
    ∀ t ∈ step.forwards b ++ forward, ∃ tag, (step.run b).1.DeclaredAs t tag := by
  intro t ht
  rcases List.mem_append.1 ht with ht | ht
  · exact (Step.declaredAs_forwards ht).2
  · obtain ⟨tag, htag⟩ := hforward t ht
    exact ⟨tag, htag.after [step]⟩

/-- After some steps of `CompletesForward`, all records that were declared `forward` are
`DeclaredAs` records. -/
theorem CompletesForward.suffix {more : List Step} (h : CompletesForward b forward (steps ++ more))
    (hforward : ∀ t ∈ forward, ∃ tag, b.DeclaredAs t tag) :
    ∃ forward', CompletesForward (b.after steps) forward' more ∧
      ∀ t ∈ forward', ∃ tag, (b.after steps).DeclaredAs t tag := by
  induction steps generalizing b forward with
  | nil => exact ⟨forward, h, hforward⟩
  | cons step steps ih => exact ih h.2 (declaredAs_run hforward step)

end HeaderSurvey.Builder
