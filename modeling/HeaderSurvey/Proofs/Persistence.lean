import HeaderSurvey.Proofs.Ownership

/-! What steps of building leave alone: a type that is there keeps all there is to it, unless a step
gives it fields. -/
namespace HeaderSurvey.Builder

variable {b : Builder} {step : Step} {steps : List Step} {s t : TypeId}

/-- The type that a step gives fields to, in place of those it had. -/
def Step.completes? : Step → Option TypeId
  | defineRecord t _ => some t
  | _ => none

theorem Step.eq_defineRecord (h : t ∈ step.completes?) :
    ∃ fields, step = .defineRecord t fields := by
  cases step with
  | defineRecord t' fields =>
    cases h
    exact ⟨fields, rfl⟩
  | _ => cases h

/-! ## Types -/

theorem types_addType (hs : s < b.nextType) (entry : TypeEntry) :
    (b.addType entry).unit.types[s]? = b.unit.types[s]? := by
  have hne : s ≠ b.unit.types.size := Nat.ne_of_lt hs
  simp [addType, Array.getElem?_push, hne]

private theorem types_primitive (hs : s < b.nextType) (kind : TypeKind) :
    (b.primitive kind).1.unit.types[s]? = b.unit.types[s]? := by
  unfold primitive
  split
  · rfl
  · split
    · rfl
    · exact types_addType hs _

private theorem types_defineRecord (hs : s ≠ t) (fields : NamedTypes) :
    (b.defineRecord t fields).unit.types[s]? = b.unit.types[s]? := by
  unfold defineRecord
  split
  · rfl
  · simp only [modifyType, Array.getElem?_modify, if_neg hs.symm]
    rfl

theorem types_addRecord (hs : s < b.nextType) (tag : RecordTag) (name spelling : String)
    (anonymous : Bool) (fields : Option NamedTypes) :
    (b.addRecord tag name spelling anonymous fields).1.unit.types[s]? = b.unit.types[s]? := by
  cases fields with
  | none => exact types_addType hs _
  | some fields => exact (types_defineRecord (Nat.ne_of_lt hs) fields).trans (types_addType hs _)

private theorem types_namedRecord (hs : s < b.nextType) (tag : RecordTag) (name : String)
    (fields : Option NamedTypes) :
    (b.namedRecord tag name fields).1.unit.types[s]? = b.unit.types[s]? :=
  types_addRecord hs tag name (recordKeyword tag ++ " " ++ name) false fields

theorem types_typedef (hs : s < b.nextType) (name : String) (underlying : TypeId) :
    (b.typedef name underlying).1.unit.types[s]? = b.unit.types[s]? := types_addType hs _

private theorem types_typedefStruct (hs : s < b.nextType) (name : String) (fields : NamedTypes) :
    (b.typedefStruct name fields).1.unit.types[s]? = b.unit.types[s]? := by
  have hrecord : s < (b.addRecord .struct "" name false (some fields)).1.nextType := by
    rw [nextType_addRecord]
    exact Nat.lt_succ_of_lt hs
  have hwrapped : s < ((b.addRecord .struct "" name false (some fields)).1.elaborated
      (b.addRecord .struct "" name false (some fields)).2).1.nextType := by
    unfold elaborated
    rw [nextType_addType]
    exact Nat.lt_succ_of_lt hrecord
  calc (b.typedefStruct name fields).1.unit.types[s]?
      = ((b.addRecord .struct "" name false (some fields)).1.elaborated
          (b.addRecord .struct "" name false (some fields)).2).1.unit.types[s]? :=
            types_typedef hwrapped name _
    _ = (b.addRecord .struct "" name false (some fields)).1.unit.types[s]? :=
      types_addType hrecord _
    _ = b.unit.types[s]? := types_addRecord hs ..

private theorem nextType_le_primitive (b : Builder) (kind : TypeKind) :
    b.nextType ≤ (b.primitive kind).1.nextType := by
  unfold primitive
  split
  · exact Nat.le_refl _
  · split
    · exact Nat.le_refl _
    · change b.nextType ≤ (b.addType _).nextType
      simp

theorem types_addEnum (hs : s < b.nextType) (name spelling : String) (anonymous : Bool)
    (values : List (String × Int)) :
    (b.addEnum name spelling anonymous values).1.unit.types[s]? = b.unit.types[s]? := by
  have hinteger := Nat.lt_of_lt_of_le hs
    (nextType_le_primitive b (if values.any (·.2 < 0) then .int else .uInt))
  exact (types_addType (b := (b.primitive (if values.any (·.2 < 0) then .int else .uInt)).1)
    hinteger _).trans
    (types_primitive hs _)

private theorem types_addTopLevel (b : Builder) (c : CursorId) :
    (b.addTopLevel c).unit.types = b.unit.types := rfl

theorem types_addFunction (b : Builder) (name : String) (t : TypeId) (names : List String)
    (linkage : Linkage) :
    (b.addFunction name t names linkage).1.unit.types = b.unit.types := rfl

private theorem types_namedEnum (hs : s < b.nextType) (name : String)
    (values : List (String × Int)) :
    (b.namedEnum name values).1.unit.types[s]? = b.unit.types[s]? := by
  unfold namedEnum
  rw [types_addTopLevel]
  exact types_addEnum hs ..

private theorem types_anonymousEnum (hs : s < b.nextType) (values : List (String × Int))
    (topLevel : Bool) :
    (b.anonymousEnum values topLevel).1.unit.types[s]? = b.unit.types[s]? := by
  cases topLevel with
  | false => exact types_addEnum hs ..
  | true =>
    simp only [anonymousEnum, if_true]
    rw [types_addTopLevel]
    exact types_addEnum hs ..

private theorem types_function (hs : s < b.nextType) (name : String) (result : TypeId)
    (parameters : NamedTypes) (variadic : Bool) :
    (b.function name result parameters variadic).1.unit.types[s]? = b.unit.types[s]? := by
  unfold function
  rw [types_addFunction]
  exact types_addType hs _

private theorem types_staticFunction (hs : s < b.nextType) (name : String) (result : TypeId) :
    (b.staticFunction name result).1.unit.types[s]? = b.unit.types[s]? := by
  unfold staticFunction
  rw [types_addFunction]
  exact types_addType hs _

/-- `Step.run` keeps the types that are there, those in `completes?` apart. -/
theorem types_run (hs : s < b.nextType) (h : s ∉ step.completes?) :
    (step.run b).1.unit.types[s]? = b.unit.types[s]? := by
  cases step with
  | inFile | systemHeader | functionOfType | globalVariable | macroDefinition => rfl
  | primitive kind => exact types_primitive hs kind
  | constQualified | pointer | constantArray | incompleteArray | functionType | elaborated
  | attributed | unexposed | typedef => exact types_addType hs _
  | function => exact types_function hs ..
  | staticFunction => exact types_staticFunction hs ..
  | defineRecord t fields => exact types_defineRecord (fun hst => h (congrArg some hst.symm)) fields
  | record tag name fields => exact types_namedRecord hs tag name (some fields)
  | forwardRecord tag name => exact types_namedRecord hs tag name none
  | anonymousRecord | unnamedStruct => exact types_addRecord hs ..
  | typedefStruct name fields => exact types_typedefStruct hs name fields
  | enum => exact types_namedEnum hs ..
  | anonymousEnum => exact types_anonymousEnum hs ..

/-- A type that no step `completes?` stays as it is. -/
theorem types_after (hs : s < b.nextType) (h : ∀ step ∈ steps, s ∉ step.completes?) :
    (b.after steps).unit.types[s]? = b.unit.types[s]? := by
  induction steps generalizing b with
  | nil => rfl
  | cons step steps ih =>
    have hrest := ih (Nat.lt_of_lt_of_le hs (b.nextType_le_after [step]))
      fun step' hstep => h step' (List.mem_cons_of_mem step hstep)
    exact hrest.trans (types_run hs (h step List.mem_cons_self))

end HeaderSurvey.Builder
