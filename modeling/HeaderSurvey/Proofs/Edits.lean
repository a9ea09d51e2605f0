import HeaderSurvey.Proofs.Naming
import HeaderSurvey.Unit.Builder
import Mathlib.Logic.Relation

/-! What a step of building does to a unit, as a series of edits: a type is made of others, a type
is declared, cursors come that declare no type, a declaration gets its fields, or joins the top
level. What each edit keeps is kept by every step. -/
namespace HeaderSurvey

/-- The kind of type that a cursor of this kind declares. -/
def CursorKind.declares? : CursorKind → Option TypeKind
  | .structDecl | .unionDecl => some .record
  | .enumDecl => some .enum
  | .typedefDecl => some .typedef
  | _ => none

/-- `c` declares no type; the types that it refers to have `uses`, and its children are below
`bound`. -/
structure Cursor.Plain (uses : TypeId → Prop) (bound : CursorId) (c : Cursor) : Prop where
  kind : c.kind.declares? = none
  type : uses c.type
  underlying : c.underlying = none
  integerType : c.integerType = none
  children : ∀ id ∈ c.children, id < bound

def TranslationUnit.IsField (u : TranslationUnit) (id : CursorId) : Prop :=
  ∃ cursor, u.cursors[id]? = some cursor ∧ cursor.kind = .fieldDecl

theorem TranslationUnit.IsField.lt {u : TranslationUnit} {id : CursorId} (h : u.IsField id) :
    id < u.cursors.size := by
  obtain ⟨cursor, hcursor, -⟩ := h
  exact (Array.getElem?_eq_some_iff.1 hcursor).1

namespace Builder

/-- What the name of a declaration has to do with the `spelling` of its type. -/
def Fits (name spelling : String) (anonymous : Bool) : Prop :=
  name = "" ∨ anonymous = false ∧ stripTags spelling = name ∧
    Text.contains spelling "(unnamed at " = false

private theorem fits_plain {name : String} (h : isPlainName name = true) : Fits name name false :=
  Or.inr ⟨rfl, stripTags_plain h, not_unnamed_of_free fun hc => (free_of_isPlainName h hc).2 rfl⟩

private theorem fits_tagged {tag name : String} (ht : tag ∈ tagWords)
    (h : isPlainName name = true) :
    Fits name (tag ++ " " ++ name) false := by
  refine Or.inr ⟨rfl, stripTags_tagged ht h, not_unnamed_of_free fun hc => ?_⟩
  simp only [String.toList_append, List.mem_append] at hc
  rcases hc with (hc | hc) | hc
  · exact (free_of_tagWord ht hc).2 rfl
  · revert hc
    decide
  · exact (free_of_isPlainName h hc).2 rfl

namespace Step

def typeName? : Step → Option String
  | record _ name _ | forwardRecord _ name | typedefStruct name _ | typedef name _ | enum name _ =>
    some name
  | _ => none

/-- The types that a step is given. -/
def references : Step → List TypeId
  | inFile _ | systemHeader _ | primitive _ | forwardRecord _ _ | enum _ _ | anonymousEnum _ _
  | macroDefinition _ _ _ => []
  | constQualified t | pointer t | constantArray t _ | incompleteArray t | elaborated t
  | attributed t | unexposed t | typedef _ t | functionOfType _ t _ | staticFunction _ t
  | globalVariable _ t _ => [t]
  | functionType result arguments _ _ => result :: arguments
  | defineRecord t fields => t :: fields.map (·.2)
  | record _ _ fields | anonymousRecord _ fields | unnamedStruct fields | typedefStruct _ fields =>
    fields.map (·.2)
  | function _ result parameters _ => result :: parameters.map (·.2)

/-- The types that `step` may link to: its `references`, and those that can be found in the unit. -/
inductive MayUse (step : Step) (b : Builder) : TypeId → Prop where
  | given {t : TypeId} (h : t ∈ step.references) : MayUse step b t
  | present {t : TypeId} (h : t < b.nextType) : MayUse step b t
  | invalid : MayUse step b TypeId.invalid
  | argument {t f : TypeId} (h : t ∈ (b.typeAt f).arguments) : MayUse step b t
  | canonical {t s : TypeId} (h : t ∈ (b.typeAt s).canonical) : MayUse step b t
  | primitive {t : TypeId} {kind : TypeKind} (h : (kind, t) ∈ b.primitives) : MayUse step b t

/-- The types that `step` makes without declaring them. -/
inductive Composes (step : Step) (b : Builder) : TypeEntry → Prop where
  | primitive {kind : TypeKind} {spelling : String} {size : Int}
      (layout : primitiveLayout? b.longSize kind = some (spelling, size)) :
      Composes step b { kind, spelling, size, align := size }
  | constQualified (t : TypeId) :
      Composes step b { b.typeAt t with
                        spelling := "const " ++ (b.typeAt t).spelling, canonical := none }
  | pointer {t : TypeId} {spelling : String} {size : Int} (use : step.MayUse b t) :
      Composes step b { kind := .pointer, spelling, size, align := size, pointee := some t }
  | array {t : TypeId} {kind : TypeKind} {spelling : String} {size align count : Int}
      (sort : kind.isArray = true) (use : step.MayUse b t) :
      Composes step b { kind, spelling, size, align, arraySize := count, element := some t }
  | function {result : TypeId} {arguments : List TypeId} {spelling : String} {variadic : Bool}
      {convention : DeclaredConvention} (use : step.MayUse b result)
      (uses : ∀ t ∈ arguments, step.MayUse b t) :
      Composes step b { kind := .functionProto, spelling, size := 1, align := 4,
                        result := some result, arguments, variadic, convention }
  | elaborated {t canonical : TypeId} (use : step.MayUse b t)
      (canonical_use : step.MayUse b canonical) :
      Composes step b { kind := .elaborated, spelling := (b.typeAt t).spelling,
                        declaration := (b.typeAt t).declaration, size := (b.typeAt t).size,
                        align := (b.typeAt t).align, named := some t, canonical := some canonical }
  | attributed {t canonical : TypeId} {spelling : String} {size align : Int} (use : step.MayUse b t)
      (canonical_use : step.MayUse b canonical) :
      Composes step b { kind := .attributed, spelling, size, align, modified := some t,
                        canonical := some canonical }
  | unexposed {t : TypeId} {spelling : String} {size align : Int} (use : step.MayUse b t) :
      Composes step b { kind := .unexposed, spelling, size, align, canonical := some t }

def Names (step : Step) (name spelling : String) (anonymous : Bool) : Prop :=
  name = "" ∨ name ∈ step.typeName? ∧ (isPlainName name = true → Fits name spelling anonymous)

/-- A declaration `cursor` comes with the type `own` it declares, and with the cursors of its
`parts` after it. -/
structure Declaration (step : Step) (b : Builder) (cursor : Cursor) (parts : List Cursor)
    (own : TypeEntry) : Prop where
  type : cursor.type = b.nextType
  declaration : own.declaration = some b.nextCursor
  sort : cursor.kind.declares? = some own.kind
  named : step.Names cursor.spelling own.spelling cursor.anonymous
  leaf : own.pointee = none ∧ own.element = none ∧ own.modified = none ∧ own.named = none ∧
    own.result = none ∧ own.arguments = [] ∧ own.fields = []
  canonical : ∀ t ∈ own.canonical, step.MayUse b t
  underlying : ∀ t ∈ cursor.underlying, step.MayUse b t
  integerType : ∀ t ∈ cursor.integerType, step.MayUse b t
  children : ∀ id ∈ cursor.children, id < b.nextCursor + (parts.length + 1)
  parts : ∀ part ∈ parts, part.Plain (· = b.nextType) 0

/-- One change that `step` makes to a unit in the making. -/
inductive Edit (step : Step) (b : Builder) : Builder → Prop where
  /-- Only the place in the source changes. -/
  | move {b' : Builder} (unit : b'.unit = b.unit)
      (primitives : b'.primitives = b.primitives) : Edit step b b'
  | compose {t : TypeEntry} {known : List (TypeKind × TypeId)} (composed : step.Composes b t)
      (primitives : ∀ e ∈ known, e ∈ b.primitives ∨ e.2 = b.nextType) :
      Edit step b { b.addType t with primitives := known }
  | declare {cursor : Cursor} {parts : List Cursor} {own : TypeEntry}
      (declaration : step.Declaration b cursor parts own) :
      Edit step b ((b.addCursors (cursor :: parts)).addType own)
  | cursors {cs : List Cursor} (plain : ∀ c ∈ cs, c.Plain (step.MayUse b) b.nextCursor) :
      Edit step b (b.addCursors cs)
  | define {t : TypeId} {c : CursorId} {ids : List CursorId} {size align : Int}
      (fields : ∀ id ∈ ids, b.unit.IsField id) :
      Edit step b ((b.modifyCursor c fun cursor => { cursor with children := ids }).modifyType t
        fun entry => { entry with size, align, fields := ids })
  | topLevel {c : CursorId} (there : c < b.nextCursor) : Edit step b (b.addTopLevel c)

abbrev Edits (step : Step) : Builder → Builder → Prop := Relation.ReflTransGen step.Edit

end Step

variable {step : Step} {b : Builder} {t : TypeId}

/-! ## Sizes of the arenas -/

@[simp] theorem nextType_addCursors (b : Builder) (cs : List Cursor) :
    (b.addCursors cs).nextType = b.nextType := rfl

@[simp] theorem nextCursor_addCursors (b : Builder) (cs : List Cursor) :
    (b.addCursors cs).nextCursor = b.nextCursor + cs.length := by
  simp [nextCursor, addCursors]

@[simp] theorem nextType_addCursor (b : Builder) (c : Cursor) :
    (b.addCursor c).nextType = b.nextType := rfl

@[simp] theorem nextCursor_addCursor (b : Builder) (c : Cursor) :
    (b.addCursor c).nextCursor = b.nextCursor + 1 := nextCursor_addCursors b [c]

@[simp] theorem nextType_addType (b : Builder) (t : TypeEntry) :
    (b.addType t).nextType = b.nextType + 1 := by
  simp [nextType, addType]

@[simp] theorem nextCursor_addType (b : Builder) (t : TypeEntry) :
    (b.addType t).nextCursor = b.nextCursor := rfl

@[simp] theorem nextType_skipLines (b : Builder) (n : Nat) :
    (b.skipLines n).nextType = b.nextType := rfl

@[simp] theorem nextCursor_skipLines (b : Builder) (n : Nat) :
    (b.skipLines n).nextCursor = b.nextCursor := rfl

@[simp] theorem nextType_modifyType (b : Builder) (t : TypeId) (f : TypeEntry → TypeEntry) :
    (b.modifyType t f).nextType = b.nextType := by
  simp [nextType, modifyType]

@[simp] theorem nextType_modifyCursor (b : Builder) (c : CursorId) (f : Cursor → Cursor) :
    (b.modifyCursor c f).nextType = b.nextType := rfl

@[simp] theorem nextCursor_modifyCursor (b : Builder) (c : CursorId) (f : Cursor → Cursor) :
    (b.modifyCursor c f).nextCursor = b.nextCursor := by
  simp [nextCursor, modifyCursor]

@[simp] theorem nextCursor_modifyType (b : Builder) (t : TypeId) (f : TypeEntry → TypeEntry) :
    (b.modifyType t f).nextCursor = b.nextCursor := rfl

@[simp] theorem nextType_addTopLevel (b : Builder) (c : CursorId) :
    (b.addTopLevel c).nextType = b.nextType := rfl

@[simp] theorem nextType_defineRecord (b : Builder) (t : TypeId) (fields : NamedTypes) :
    (b.defineRecord t fields).nextType = b.nextType := by
  unfold defineRecord
  split <;> simp

@[simp] theorem nextType_addRecord (b : Builder) (tag : RecordTag) (name spelling : String)
    (anonymous : Bool) (fields : Option NamedTypes) :
    (b.addRecord tag name spelling anonymous fields).1.nextType = b.nextType + 1 := by
  cases fields <;> simp [addRecord]

theorem addRecord_lt (b : Builder) (tag : RecordTag) (name spelling : String) (anonymous : Bool)
    (fields : Option NamedTypes) :
    (b.addRecord tag name spelling anonymous fields).2 <
      (b.addRecord tag name spelling anonymous fields).1.nextType := by
  have hnew : (b.addRecord tag name spelling anonymous fields).2 = b.nextType := by
    cases fields <;> rfl
  rw [hnew, nextType_addRecord]
  exact Nat.lt_succ_self _

theorem namedRecord_lt (b : Builder) (tag : RecordTag) (name : String)
    (fields : Option NamedTypes) :
    (b.namedRecord tag name fields).2 < (b.namedRecord tag name fields).1.nextType :=
  addRecord_lt b tag name (recordKeyword tag ++ " " ++ name) false fields

theorem typedef_lt (b : Builder) (name : String) (underlying : TypeId) :
    (b.typedef name underlying).2 < (b.typedef name underlying).1.nextType := by
  simp [typedef]

theorem addEnum_lt (b : Builder) (name spelling : String) (anonymous : Bool)
    (values : List (String × Int)) :
    (b.addEnum name spelling anonymous values).2 <
      (b.addEnum name spelling anonymous values).1.nextType := by
  simp [addEnum]

theorem anonymousEnum_lt (b : Builder) (values : List (String × Int)) (topLevel : Bool) :
    (b.anonymousEnum values topLevel).2 < (b.anonymousEnum values topLevel).1.nextType := by
  cases topLevel <;> simp only [anonymousEnum, Bool.false_eq_true, if_true, if_false,
    nextType_addTopLevel]
  all_goals exact addEnum_lt ..

theorem nextCursor_primitive (b : Builder) (kind : TypeKind) :
    (b.primitive kind).1.nextCursor = b.nextCursor := by
  unfold primitive
  split
  · rfl
  · split <;> rfl

private theorem le_nextCursor_defineRecord (b : Builder) (t : TypeId) (fields : NamedTypes) :
    b.nextCursor ≤ (b.defineRecord t fields).nextCursor := by
  unfold defineRecord
  split <;> simp

private theorem lt_nextCursor_addRecord (b : Builder) (tag : RecordTag) (name spelling : String)
    (anonymous : Bool) (fields : Option NamedTypes) :
    b.nextCursor < (b.addRecord tag name spelling anonymous fields).1.nextCursor := by
  cases fields with
  | none => simp [addRecord]
  | some fields =>
    refine Nat.lt_of_lt_of_le ?_ (le_nextCursor_defineRecord _ _ fields)
    simp

/-! ## Edits of each part of a step -/

theorem Step.Edit.addType {entry : TypeEntry} (composed : step.Composes b entry) :
    step.Edit b (b.addType entry) := .compose composed fun _ he => Or.inl he

theorem Step.Edit.addCursor {c : Cursor} (plain : c.Plain (step.MayUse b) b.nextCursor) :
    step.Edit b (b.addCursor c) := .cursors (by simpa using plain)

theorem Step.Edit.skipLines (step : Step) (b : Builder) (n : Nat) : step.Edit b (b.skipLines n) :=
  .move rfl rfl

/-- The canonical form of a type that may be used may be used too. -/
theorem Step.MayUse.canonicalId (h : step.MayUse b t) :
    step.MayUse b ((b.typeAt t).canonicalId t) := by
  unfold TypeEntry.canonicalId
  cases hc : (b.typeAt t).canonical with
  | none => exact h
  | some c => exact .canonical hc

private theorem mem_of_lookup {α β : Type} [BEq α] [LawfulBEq α] {l : List (α × β)} {a : α} {b : β}
    (h : l.lookup a = some b) : (a, b) ∈ l := by
  obtain ⟨l₁, l₂, rfl, -⟩ := List.lookup_eq_some_iff.1 h
  simp

private theorem primitive_edits (step : Step) (b : Builder) (kind : TypeKind) :
    step.Edits b (b.primitive kind).1 := by
  unfold primitive
  split
  · exact .refl
  · split
    · exact .refl
    · next layout =>
      refine .single (.compose (.primitive layout) fun e he => ?_)
      rcases List.mem_cons.1 he with rfl | he
      · exact Or.inr rfl
      · exact Or.inl he

theorem primitive_mayUse (step : Step) (b : Builder) (kind : TypeKind) :
    step.MayUse (b.primitive kind).1 (b.primitive kind).2 := by
  unfold primitive
  split
  · next hlookup => exact .primitive (mem_of_lookup hlookup)
  · split
    · exact .invalid
    · refine .present ?_
      change b.nextType < (b.addType _).nextType
      simp

theorem length_offsetsFrom (union : Bool) (start : Int) (fields : List Extent) :
    (RecordLayout.offsetsFrom union start fields).length = fields.length := by
  induction fields generalizing start with
  | nil => rfl
  | cons field fields ih => simp [RecordLayout.offsetsFrom, ih]

private theorem defineRecord_edits (step : Step) (t : TypeId) {fields : NamedTypes}
    (hfields : fields.map (·.2) ⊆ step.references) : step.Edits b (b.defineRecord t fields) := by
  unfold defineRecord
  split
  · exact .refl
  · next c _ =>
    extract_lets union layout cursors ids
    have hplain : ∀ cursor ∈ cursors, cursor.Plain (step.MayUse b) b.nextCursor := by
      intro cursor hcursor
      obtain ⟨i, hi, rfl⟩ := List.mem_mapIdx.1 hcursor
      have hfield := (List.of_mem_zip (List.getElem_mem hi)).1
      exact ⟨rfl, .given (hfields (List.mem_map_of_mem hfield)), rfl, rfl, by simp⟩
    have hids : ∀ id ∈ ids, ((b.addCursors cursors).skipLines fields.length).unit.IsField id := by
      intro id hid
      obtain ⟨hge, hlt⟩ := List.mem_range'_1.1 hid
      have hnew : id - b.nextCursor < cursors.length := by
        simpa [cursors, layout, RecordLayout.ofFields,
          length_offsetsFrom] using Nat.sub_lt_left_of_lt_add hge hlt
      refine ⟨cursors[id - b.nextCursor], ?_, by simp [cursors]⟩
      change (b.unit.cursors ++ cursors.toArray)[id]? = _
      rw [Array.getElem?_append_right hge, List.getElem?_toArray]
      exact List.getElem?_eq_getElem hnew
    have hadded : step.Edits b _ :=
      .tail (.single (.cursors hplain)) (.skipLines step _ fields.length)
    exact hadded.tail (.define hids)

private theorem addRecord_edits {tag : RecordTag} {name spelling : String} {anonymous : Bool}
    {fields : Option NamedTypes} (hname : step.Names name spelling anonymous)
    (hfields : ∀ fs ∈ fields, fs.map (·.2) ⊆ step.references) :
    step.Edits b (b.addRecord tag name spelling anonymous fields).1 := by
  have hdeclared : step.Declaration b
      { kind := recordCursorKind tag, spelling := name, type := b.nextType, anonymous,
        position := b.positionAfter 0 } []
      { kind := .record, spelling, declaration := some b.nextCursor, size := Layout.incomplete,
        align := Layout.incomplete } :=
    ⟨rfl, rfl, by cases tag <;> rfl, hname, by simp, by simp, by simp, by simp, by simp, by simp⟩
  have hadded : step.Edits b _ := .tail (.single (.declare hdeclared)) (.skipLines step _ 1)
  cases fields with
  | none => exact hadded
  | some fields => exact hadded.trans (defineRecord_edits step _ (hfields fields rfl))

theorem namelessRecord_edits (step : Step) {tag : RecordTag} {spelling : String} {anonymous : Bool}
    {fields : NamedTypes} (hfields : fields.map (·.2) ⊆ step.references) :
    step.Edits b (b.addRecord tag "" spelling anonymous (some fields)).1 :=
  addRecord_edits (Or.inl rfl) (by rintro _ ⟨⟩; exact hfields)

private theorem namedRecord_edits (step : Step) (tag : RecordTag) {name : String}
    (fields : Option NamedTypes) (hname : name ∈ step.typeName?)
    (hfields : ∀ fs ∈ fields, fs.map (·.2) ⊆ step.references) :
    step.Edits b (b.namedRecord tag name fields).1 := by
  have htag : recordKeyword tag ∈ tagWords := by cases tag <;> decide
  exact (addRecord_edits (Or.inr ⟨hname, fits_tagged htag⟩) hfields).tail
    (.topLevel (lt_nextCursor_addRecord ..))

private theorem typedef_edits {name : String} {underlying : TypeId} (hname : name ∈ step.typeName?)
    (huse : step.MayUse b underlying) : step.Edits b (b.typedef name underlying).1 := by
  have hdeclared : step.Declaration b
      { kind := .typedefDecl, spelling := name, type := b.nextType, position := b.positionAfter 0,
        underlying := some underlying } []
      { kind := .typedef, spelling := name, declaration := some b.nextCursor,
        size := (b.typeAt underlying).size, align := (b.typeAt underlying).align,
        canonical := some ((b.typeAt underlying).canonicalId underlying) } := by
    refine ⟨rfl, rfl, rfl, Or.inr ⟨hname, fits_plain⟩, by simp, ?_, ?_, by simp, by simp, by simp⟩
    · rintro _ ⟨⟩
      exact huse.canonicalId
    · rintro _ ⟨⟩
      exact huse
  have hadded : step.Edits b _ := .tail (.single (.declare hdeclared)) (.skipLines step _ 1)
  exact hadded.tail (.topLevel (by simp))

private theorem typedefStruct_edits (step : Step) {name : String} {fields : NamedTypes}
    (hname : name ∈ step.typeName?) (hfields : fields.map (·.2) ⊆ step.references) :
    step.Edits b (b.typedefStruct name fields).1 := by
  have hrecord : step.Edits b (b.addRecord .struct "" name false (some fields)).1 :=
    namelessRecord_edits step hfields
  have huse : step.MayUse (b.addRecord .struct "" name false (some fields)).1
      (b.addRecord .struct "" name false (some fields)).2 := .present (addRecord_lt ..)
  refine (hrecord.tail (.addType (.elaborated huse huse.canonicalId))).trans ?_
  exact typedef_edits hname (.present (nextType_addType _ _ ▸ Nat.lt_succ_self _))

private theorem addEnum_edits {name spelling : String} {anonymous : Bool}
    (hname : step.Names name spelling anonymous) (values : List (String × Int)) :
    step.Edits b (b.addEnum name spelling anonymous values).1 := by
  have hinteger := primitive_edits step b (if values.any (·.2 < 0) then .int else .uInt)
  have huse := primitive_mayUse step b (if values.any (·.2 < 0) then .int else .uInt)
  have hnext := nextCursor_primitive b (if values.any (·.2 < 0) then .int else .uInt)
  unfold addEnum
  generalize b.primitive (if values.any (·.2 < 0) then .int else .uInt) = r at hinteger huse hnext ⊢
  obtain ⟨b', integer⟩ := r
  dsimp only at hinteger huse hnext ⊢
  have hdeclared : step.Declaration b'
      { kind := .enumDecl, spelling := name, type := b'.nextType, linkage := .external, anonymous,
        position := b.positionAfter 0, integerType := some integer,
        children := List.range' (b.nextCursor + 1) values.length }
      (values.mapIdx fun i constant =>
        { kind := .enumConstantDecl, spelling := constant.1, type := b'.nextType,
          position := b.positionAfter (i + 1), enumValue := constant.2 })
      { kind := .enum, spelling, declaration := some b.nextCursor, size := 4, align := 4 } := by
    refine ⟨rfl, congrArg some hnext.symm, rfl, hname, by simp, by simp, by simp, ?_, ?_, ?_⟩
    · rintro _ ⟨⟩
      exact huse
    · intro id hid
      have hlt := (List.mem_range'_1.1 hid).2
      rw [List.length_mapIdx, hnext]
      exact Nat.lt_of_lt_of_eq hlt (by omega)
    · intro part hpart
      obtain ⟨i, hi, rfl⟩ := List.mem_mapIdx.1 hpart
      exact ⟨rfl, rfl, rfl, rfl, by simp⟩
  have hadded : step.Edits b' _ :=
    .tail (.single (.declare hdeclared)) (.skipLines step _ (values.length + 1))
  refine hinteger.trans ?_
  simpa [addCursor, addCursors, addType, skipLines] using hadded

private theorem lt_nextCursor_addEnum (b : Builder) (name spelling : String) (anonymous : Bool)
    (values : List (String × Int)) :
    b.nextCursor < (b.addEnum name spelling anonymous values).1.nextCursor := by
  simp only [addEnum, nextCursor_addType, nextCursor_skipLines, nextCursor_addCursors,
    nextCursor_addCursor, nextCursor_primitive]
  exact Nat.lt_of_lt_of_le (Nat.lt_succ_self b.nextCursor) (Nat.le_add_right ..)

private theorem namedEnum_edits (step : Step) {name : String} (hname : name ∈ step.typeName?)
    (values : List (String × Int)) : step.Edits b (b.namedEnum name values).1 := by
  have htag : "enum" ∈ tagWords := by decide
  exact (addEnum_edits (Or.inr ⟨hname, fits_tagged htag⟩) values).tail
    (.topLevel (lt_nextCursor_addEnum ..))

private theorem anonymousEnum_edits (step : Step) (values : List (String × Int)) (topLevel : Bool) :
    step.Edits b (b.anonymousEnum values topLevel).1 := by
  have hadded : step.Edits b (b.anonymousEnum values false).1 := addEnum_edits (Or.inl rfl) values
  cases topLevel with
  | false => exact hadded
  | true => exact hadded.tail (.topLevel (lt_nextCursor_addEnum ..))

private theorem addFunction_edits (name : String) (huse : step.MayUse b t) (names : List String)
    (linkage : Linkage) :
    step.Edits b (b.addFunction name t names linkage).1 := by
  unfold addFunction
  extract_lets arguments position parameters b' function
  have hparameters : ∀ c ∈ parameters, c.Plain (step.MayUse b) b.nextCursor := by
    intro c hc
    obtain ⟨i, hi, rfl⟩ := List.mem_mapIdx.1 hc
    exact ⟨rfl, .argument (List.getElem_mem hi), rfl, rfl, by simp⟩
  have hadded : step.Edits b b' := .tail (.single (.cursors hparameters)) (.skipLines step _ 1)
  -- Parameters change neither the types nor the known primitives.
  have huse' : step.MayUse b' t := by
    cases huse with
    | given h => exact .given h
    | present h => exact .present h
    | invalid => exact .invalid
    | argument h => exact .argument h
    | canonical h => exact .canonical h
    | primitive h => exact .primitive h
  have hchildren : ∀ id ∈ List.range' b.nextCursor arguments.length, id < b'.nextCursor := by
    intro id hid
    have hlt := (List.mem_range'_1.1 hid).2
    simpa [b', parameters] using hlt
  refine (hadded.tail (.addCursor ?_)).tail (.topLevel (by simp [function]))
  exact ⟨rfl, huse', rfl, rfl, hchildren⟩

theorem function_edits (step : Step) {result : TypeId} {arguments : List TypeId} {variadic : Bool}
    (name : String) (hresult : result ∈ step.references) (harguments : arguments ⊆ step.references)
    (names : List String) (linkage : Linkage) :
    step.Edits b ((b.functionType result arguments variadic .c).1.addFunction name
      (b.functionType result arguments variadic .c).2 names linkage).1 := by
  have htype : step.Edit b (b.functionType result arguments variadic .c).1 :=
    .addType (.function (.given hresult) fun t ht => .given (harguments ht))
  refine (Relation.ReflTransGen.single htype).trans
    (addFunction_edits name (.present ?_) names linkage)
  simp [functionType]

theorem topLevel_edits {c : Cursor} (hc : c.Plain (step.MayUse b) b.nextCursor) (lines : Nat) :
    step.Edits b (((b.addCursor c).skipLines lines).addTopLevel b.nextCursor) := by
  have hadded : step.Edits b ((b.addCursor c).skipLines lines) :=
    .tail (.single (.addCursor hc)) (.skipLines step _ lines)
  exact hadded.tail (.topLevel (by simp))

theorem Step.run_edits (step : Step) (b : Builder) : step.Edits b (step.run b).1 := by
  cases step with
  | inFile path => exact .single (.move rfl rfl)
  | systemHeader on => exact .single (.move rfl rfl)
  | primitive kind => exact primitive_edits _ b kind
  | constQualified t => exact .single (.addType (.constQualified t))
  | pointer t => exact .single (.addType (.pointer (.given (by simp [references]))))
  | constantArray t count => exact .single (.addType (.array rfl (.given (by simp [references]))))
  | incompleteArray t => exact .single (.addType (.array rfl (.given (by simp [references]))))
  | functionType result arguments variadic convention =>
    exact .single (.addType (.function (.given (by simp [references]))
      fun t ht => .given (by simp [references, ht])))
  | elaborated t =>
    have huse : (elaborated t).MayUse b t := .given (by simp [references])
    exact .single (.addType (.elaborated huse huse.canonicalId))
  | attributed t =>
    have huse : (attributed t).MayUse b t := .given (by simp [references])
    exact .single (.addType (.attributed huse huse.canonicalId))
  | unexposed t => exact .single (.addType (.unexposed (.given (by simp [references]))))
  | defineRecord t fields =>
    exact defineRecord_edits (defineRecord t fields) t (List.subset_cons_self t _)
  | record tag name fields =>
    exact namedRecord_edits (record tag name fields) tag (some fields) rfl
      (by rintro _ ⟨⟩; exact List.Subset.refl _)
  | forwardRecord tag name =>
    exact namedRecord_edits (forwardRecord tag name) tag none rfl (by simp)
  | anonymousRecord tag fields =>
    exact namelessRecord_edits (anonymousRecord tag fields) (List.Subset.refl _)
  | unnamedStruct fields => exact namelessRecord_edits (unnamedStruct fields) (List.Subset.refl _)
  | typedefStruct name fields =>
    exact typedefStruct_edits (typedefStruct name fields) rfl (List.Subset.refl _)
  | typedef name t =>
    have huse : (typedef name t).MayUse b t := .given (by simp [references])
    exact typedef_edits rfl huse
  | enum name values => exact namedEnum_edits (enum name values) rfl values
  | anonymousEnum values topLevel => exact anonymousEnum_edits _ values topLevel
  | function name result parameters variadic =>
    exact function_edits (function name result parameters variadic) name List.mem_cons_self
      (List.subset_cons_self result _) _ _
  | functionOfType name t names =>
    exact addFunction_edits name (.given (by simp [references])) names _
  | staticFunction name result =>
    exact function_edits (staticFunction name result) name List.mem_cons_self (by simp) _ _
  | globalVariable name t linkage =>
    exact topLevel_edits ⟨rfl, .given (by simp [references]), rfl, rfl, by simp⟩ 1
  | macroDefinition sort name tokens => exact topLevel_edits ⟨rfl, .invalid, rfl, rfl, by simp⟩ _

end Builder
end HeaderSurvey
