import HeaderSurvey.Proofs.Building
import HeaderSurvey.Proofs.Footprint
import HeaderSurvey.Proofs.Validity

/-! Units that differ in the children of their cursors only. Children are looked at in two places:
the scan goes through those of the root, and a function or an enumeration is finished with its
parameters or its constants. So once the top level has been scanned, a survey does not see which
other children there are. -/
namespace HeaderSurvey

namespace TranslationUnit

/-- What is `fixed` about the children of `c` that are of that `kind`. -/
def partsOf (u : TranslationUnit) (c : Cursor) (kind : CursorKind) :
    Except SurveyError (List Cursor) := do
  return (← u.childrenOfKind c kind).map (·.2.fixed)

/-- The units have the same types and the same cursors, with the same parameters and constants. -/
structure Alike (u v : TranslationUnit) : Prop where
  types : v.types = u.types
  cursors : v.fixedCursors = u.fixedCursors
  parts : ∀ c cursor cursor', u.cursorAt c = .ok cursor → v.cursorAt c = .ok cursor' →
    ∀ kind ∈ [.parmDecl, .enumConstantDecl], v.partsOf cursor' kind = u.partsOf cursor kind

namespace Alike

variable {u v : TranslationUnit} {β : Type}

theorem typeAt (h : u.Alike v) (t : TypeId) : v.typeAt t = u.typeAt t := by
  simp only [TranslationUnit.typeAt, h.types]

/-- `Alike` units have the same cursors up to `children`. -/
theorem cursorAt_cases (h : u.Alike v) (c : CursorId) :
    (∃ cursor children, u.cursorAt c = .ok cursor ∧ v.cursorAt c = .ok { cursor with children }) ∨
      ∃ e, u.cursorAt c = .error e ∧ v.cursorAt c = .error e := by
  have hc := congrArg (·[c]?) h.cursors
  simp only [fixedCursors, List.getElem?_map, Array.getElem?_toList] at hc
  unfold cursorAt
  cases hu : u.cursors[c]? with
  | none =>
    rw [hu] at hc
    rw [Option.map_eq_none_iff.1 hc]
    exact Or.inr ⟨_, rfl, rfl⟩
  | some cursor =>
    rw [hu] at hc
    obtain ⟨cursor', hv, hfixed⟩ := Option.map_eq_some_iff.1 hc
    rw [hv]
    refine Or.inl ⟨cursor, cursor'.children, rfl, ?_⟩
    have hback : cursor' = { cursor'.fixed with children := cursor'.children } := rfl
    rw [hfixed] at hback
    exact congrArg Except.ok hback

theorem cursorAt_bind (h : u.Alike v) {f f' : Cursor → Except SurveyError β} (c : CursorId)
    (hf : ∀ cursor children, f' { cursor with children } = f cursor) :
    (v.cursorAt c >>= f') = (u.cursorAt c >>= f) := by
  rcases h.cursorAt_cases c with ⟨cursor, children, hu, hv⟩ | ⟨e, hu, hv⟩
  · rw [hu, hv]
    exact hf cursor children
  · rw [hu, hv]
    rfl

theorem cursorAt_bind_step (h : u.Alike v) {f f' : Cursor → SurveyM β} (c : CursorId)
    (hf : ∀ cursor children, u.cursorAt c = .ok cursor →
      v.cursorAt c = .ok { cursor with children } → f' { cursor with children } = f cursor) :
    ((v.cursorAt c : SurveyM Cursor) >>= f') = ((u.cursorAt c : SurveyM Cursor) >>= f) := by
  rcases h.cursorAt_cases c with ⟨cursor, children, hu, hv⟩ | ⟨e, hu, hv⟩
  · rw [hu, hv]
    exact hf cursor children hu hv
  · rw [hu, hv]
    rfl

/-- A step over parameters or enumeration constants that reads no `children` is the same in `Alike`
units. -/
theorem childrenOfKind_bind_step (h : u.Alike v) {c : CursorId} {cursor cursor' : Cursor}
    {kind : CursorKind} {f f' : List (CursorId × Cursor) → SurveyM β}
    (hu : u.cursorAt c = .ok cursor) (hv : v.cursorAt c = .ok cursor')
    (hk : kind ∈ [.parmDecl, .enumConstantDecl])
    (hf : ∀ l l', l'.map (·.2.fixed) = l.map (·.2.fixed) → f' l' = f l) :
    ((v.childrenOfKind cursor' kind : SurveyM _) >>= f') =
      ((u.childrenOfKind cursor kind : SurveyM _) >>= f) := by
  have hparts := h.parts c cursor cursor' hu hv kind hk
  unfold partsOf at hparts
  cases hl : u.childrenOfKind cursor kind with
  | error e =>
    rw [hl] at hparts
    rcases bind_eq_error_iff.1 hparts with hl' | ⟨l', -, hl'⟩
    · rw [hl']
      rfl
    · cases hl'
  | ok l =>
    rw [hl] at hparts
    obtain ⟨l', hl', heq⟩ := bind_eq_ok_iff.1 hparts
    rw [hl']
    exact hf l l' (pure_eq_ok_iff.1 heq)

theorem unwrapAttributed (h : u.Alike v) (t : TypeId) :
    v.unwrapAttributed t = u.unwrapAttributed t := by
  simp only [TranslationUnit.unwrapAttributed, h.typeAt]

theorem pointsToFunction (h : u.Alike v) (pointer : TypeEntry) :
    v.pointsToFunction pointer = u.pointsToFunction pointer := by
  simp only [TranslationUnit.pointsToFunction, h.unwrapAttributed, h.typeAt]

private theorem declaredType_bind (h : u.Alike v) {f f' : Declared → Except SurveyError β}
    (t : TypeId)
    (hf : ∀ d children, f' { d with declaration := { d.declaration with children } } = f d) :
    (v.declaredType t >>= f') = (u.declaredType t >>= f) := by
  simp only [declaredType, declarationOf, h.typeAt, bind_assoc]
  refine bind_congr fun entry => h.cursorAt_bind _ fun cursor children => ?_
  dsimp only
  split
  · exact hf ⟨t, entry, cursor⟩ children
  · simp only [bind_assoc]
    refine bind_congr fun own => ?_
    by_cases hinvalid : own.kind = .invalid
    · simp only [hinvalid, if_true]
      exact hf ⟨t, entry, cursor⟩ children
    · simp only [hinvalid, if_false]
      exact hf ⟨cursor.type, own, cursor⟩ children

theorem classifyWithin (h : u.Alike v) (n : Nat) (t : TypeId) :
    v.classifyWithin n t = u.classifyWithin n t := by
  induction n generalizing t with
  | zero => simp only [TranslationUnit.classifyWithin, h.typeAt]
  | succ n ih =>
    simp only [TranslationUnit.classifyWithin, h.typeAt, h.pointsToFunction, ih]
    exact h.declaredType_bind t fun _ _ => rfl

theorem classify (h : u.Alike v) (t : TypeId) : v.classify t = u.classify t := h.classifyWithin _ t

end Alike
end TranslationUnit

namespace Context

def withUnit (x : Context) (v : TranslationUnit) : Context := { x with unit := v }

variable {x : Context} {v : TranslationUnit}

@[simp] theorem unit_withUnit : (x.withUnit v).unit = v := rfl

@[simp] theorem places_withUnit : (x.withUnit v).places = x.places := rfl

@[simp] theorem switches_withUnit : (x.withUnit v).switches = x.switches := rfl

@[simp] theorem shownSize_withUnit : (x.withUnit v).shownSize = x.shownSize := rfl

@[simp] theorem isOverridden_withUnit : (x.withUnit v).isOverridden = x.isOverridden := rfl

@[simp] theorem isSkipped_withUnit : (x.withUnit v).isSkipped = x.isSkipped := rfl

@[simp] theorem acceptsCursor_withUnit : (x.withUnit v).acceptsCursor = x.acceptsCursor := rfl

end Context

namespace TranslationUnit.Alike

variable {x : Context} {v : TranslationUnit} (h : x.unit.Alike v)
include h

/-! ## Names and uses -/

theorem spelledName (entry : TypeEntry) :
    (x.withUnit v).spelledName entry = x.spelledName entry := by
  simp only [Context.spelledName, Context.arrayName, Context.unit_withUnit, h.typeAt]

theorem typeName (kind : Kind) (t : TypeId) (parent : Option String) (index : Nat) :
    (x.withUnit v).typeName kind t parent index = x.typeName kind t parent index := by
  simp only [Context.typeName, declarationOf, Context.unit_withUnit, h.typeAt, h.spelledName]
  split
  · rfl
  · exact bind_congr fun entry => h.cursorAt_bind _ fun _ _ => rfl

theorem layerOf (kind : Kind) (name : String) (entry holder : TypeEntry) :
    (x.withUnit v).layerOf kind name entry holder = x.layerOf kind name entry holder := by
  simp only [Context.layerOf, Context.elementSize, declarationOf, Context.unit_withUnit,
    Context.places_withUnit, Context.shownSize_withUnit, h.typeAt, h.classify]
  split
  all_goals exact bind_congr fun size => h.cursorAt_bind _ fun _ _ => rfl

theorem use (kind : Kind) (name : String) (t container : TypeId) :
    (x.withUnit v).use kind name t container = x.use kind name t container := by
  have hwithin : ∀ n kind name t container,
      (x.withUnit v).useWithin n kind name t container = x.useWithin n kind name t container := by
    intro n
    induction n with
    | zero => exact fun _ _ _ _ => rfl
    | succ n ih =>
      intro kind name t container
      simp only [Context.useWithin, Context.unit_withUnit, h.unwrapAttributed, h.typeAt, h.layerOf,
        h.classify, ih]
  simp only [Context.use, Context.unit_withUnit, h.types, hwithin]

/-! ## Nodes -/

theorem visitNode (kind : Kind) (name : String) (c : CursorId) (t : TypeId) (parent : Option String)
    (index : Nat) :
    (x.withUnit v).visitNode kind name c t parent index =
      x.visitNode kind name c t parent index := by
  simp only [Context.visitNode, Context.unit_withUnit, Context.places_withUnit,
    Context.shownSize_withUnit, h.typeName, h.typeAt]
  exact bind_congr fun typeName => h.cursorAt_bind _ fun _ _ => rfl

theorem namedBy (referrer : Option TypeId) (node : VisitNode) :
    (x.withUnit v).namedBy referrer node = x.namedBy referrer node := by
  have hrenamed : ∀ r, (x.withUnit v).renamed node r = x.renamed node r := by
    intro r
    simp only [Context.renamed, declarationOf, Context.unit_withUnit, Context.places_withUnit,
      h.typeAt]
    exact bind_congr fun entry => h.cursorAt_bind _ fun _ _ => rfl
  simp only [Context.namedBy, hrenamed]

theorem resolve (candidate : TypeId) (parent : Option String) (index : Nat) :
    (x.withUnit v).resolve candidate parent index = x.resolve candidate parent index := by
  have hwithin : ∀ n candidate referrer,
      (x.withUnit v).resolveWithin parent index n candidate referrer =
        x.resolveWithin parent index n candidate referrer := by
    intro n
    induction n with
    | zero => exact fun _ _ => rfl
    | succ n ih =>
      intro candidate referrer
      simp only [Context.resolveWithin, Context.unit_withUnit, Context.isOverridden_withUnit,
        h.typeAt, h.classify, h.visitNode, h.namedBy, ih]
      exact bind_congr fun r => bind_congr fun entry => h.cursorAt_bind _ fun _ _ => rfl
  simp only [Context.resolve, Context.unit_withUnit, h.types, hwithin]

/-! ## Offers -/

theorem accepts (node : VisitNode) : (x.withUnit v).accepts node = x.accepts node := by
  have hwithin : ∀ n c children entry,
      (x.withUnit v).acceptsTypeWithin n { c with children } entry =
        x.acceptsTypeWithin n c entry := by
    intro n
    induction n with
    | zero => exact fun _ _ _ => rfl
    | succ n ih =>
      intro c children entry
      simp only [Context.acceptsTypeWithin, declarationOf, Context.unit_withUnit,
        Context.acceptsCursor_withUnit, h.typeAt]
      split
      · rfl
      · refine bind_congr fun inner => h.cursorAt_bind _ fun cursor children => ?_
        simp only [ih]
  simp only [Context.accepts, Context.unit_withUnit, Context.acceptsCursor_withUnit, h.types,
    h.typeAt]
  refine h.cursorAt_bind _ fun cursor children => ?_
  simp only [hwithin]
  rfl

theorem judge (node : VisitNode) : (x.withUnit v).judge node = x.judge node := by
  have hrepetition : ∀ s, (x.withUnit v).repetition? s node = x.repetition? s node := by
    intro s
    simp only [Context.repetition?, Context.unit_withUnit]
    split
    · exact h.cursorAt_bind _ fun _ _ => rfl
    · rfl
    · rfl
    · rfl
  have hremember : (x.withUnit v).rememberTokens node = x.rememberTokens node := by
    simp only [Context.rememberTokens, Context.unit_withUnit]
    split
    · exact h.cursorAt_bind_step _ fun _ _ _ _ => rfl
    · rfl
  simp only [Context.judge, h.accepts, hrepetition, hremember]

theorem offer (node : VisitNode) : (x.withUnit v).offer node = x.offer node := by
  simp only [Context.offer, Context.switches_withUnit, h.judge]

theorem visit (candidate : TypeId) (parent : Option String) (index : Nat) :
    (x.withUnit v).visit candidate parent index = x.visit candidate parent index := by
  simp only [Context.visit, h.resolve, h.offer, h.use]

/-- `visitTopLevel` does not read the `children` of its declaration. -/
theorem visitTopLevel (id : CursorId) {c c' : Cursor} (hc : c'.fixed = c.fixed) :
    (x.withUnit v).visitTopLevel id c' = x.visitTopLevel id c := by
  have hfixed : ∀ c : Cursor, x.visitTopLevel id c = x.visitTopLevel id c.fixed := fun _ => rfl
  have hsame : (x.withUnit v).visitTopLevel id c' = x.visitTopLevel id c' := by
    simp only [Context.visitTopLevel, Context.topLevelType, Context.passOver, Context.unit_withUnit,
      Context.isSkipped_withUnit, Context.switches_withUnit, h.typeAt, h.unwrapAttributed,
      h.visitNode, h.offer]
  rw [hsame, hfixed c', hc, ← hfixed c]

/-! ## Finishing nodes -/

theorem finishParameter (node : VisitNode) (c : Cursor) (index : Nat) :
    (x.withUnit v).finishParameter node c index = x.finishParameter node c index := by
  simp only [Context.finishParameter, Context.unit_withUnit, Context.places_withUnit, h.visit,
    h.typeAt]

theorem finishFunction (node : VisitNode) :
    (x.withUnit v).finishFunction node = x.finishFunction node := by
  -- Only what is fixed about a parameter counts.
  have hfixed : ∀ l : List (CursorId × Cursor),
      (l.zipIdx.mapM fun p => x.finishParameter node p.1.2 p.2) =
        (l.map (·.2.fixed)).zipIdx.mapM fun p => x.finishParameter node p.1 p.2 := by
    intro l
    rw [List.zipIdx_map, List.mapM_map]
    rfl
  simp only [Context.finishFunction, Context.unit_withUnit, h.typeAt, h.visit, h.finishParameter]
  refine bind_congr fun entry => bind_congr fun result => ?_
  refine h.cursorAt_bind_step _ fun cursor children hu hv => ?_
  refine h.childrenOfKind_bind_step hu hv (by simp) fun l l' hl => ?_
  change (l'.zipIdx.mapM fun p => x.finishParameter node p.1.2 p.2) >>= _ =
    (l.zipIdx.mapM fun p => x.finishParameter node p.1.2 p.2) >>= _
  rw [hfixed, hfixed, hl]

theorem finishRecord (node : VisitNode) :
    (x.withUnit v).finishRecord node = x.finishRecord node := by
  have hfield : ∀ id i, (x.withUnit v).finishField node id i = x.finishField node id i := by
    intro id i
    simp only [Context.finishField, Context.unit_withUnit, Context.places_withUnit, h.visit,
      h.typeAt]
    exact h.cursorAt_bind_step _ fun _ _ _ _ => rfl
  simp only [Context.finishRecord, Context.unit_withUnit, h.typeAt, hfield]

theorem finishEnum (node : VisitNode) : (x.withUnit v).finishEnum node = x.finishEnum node := by
  -- Only what is fixed about a constant counts.
  have hfixed : ∀ l : List (CursorId × Cursor),
      (l.map fun constant => (⟨constant.2.spelling, constant.2.enumValue⟩ : EnumValue)) =
        (l.map (·.2.fixed)).map fun c => ⟨c.spelling, c.enumValue⟩ := by
    intro l
    rw [List.map_map]
    rfl
  simp only [Context.finishEnum, Context.unit_withUnit, h.visit]
  refine h.cursorAt_bind_step _ fun cursor children hu hv => bind_congr fun integerType => ?_
  refine h.childrenOfKind_bind_step hu hv (by simp) fun l l' hl => ?_
  rw [hfixed, hfixed, hl]

theorem finishFunctionPointer (node : VisitNode) :
    (x.withUnit v).finishFunctionPointer node = x.finishFunctionPointer node := by
  simp only [Context.finishFunctionPointer, Context.pointedFunction, Context.unit_withUnit,
    h.typeAt, h.unwrapAttributed, h.visit]

theorem finishAlias (node : VisitNode) : (x.withUnit v).finishAlias node = x.finishAlias node := by
  simp only [Context.finishAlias, Context.finishFlattened, Context.unit_withUnit, h.classify,
    h.typeAt, h.visitNode, h.visit, h.finishEnum, h.finishFunctionPointer, h.finishRecord]
  exact h.cursorAt_bind_step _ fun _ _ _ _ => rfl

theorem finish (node : VisitNode) : (x.withUnit v).finish node = x.finish node := by
  have hvariable : (x.withUnit v).finishVariable node = x.finishVariable node := by
    simp only [Context.finishVariable, Context.unit_withUnit, h.classify, h.typeName, h.use]
  have hdefinition : (x.withUnit v).finishMacro node = x.finishMacro node := by
    simp only [Context.finishMacro, Context.unit_withUnit]
    exact h.cursorAt_bind_step _ fun _ _ _ _ => rfl
  simp only [Context.finish, Context.finishPointer, Context.finishArray, Context.unit_withUnit,
    h.typeAt, h.visit, h.finishFunction, h.finishRecord, h.finishEnum, h.finishAlias,
    h.finishFunctionPointer, hvariable,
    hdefinition]

/-! ## Runs -/

theorem complete (node : VisitNode) : (x.withUnit v).complete node = x.complete node := by
  simp only [Context.complete, h.finish]

theorem drain (c : Category) (rounds : Nat) : (x.withUnit v).drain c rounds = x.drain c rounds := by
  have hcomplete : (x.withUnit v).complete = x.complete := funext h.complete
  induction rounds with
  | zero => rfl
  | succ rounds ih => simp only [Context.drain, hcomplete, ih]

theorem alternateFor (rounds turns : Nat) :
    (x.withUnit v).alternateFor rounds turns = x.alternateFor rounds turns := by
  induction turns with
  | zero => rfl
  | succ turns ih => simp only [Context.alternateFor, h.drain, ih]

end TranslationUnit.Alike

/-! ## Units with fewer declarations at the top level -/

namespace TranslationUnit

def cursorD (u : TranslationUnit) (c : CursorId) : Cursor :=
  u.cursors[c]?.getD { kind := .noDeclFound }

/-- Whether a child of the root is a declaration of one of the `hidden` categories, be it offered or
not. -/
def isHidden (u : TranslationUnit) (hidden : List Category) (id : CursorId) : Bool :=
  (Context.topLevelKind? (u.cursorD id)).any fun kind => hidden.contains (Category.ofKind kind)

/-- The unit without the top-level declarations of the `hidden` categories. -/
def withoutTopLevel (u : TranslationUnit) (hidden : List Category) : TranslationUnit :=
  { u with cursors := u.cursors.modify CursorId.root fun root =>
      { root with children := root.children.filter fun id => !u.isHidden hidden id } }

/-- The children that a cursor keeps in `withoutTopLevel`. -/
def keptChildren (u : TranslationUnit) (hidden : List Category) (c : CursorId) (cursor : Cursor) :
    List CursorId :=
  if c = CursorId.root then cursor.children.filter fun id => !u.isHidden hidden id
    else cursor.children

variable {u : TranslationUnit} {hidden : List Category} {c : CursorId} {cursor : Cursor}

theorem keptChildren_subset : u.keptChildren hidden c cursor ⊆ cursor.children := by
  unfold keptChildren
  split
  · exact List.filter_subset_self _
  · exact List.Subset.refl _

theorem cursorAt_of_lt (h : c < u.cursors.size) : u.cursorAt c = .ok (u.cursorD c) := by
  simp [cursorAt, cursorD, h]

theorem cursorD_of_cursorAt (h : u.cursorAt c = .ok cursor) : u.cursorD c = cursor := by
  simp [cursorD, cursorAt_eq_ok.1 h]

theorem childrenWhere_eq (h : ∀ id ∈ cursor.children, id < u.cursors.size) (test : Cursor → Bool) :
    u.childrenWhere cursor test =
      .ok ((cursor.children.map fun id => (id, u.cursorD id)).filter fun child =>
        test child.2) := by
  have hall : ∀ ids : List CursorId, (∀ id ∈ ids, id < u.cursors.size) →
      (ids.mapM fun id => do return (id, ← u.cursorAt id)) =
        .ok (ids.map fun id => (id, u.cursorD id)) := by
    intro ids hids
    induction ids with
    | nil => rfl
    | cons id ids ih =>
      rw [List.mapM_cons, cursorAt_of_lt (hids id List.mem_cons_self),
        ih fun id' hid' => hids id' (List.mem_cons_of_mem id hid')]
      rfl
  rw [childrenWhere, hall cursor.children h]
  rfl

private theorem partsOf_eq (h : ∀ id ∈ cursor.children, id < u.cursors.size) (kind : CursorKind) :
    u.partsOf cursor kind =
      .ok ((cursor.children.map fun id => (u.cursorD id).fixed).filter (·.kind == kind)) := by
  rw [partsOf, childrenOfKind, childrenWhere_eq h]
  refine congrArg Except.ok ?_
  rw [List.filter_map, List.map_map, List.filter_map]
  rfl

theorem cursorAt_withoutTopLevel (h : u.cursorAt c = .ok cursor) :
    (u.withoutTopLevel hidden).cursorAt c =
      .ok { cursor with children := u.keptChildren hidden c cursor } := by
  rw [cursorAt_eq_ok] at h ⊢
  rw [withoutTopLevel, Array.getElem?_modify, h, keptChildren]
  by_cases hroot : c = CursorId.root
  · simp [hroot]
  · rw [if_neg (Ne.symm hroot), if_neg hroot]

private theorem fixedCursors_withoutTopLevel (u : TranslationUnit) (hidden : List Category) :
    (u.withoutTopLevel hidden).fixedCursors = u.fixedCursors := by
  have hfixed : ∀ root : Cursor, Cursor.fixed { root with
      children := root.children.filter fun id => !u.isHidden hidden id } = root.fixed :=
    fun _ => rfl
  simp only [fixedCursors, withoutTopLevel, Array.toList_modify]
  exact Builder.map_modify hfixed _ _

theorem size_withoutTopLevel (u : TranslationUnit) (hidden : List Category) :
    (u.withoutTopLevel hidden).cursors.size = u.cursors.size := Array.size_modify

theorem cursorD_withoutTopLevel (u : TranslationUnit) (hidden : List Category) (id : CursorId) :
    ((u.withoutTopLevel hidden).cursorD id).fixed = (u.cursorD id).fixed := by
  have h := congrArg (·[id]?) (fixedCursors_withoutTopLevel u hidden)
  simp only [fixedCursors, List.getElem?_map, Array.getElem?_toList] at h
  simpa [cursorD, Option.getD_map] using congrArg (·.getD (Cursor.fixed { kind := .noDeclFound })) h

/-- Parameters and enumeration constants are never `isHidden`. -/
theorem isHidden_eq_false {kind : CursorKind} (hk : kind ∈ [.parmDecl, .enumConstantDecl])
    {id : CursorId} (hid : (u.cursorD id).kind = kind) : u.isHidden hidden id = false := by
  simp only [List.mem_cons, List.not_mem_nil, or_false] at hk
  rcases hk with rfl | rfl <;> simp [isHidden, Context.topLevelKind?, hid]

theorem Valid.alike (h : u.Valid) (hidden : List Category) :
    u.Alike (u.withoutTopLevel hidden) := by
  refine ⟨rfl, fixedCursors_withoutTopLevel u hidden, ?_⟩
  intro c cursor cursor' hu hv kind hk
  have hrange := (h.cursor_inRange hu).children
  rw [cursorAt_withoutTopLevel hu] at hv
  cases hv
  have hrange' : ∀ id ∈ u.keptChildren hidden c cursor,
      id < (u.withoutTopLevel hidden).cursors.size := by
    intro id hid
    rw [size_withoutTopLevel]
    exact hrange id (keptChildren_subset hid)
  rw [partsOf_eq hrange, partsOf_eq hrange']
  simp only [cursorD_withoutTopLevel, List.filter_map]
  unfold keptChildren
  split
  · rw [List.filter_filter]
    congr 2
    refine List.filter_congr fun id _ => ?_
    by_cases hid : (u.cursorD id).kind = kind
    · simp [isHidden_eq_false hk hid]
    · simp [Cursor.fixed, hid]
  · rfl

end TranslationUnit
end HeaderSurvey
