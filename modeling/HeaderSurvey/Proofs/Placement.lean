import HeaderSurvey.Proofs.Construction
import HeaderSurvey.Proofs.Descriptions
import HeaderSurvey.Proofs.Footprint

/-! Every declaration of a unit that is built step by step has a place. The types that references
stand for are of a sort that has none, or are declared; fields, parameters and the top level are
declarations themselves. So a survey never looks for the place of a declaration that does not
exist. -/
namespace HeaderSurvey

/-- Any error but `noDeclaration`. -/
def SurveyError.Placed (e : SurveyError) : Prop := ∀ spelling, e ≠ .noDeclaration spelling

theorem SurveyError.Wild.placed {e : SurveyError} (h : e.Wild) : e.Placed := by
  rintro spelling rfl
  exact h ⟨by simp, by simp⟩

def TypeKind.isPlaceless (k : TypeKind) : Bool :=
  k.isFunction ∨ k = .pointer ∨ k.isArray ∨ k.isPrimitive

private theorem Kind.sort_of_covers {kind : Kind} {k : TypeKind} (h : kind.covers k = true) :
    k.isDeclared = true ∨ k.isPlaceless = true := by
  cases kind with
  | struct | union | enum | typeAlias | opaqueType =>
    left
    simp only [Kind.covers, decide_eq_true_eq] at h
    simp only [TypeKind.isDeclared, decide_eq_true_eq]
    tauto
  | function | functionPointer | pointer | array | primitive =>
    right
    simp_all [Kind.covers, TypeKind.isPlaceless]
  | macroObject | globalVariable => cases h

theorem Places.locate_placed (p : Places) {c : Cursor} {entry : TypeEntry}
    (h : entry.kind.isPlaceless = true ∨ c.kind ≠ .noDeclFound) :
    OnlyErrors SurveyError.Placed (p.locate c entry) := by
  unfold Places.locate
  split_ifs with hnone hmissing
  · exact .ok _
  · have hplaceless := h.resolve_right (not_not_intro hmissing)
    simp only [TypeKind.isPlaceless, decide_eq_true_eq] at hplaceless
    refine absurd ?_ hnone
    rcases hplaceless with hfunction | hrest
    · exact .inr (.inl ⟨hfunction, by rw [hmissing]; decide⟩)
    · exact .inr (.inr hrest)
  · exact .ok _

namespace TranslationUnit

/-- `t` has a place, or is of a kind that has none. No attribute is on it. -/
structure Sited (u : TranslationUnit) (t : TypeId) : Prop where
  plain : ∀ entry, u.typeAt t = .ok entry → entry.kind ≠ .attributed
  place : ∀ entry declaration, u.typeAt t = .ok entry → u.declarationOf entry = .ok declaration →
    entry.kind.isPlaceless = true ∨ declaration.kind ≠ .noDeclFound

/-- All that a survey calls `locate` for can be placed. -/
structure Locatable (u : TranslationUnit) : Prop where
  classified : ∀ t kind r, u.classify t = .ok (kind, r) → u.Sited r
  fields : ∀ t entry, u.typeAt t = .ok entry → ∀ id ∈ entry.fields, u.IsField id

variable {u : TranslationUnit} {t : TypeId}

theorem Sited.unwrapAttributed {t' : TypeId} (h : u.Sited t) (ht : u.unwrapAttributed t = .ok t') :
    t' = t := by
  simp only [TranslationUnit.unwrapAttributed, bind_eq_ok_iff, pure_eq_ok_iff] at ht
  obtain ⟨entry, hentry, rfl⟩ := ht
  rw [if_neg (h.plain entry hentry)]

private theorem Paired.sited {N : String → String → Bool → Prop} (hu : u.Paired N)
    (hall : u.DeclaresAll) {kind : Kind} {r : TypeId} (hc : u.Classifies t kind r) : u.Sited r := by
  obtain ⟨entry, hentry, hcovers⟩ := hc.covered
  constructor
  · intro entry' hentry' hattributed
    cases hentry.symm.trans hentry'
    rw [hattributed, kind.covers_attributed] at hcovers
    cases hcovers
  · intro entry' declaration hentry' hdeclaration
    cases hentry.symm.trans hentry'
    rcases Kind.sort_of_covers hcovers with hdeclared | hplaceless
    · obtain ⟨cursor, howns, -⟩ := hu.owns_declared hall hc hentry hdeclared
      cases howns.cursor_eq.symm.trans hdeclaration
      exact .inr howns.kind_ne
    · exact .inl hplaceless

theorem IsField.kind_ne {id : CursorId} {c : Cursor} (h : u.IsField id)
    (hc : u.cursorAt id = .ok c) :
    c.kind ≠ .noDeclFound := by
  obtain ⟨cursor, hcursor, hkind⟩ := h
  cases (cursorAt_eq_ok.2 hcursor).symm.trans hc
  rw [hkind]
  decide

end TranslationUnit

namespace Builder

variable {step : Step} {b b' : Builder}

private theorem Step.Edit.isField (e : step.Edit b b') {id : CursorId} (h : b.unit.IsField id) :
    b'.unit.IsField id := by
  obtain ⟨cursor, hcursor, hkind⟩ := h
  have hfixed := getElem?_extended e.extends.prefixes.1
    (TranslationUnit.fixedCursors_getElem? hcursor)
  obtain ⟨cursor', hcursor', heq⟩ := TranslationUnit.cursorAt_of_fixedCursors hfixed
  exact ⟨cursor', TranslationUnit.cursorAt_eq_ok.1 hcursor', (congrArg Cursor.kind heq).trans hkind⟩

private theorem build_fields (file triple : String) (pointerBits : Nat) (steps : List Step) :
    ∀ t ∈ (build file triple pointerBits steps).types.toList, ∀ id ∈ t.fields,
      (build file triple pointerBits steps).IsField id := by
  refine foldl_run_keeps (Q := fun u => ∀ t ∈ u.types.toList, ∀ id ∈ t.fields, u.IsField id) ?_ ?_
  · intro t ht id hid
    rw [List.mem_singleton.1 ht] at hid
    cases hid
  · intro step _ b b' e h
    exact e.fields (fun t ht id hid => e.isField (h t ht id hid)) fun _ => e.isField

private theorem build_locatable (file triple : String) (pointerBits : Nat) (steps : List Step) :
    (build file triple pointerBits steps).Locatable := by
  constructor
  · intro t kind r h
    exact (build_paired_any file triple pointerBits steps).sited
      (build_declaresAll file triple pointerBits steps) (TranslationUnit.classify_sound h)
  · intro t entry h
    have hmem := Array.mem_of_getElem? (TranslationUnit.typeAt_eq_ok.1 h)
    exact build_fields file triple pointerBits steps entry (Array.mem_toList_iff.2 hmem)

end Builder

/-! ## Look-ups and names -/

namespace TranslationUnit

variable {u : TranslationUnit}

theorem typeAt_placed (t : TypeId) : OnlyErrors SurveyError.Placed (u.typeAt t) :=
  (typeAt_wild t).mono fun _ => SurveyError.Wild.placed

theorem cursorAt_placed (c : CursorId) : OnlyErrors SurveyError.Placed (u.cursorAt c) :=
  (cursorAt_wild c).mono fun _ => SurveyError.Wild.placed

theorem unwrapAttributed_placed (t : TypeId) :
    OnlyErrors SurveyError.Placed (u.unwrapAttributed t) :=
  (typeAt_placed t).bind fun _ _ => .ok _

theorem childrenWhere_placed (c : Cursor) (test : Cursor → Bool) :
    OnlyErrors SurveyError.Placed (u.childrenWhere c test) := by
  refine (OnlyErrors.mapM fun id _ => ?_).bind fun _ _ => .ok _
  exact (cursorAt_placed id).bind fun _ _ => .ok _

private theorem declaredType_placed (t : TypeId) :
    OnlyErrors SurveyError.Placed (u.declaredType t) := by
  refine (typeAt_placed t).bind fun entry _ => (cursorAt_placed _).bind fun declaration _ => ?_
  split
  · exact .ok _
  · exact (typeAt_placed _).bind fun _ _ => .ok _

private theorem pointsToFunction_placed (entry : TypeEntry) :
    OnlyErrors SurveyError.Placed (u.pointsToFunction entry) := by
  refine (unwrapAttributed_placed _).bind fun t _ => (typeAt_placed t).bind fun pointee _ => ?_
  exact (typeAt_placed _).bind fun _ _ => .ok _

private theorem classifyWithin_placed (levels : Nat) (t : TypeId) :
    OnlyErrors SurveyError.Placed (u.classifyWithin levels t) := by
  induction levels generalizing t with
  | zero => exact (typeAt_placed t).bind fun _ _ => .error (by simp [SurveyError.Placed])
  | succ levels ih =>
    refine (declaredType_placed t).bind fun d _ => ?_
    dsimp only
    split
    · exact .ok _
    · split
      case h_3 =>
        refine (typeAt_placed _).bind fun underlying _ => ?_
        split
        · exact .ok _
        · exact (ih _).bind fun r _ => (typeAt_placed _).bind fun _ _ => .ok _
      case h_6 => exact (pointsToFunction_placed _).bind fun _ _ => .ok _
      case h_7 => exact ih _
      case h_8 => exact ih _
      case h_11 =>
        split
        · exact .error (by simp [SurveyError.Placed])
        · exact ih _
      case h_12 => exact .error (by simp [SurveyError.Placed])
      all_goals exact .ok _

theorem classify_placed (t : TypeId) : OnlyErrors SurveyError.Placed (u.classify t) :=
  classifyWithin_placed _ t

end TranslationUnit

namespace Context

open TranslationUnit

variable {x : Context} {kind : Kind} {name : String} {t : TypeId} {parent : Option String}
  {index : Nat} {node : VisitNode} {s : Session}

private theorem typeName_placed : OnlyErrors SurveyError.Placed (x.typeName kind t parent index) :=
  typeName_onlyErrors (by simp [SurveyError.Placed]) (by simp [SurveyError.Placed])
    (typeAt_placed t)
    (fun _ _ => cursorAt_placed _) fun _ _ => typeAt_placed _

/-! ## References -/

theorem visitNode_placed {c : CursorId} (h : ∀ cursor entry, x.unit.cursorAt c = .ok cursor →
      x.unit.typeAt t = .ok entry → entry.kind.isPlaceless = true ∨ cursor.kind ≠ .noDeclFound) :
    OnlyErrors SurveyError.Placed (x.visitNode kind name c t parent index) := by
  refine typeName_placed.bind fun typeName _ => (cursorAt_placed c).bind fun cursor hcursor => ?_
  refine (typeAt_placed t).bind fun entry hentry => ?_
  exact (x.places.locate_placed (h cursor entry hcursor hentry)).bind fun _ _ => .ok _

theorem visitNode_sited {entry : TypeEntry} (ht : x.unit.Sited t)
    (hentry : x.unit.typeAt t = .ok entry) :
    OnlyErrors SurveyError.Placed (x.visitNode kind name entry.declarationId t parent index) := by
  refine visitNode_placed fun cursor entry' hcursor hentry' => ?_
  cases hentry.symm.trans hentry'
  exact ht.place entry cursor hentry hcursor

private theorem namedBy_placed {referrer : Option TypeId} (h : ∀ r ∈ referrer, x.unit.Sited r) :
    OnlyErrors SurveyError.Placed (x.namedBy referrer node) := by
  unfold namedBy
  split
  · next r _ =>
    refine (typeAt_placed r).bind fun entry hentry => ?_
    refine (cursorAt_placed _).bind fun declaration hdeclaration => ?_
    have hplace := (h r rfl).place entry declaration hentry hdeclaration
    exact (x.places.locate_placed hplace).bind fun _ _ => .ok _
  · exact .ok _

private theorem resolveWithin_placed (h : x.unit.Locatable) {referrer : Option TypeId}
    (hr : ∀ r ∈ referrer, x.unit.Sited r) (aliases : Nat) (candidate : TypeId) :
    OnlyErrors SurveyError.Placed (x.resolveWithin parent index aliases candidate referrer) := by
  induction aliases generalizing candidate referrer with
  | zero => exact .error (by simp [SurveyError.Placed])
  | succ aliases ih =>
    refine (classify_placed candidate).bind fun c hclass => ?_
    have hsited := h.classified candidate c.1 c.2 hclass
    refine (typeAt_placed c.2).bind fun entry hentry =>
      (cursorAt_placed _).bind fun declaration _ => ?_
    refine (visitNode_sited hsited hentry).bind fun made _ =>
      (namedBy_placed hr).bind fun node _ => ?_
    split
    · exact .ok _
    · split
      · refine (classify_placed _).bind fun c' _ => ?_
        dsimp only
        split
        · refine ih ?_ c'.2
          rintro r ⟨⟩
          exact hsited
        · exact .ok _
      · exact .ok _

/-- `resolve` leads to types that are `Sited`. -/
theorem resolve_sited (h : x.unit.Locatable) {candidate container : TypeId}
    (hr : x.resolve candidate parent index = .ok (node, container)) : x.unit.Sited node.type := by
  obtain ⟨referrer, g, ⟨-, rfl⟩ | ⟨-, rfl, -⟩⟩ := (resolve_sound hr).sighting
  all_goals
    rw [g.node_type]
    exact h.classified _ _ _ g.classified

theorem useWithin_placed (h : x.unit.Locatable) (layers : Nat) (ht : x.unit.Sited t)
    (container : TypeId) :
    OnlyErrors SurveyError.Placed (x.useWithin layers kind name t container) := by
  induction layers generalizing kind name t container with
  | zero => exact .error (by simp [SurveyError.Placed])
  | succ layers ih =>
    refine (unwrapAttributed_placed t).bind fun t' ht' => ?_
    obtain rfl := ht.unwrapAttributed ht'
    refine (typeAt_placed _).bind fun entry hentry => (typeAt_placed _).bind fun holder _ => ?_
    have hsize : OnlyErrors SurveyError.Placed (x.elementSize entry) :=
      (classify_placed _).bind fun _ _ => (typeAt_placed _).bind fun _ _ => .ok _
    have hplace : ∀ declaration, x.unit.declarationOf entry = .ok declaration →
        OnlyErrors SurveyError.Placed (x.places.locate declaration entry) := fun declaration hd =>
      x.places.locate_placed (ht.place entry declaration hentry hd)
    refine (layerOf_onlyErrors holder hsize (cursorAt_placed _) hplace).bind fun layer _ => ?_
    split
    · exact .ok _
    · next candidate _ =>
      refine (classify_placed candidate).bind fun r hr => (typeAt_placed _).bind fun target _ => ?_
      exact (ih (h.classified _ _ _ hr) candidate).bind fun _ _ => .ok _

theorem visit_placed (h : x.unit.Locatable) (candidate : TypeId) (parent : Option String)
    (index : Nat) :
    OnlyFails SurveyError.Placed (x.visit candidate parent index) s := by
  refine visit_onlyFails (resolveWithin_placed h (by simp) _ candidate)
    (fun node container hr s => ?_)
    fun node container hr => useWithin_placed h _ (resolve_sited h hr) container
  exact offer_wild.mono fun _ => SurveyError.Wild.placed

/-! ## The top level -/

theorem topLevelType_placed (c : Cursor) : OnlyErrors SurveyError.Placed (x.topLevelType c) :=
  (typeAt_placed _).bind fun _ _ => unwrapAttributed_placed _

theorem kind_ne_of_topLevelKind? {c : Cursor} (h : topLevelKind? c = some kind) :
    c.kind ≠ .noDeclFound := by
  intro hc
  rw [topLevelKind?, hc] at h
  cases h

private theorem passOver_placed (kind : Kind) (c : Cursor) :
    OnlyErrors SurveyError.Placed (x.passOver kind c) := by
  unfold passOver
  split
  · exact (typeAt_placed _).bind fun _ _ => .ok _
  · exact .ok _

private theorem visitTopLevel_placed {id : CursorId} {c : Cursor}
    (hc : x.unit.cursorAt id = .ok c) :
    OnlyFails SurveyError.Placed (x.visitTopLevel id c) s := by
  unfold visitTopLevel
  split
  · exact .pure _
  · next hkind =>
    split
    · exact .lift (passOver_placed _ c)
    · refine (OnlyFails.lift (topLevelType_placed c)).bind fun t _ _ => ?_
      refine (OnlyFails.lift (visitNode_placed fun cursor entry hcursor _ => ?_)).bind
        fun node _ _ => ?_
      · cases hc.symm.trans hcursor
        exact .inr (kind_ne_of_topLevelKind? hkind)
      · exact (offer_wild.mono fun _ => SurveyError.Wild.placed).bind fun _ _ _ => .pure _

private theorem scan_placed : OnlyFails SurveyError.Placed x.scan s := by
  refine (OnlyFails.lift (cursorAt_placed _)).bind fun root _ _ => ?_
  refine (OnlyFails.lift (childrenWhere_placed root _)).bind fun children _ hchildren => ?_
  refine OnlyFails.forM fun child hmem s => visitTopLevel_placed ?_
  exact (mem_childrenWhere (returns_lift.1 hchildren).1 hmem).2.1

/-! ## Finishing a node -/

theorem finishMacro_placed : OnlyFails SurveyError.Placed (x.finishMacro node) s :=
  (OnlyFails.lift (cursorAt_placed _)).bind fun _ _ _ => .pure _

private theorem finishVariable_placed (h : x.unit.Locatable) :
    OnlyFails SurveyError.Placed (x.finishVariable node) s := by
  refine (OnlyFails.lift (classify_placed _)).bind fun r _ hr => ?_
  have hsited := h.classified _ _ _ (returns_lift.1 hr).1
  refine (OnlyFails.lift typeName_placed).bind fun typeName _ _ => ?_
  exact (OnlyFails.lift (useWithin_placed h _ hsited _)).bind fun _ _ _ => .pure _

/-- A field or parameter: `visit` of its type, then `locate` of its place. -/
theorem visitLocated_placed {α : Type} (h : x.unit.Locatable) {c : Cursor}
    (hc : c.kind ≠ .noDeclFound) (f : TypeUse → Location → α) : OnlyFails SurveyError.Placed (do
      let type ← x.visit c.type parent index
      let location ← x.places.locate c (← x.unit.typeAt c.type)
      return f type location : SurveyM α) s := by
  refine (visit_placed h _ _ _).bind fun type _ _ => ?_
  refine (OnlyFails.lift (typeAt_placed _)).bind fun entry _ _ => ?_
  exact (OnlyFails.lift (x.places.locate_placed (.inr hc))).bind fun _ _ _ => .pure _

private theorem finishFunction_placed (h : x.unit.Locatable) :
    OnlyFails SurveyError.Placed (x.finishFunction node) s := by
  refine (OnlyFails.lift (typeAt_placed _)).bind fun entry _ _ => ?_
  refine (visit_placed h _ _ _).bind fun result _ _ => ?_
  refine (OnlyFails.lift (cursorAt_placed _)).bind fun cursor _ _ => ?_
  refine (OnlyFails.lift (childrenWhere_placed cursor _)).bind fun children _ hchildren => ?_
  refine (OnlyFails.mapM fun e hmem s => ?_).bind fun _ _ _ => .pure _
  obtain ⟨-, -, hkind⟩ := mem_childrenWhere (returns_lift.1 hchildren).1
    (List.fst_mem_of_mem_zipIdx hmem)
  refine visitLocated_placed h ?_ _
  rw [eq_of_beq hkind]
  decide

theorem finishRecord_placed (h : x.unit.Locatable) :
    OnlyFails SurveyError.Placed (x.finishRecord node) s := by
  refine (OnlyFails.lift (typeAt_placed _)).bind fun entry _ hentry => ?_
  refine (OnlyFails.mapM fun e hmem s => ?_).bind fun _ _ _ => .pure _
  have hfield := h.fields _ entry (returns_lift.1 hentry).1 e.1 (List.fst_mem_of_mem_zipIdx hmem)
  refine (OnlyFails.lift (cursorAt_placed _)).bind fun c _ hc => ?_
  exact visitLocated_placed h (hfield.kind_ne (returns_lift.1 hc).1) _

private theorem finishEnum_placed (h : x.unit.Locatable) :
    OnlyFails SurveyError.Placed (x.finishEnum node) s := by
  refine (OnlyFails.lift (cursorAt_placed _)).bind fun cursor _ _ => ?_
  refine (visit_placed h _ _ _).bind fun integerType _ _ => ?_
  exact (OnlyFails.lift (childrenWhere_placed cursor _)).bind fun _ _ _ => .pure _

private theorem pointedFunction_placed (entry : TypeEntry) :
    OnlyErrors SurveyError.Placed (x.pointedFunction entry) := by
  refine (unwrapAttributed_placed _).bind fun t _ => (typeAt_placed t).bind fun pointee _ => ?_
  split
  · exact .ok _
  · exact (unwrapAttributed_placed _).bind fun t' _ => typeAt_placed t'

private theorem finishFunctionPointer_placed (h : x.unit.Locatable) :
    OnlyFails SurveyError.Placed (x.finishFunctionPointer node) s := by
  refine (OnlyFails.lift (typeAt_placed _)).bind fun entry _ _ => ?_
  refine (OnlyFails.lift (pointedFunction_placed entry)).bind fun function _ _ => ?_
  refine (visit_placed h _ _ _).bind fun result _ _ => ?_
  refine (OnlyFails.mapM fun e _ s => ?_).bind fun _ _ _ => .pure _
  exact (visit_placed h _ _ _).bind fun _ _ _ => .pure _

private theorem finishAlias_placed (h : x.unit.Locatable) :
    OnlyFails SurveyError.Placed (x.finishAlias node) s := by
  refine (OnlyFails.lift (cursorAt_placed _)).bind fun cursor _ _ => ?_
  refine (OnlyFails.lift (classify_placed _)).bind fun r _ hr => ?_
  have hsited := h.classified _ _ _ (returns_lift.1 hr).1
  dsimp only
  split
  · refine (OnlyFails.lift (typeAt_placed _)).bind fun entry _ hentry => ?_
    refine (OnlyFails.lift (visitNode_sited hsited (returns_lift.1 hentry).1)).bind
      fun flattened _ _ => ?_
    refine (OnlyFails.modify _).bind fun _ _ _ => ?_
    split
    · exact finishEnum_placed h
    · exact finishFunctionPointer_placed h
    · exact finishRecord_placed h
  · exact (visit_placed h _ _ _).bind fun _ _ _ => .pure _

private theorem finish_placed (h : x.unit.Locatable) :
    OnlyFails SurveyError.Placed (x.finish node) s := by
  refine (OnlyFails.modify _).bind fun _ t _ => ?_
  split
  · exact finishMacro_placed
  · exact finishVariable_placed h
  · exact finishFunction_placed h
  · exact finishRecord_placed h
  · exact finishRecord_placed h
  · exact finishEnum_placed h
  · exact finishAlias_placed h
  · exact .pure _
  · exact finishFunctionPointer_placed h
  · refine (OnlyFails.lift (typeAt_placed _)).bind fun entry _ _ => ?_
    exact (visit_placed h _ _ _).bind fun _ _ _ => .pure _
  · refine (OnlyFails.lift (typeAt_placed _)).bind fun entry _ _ => ?_
    exact (visit_placed h _ _ _).bind fun _ _ _ => .pure _
  · exact .pure _

/-! ## Rounds -/

variable {p : Progress}

private theorem complete_placed (h : x.unit.Locatable) :
    OnlyFails SurveyError.Placed (x.complete node) p := by
  refine (OnlyFails.onSession ?_).bind fun _ _ _ => .modify _
  exact (finish_placed h).bind fun _ _ _ => (OnlyFails.modify _).bind fun _ _ _ => .pure _

private theorem unending_placed {σ α : Type} {s : σ} :
    OnlyFails SurveyError.Placed (throw .unending : StepM σ α) s := by
  rintro e t hfails spelling rfl
  cases (fails_throw.1 hfails).1

theorem drain_placed (h : x.unit.Locatable) (c : Category) (rounds : Nat) :
    OnlyFails SurveyError.Placed (x.drain c rounds) p := by
  induction rounds generalizing p with
  | zero => exact unending_placed
  | succ rounds ih =>
    have htake : OnlyFails SurveyError.Placed (onSession (Session.take c)) p :=
      .onSession (OnlyFails.get.bind fun _ _ _ => (OnlyFails.set _).bind fun _ _ _ => .pure _)
    refine htake.bind fun batch _ _ => ?_
    split
    · exact .pure _
    · exact (OnlyFails.forM fun _ _ _ => complete_placed h).bind fun _ _ _ => ih

private theorem alternateFor_placed (h : x.unit.Locatable) (rounds turns : Nat) :
    OnlyFails SurveyError.Placed (x.alternateFor rounds turns) p := by
  induction turns generalizing p with
  | zero => exact unending_placed
  | succ turns ih =>
    refine OnlyFails.get.bind fun _ _ _ => ?_
    split
    · exact .pure _
    · exact (drain_placed h .functions rounds).bind fun _ _ _ =>
        (drain_placed h .types rounds).bind fun _ _ _ => ih

private theorem runFor_placed (h : x.unit.Locatable) (rounds turns : Nat) :
    OnlyFails SurveyError.Placed (x.runFor rounds turns) p := by
  refine (OnlyFails.onSession scan_placed).bind fun _ _ _ => ?_
  refine (drain_placed h .macros rounds).bind fun _ _ _ => ?_
  exact (drain_placed h .globals rounds).bind fun _ _ _ => alternateFor_placed h rounds turns

/-- A survey from `start` never looks for the place of a declaration that does not exist. -/
structure PlacesAll (x : Context) (start : Progress) : Prop where
  /-- However many rounds and turns a run is given. -/
  runs : ∀ rounds turns spelling p,
    ¬ Fails (x.runFor rounds turns) start (.noDeclaration spelling) p
  /-- Over however many aliases a reference is followed. -/
  references : ∀ aliases parent index candidate spelling,
    x.resolveWithin parent index aliases candidate none ≠ .error (.noDeclaration spelling)
  /-- Over however many layers the type that a reference leads to is described. -/
  uses : ∀ layers parent index candidate node container,
    x.resolve candidate parent index = .ok (node, container) → ∀ spelling,
    x.useWithin layers node.kind node.typeName node.type container ≠
      .error (.noDeclaration spelling)

private theorem placesAll_of_locatable (h : x.unit.Locatable) (start : Progress) :
    x.PlacesAll start := by
  refine ⟨?_, ?_, ?_⟩
  · intro rounds turns spelling p hfails
    exact runFor_placed h rounds turns _ p hfails spelling rfl
  · intro aliases parent index candidate spelling herror
    exact resolveWithin_placed h (by simp) aliases candidate _ herror spelling rfl
  · intro layers parent index candidate node container hresolve spelling herror
    exact useWithin_placed h layers (resolve_sited h hresolve) container _ herror spelling rfl

end Context

/-- Whatever steps a unit is built by, and whatever the settings, `surveyFor` places all that it
meets: it does not fail with `SurveyError.noDeclaration`, however many rounds and turns it is
allowed, and each run of it is `Context.PlacesAll`. -/
theorem surveyFor_places_all (file triple : String) (pointerBits : Nat) (steps : List Builder.Step)
    (s : Settings) :
    (∀ rounds turns spelling,
      surveyFor rounds turns s (Builder.build file triple pointerBits steps) ≠
        .error (.noDeclaration spelling)) ∧
      ∀ x start, beginSurvey s (Builder.build file triple pointerBits steps) = .ok (x, start) →
        x.PlacesAll start := by
  have hall : ∀ x start, beginSurvey s (Builder.build file triple pointerBits steps) =
      .ok (x, start) →
      x.PlacesAll start := by
    intro x start hbegin
    obtain ⟨requested, actual, -, -, rfl, rfl⟩ := beginSurvey_eq_ok hbegin
    exact Context.placesAll_of_locatable (Builder.build_locatable file triple pointerBits steps) _
  refine ⟨fun rounds turns spelling herror => ?_, hall⟩
  rcases surveyFor_eq_error herror with hbegin | ⟨x, start, p, hbegin, hfails⟩
  · exact beginSurvey_onlyErrors (P := SurveyError.Placed) (by simp [SurveyError.Placed])
      (by simp [SurveyError.Placed]) s _ _ hbegin spelling rfl
  · exact (hall x start hbegin).runs rounds turns spelling p hfails

-- A unit that was not built so may lack a declaration: here that of the record which a function
-- returns.
example : surveyFor 8 2 {}
    { filePath := "a.h"
      target := { triple := "x86_64-unknown-linux-gnu", pointerBits := 64 }
      cursors := #[
        { kind := .translationUnit, spelling := "a.h", children := [2] },
        { kind := .noDeclFound },
        { kind := .functionDecl, spelling := "f", type := 2, linkage := .external }]
      types := #[
        { kind := .invalid },
        { kind := .record, spelling := "struct S", size := 4, align := 4 },
        { kind := .functionProto, spelling := "struct S (void)", result := some 1 }] } =
    .error (.noDeclaration "struct S") := by decide +kernel

end HeaderSurvey
