import HeaderSurvey.Proofs.Drain
import HeaderSurvey.Proofs.Naming
import HeaderSurvey.Proofs.Safety

/-! A whole survey ends. Every walk of a step ends on a valid unit, and if names do not depend on
where a type is met, there are only finitely many of them, so the rounds end too. -/
namespace HeaderSurvey

/-- Cursor and type of `node` are in the arenas of `u`. -/
structure VisitNode.InRange (u : TranslationUnit) (node : VisitNode) : Prop where
  cursor : node.cursor < u.cursors.size
  type : node.type < u.types.size

namespace Context

variable {x : Context} {strict : Prop} {rank : TypeId → Nat} {node : VisitNode} {s : Session}

theorem visitNode_inRange {kind : Kind} {name : String} {c : CursorId} {t : TypeId}
    {parent : Option String} {index : Nat} (h : x.visitNode kind name c t parent index = .ok node) :
    node.InRange x.unit := by
  obtain ⟨-, hc, ht, -⟩ := visitNode_ok h
  obtain ⟨cursor, entry, hcursor, hentry, -⟩ := visitNode_locate h
  rw [← hc] at hcursor
  rw [← ht] at hentry
  exact ⟨TranslationUnit.lt_of_cursorAt hcursor, TranslationUnit.lt_of_typeAt hentry⟩

theorem Resolves.inRange {candidate container : TypeId} {referrer : Option TypeId}
    {parent : Option String} {index : Nat}
    (h : x.Resolves parent index candidate referrer node container) :
    node.InRange x.unit := by
  obtain ⟨referrer', g, hg⟩ := h.sighting
  have hnode : g.node.InRange x.unit := by
    refine ⟨?_, ?_⟩
    · rw [g.node_cursor]
      exact TranslationUnit.lt_of_cursorAt g.declaration_eq
    · rw [g.node_type]
      exact TranslationUnit.lt_of_typeAt g.entry_eq
  rcases hg with ⟨-, rfl⟩ | ⟨-, rfl, -⟩
  · exact ⟨hnode.cursor, hnode.type⟩
  · exact hnode

theorem Discovered.inRange (h : x.Discovered node) : node.InRange x.unit := by
  rcases h with ⟨-, candidate, parent, index, container, h⟩ | ⟨root, id, c, kind,
    t, -, -, -, -, -, -, -, h⟩
  · exact (resolve_sound h).inRange
  · exact visitNode_inRange h

private theorem accepts_tame (h : x.unit.Ranked rank) (hn : node.InRange x.unit) :
    Tame strict (x.accepts node) := by
  refine (TranslationUnit.cursorAt_tame hn.cursor).bind fun cursor _ => ?_
  split
  · refine (TranslationUnit.typeAt_tame hn.type).bind fun entry he => ?_
    exact acceptsTypeWithin_tame h he (Nat.lt_succ_of_le (h.bounded _))
  · exact .ok _

section Offers

variable {P : SurveyError → Prop}

private theorem repetition?_onlyErrors (hcursor : OnlyErrors P (x.unit.cursorAt node.cursor)) :
    OnlyErrors P (x.repetition? s node) := by
  unfold repetition?
  split
  · exact hcursor.bind fun _ _ => .ok _
  all_goals exact .ok _

private theorem rememberTokens_onlyFails (hcursor : OnlyErrors P (x.unit.cursorAt node.cursor)) :
    OnlyFails P (x.rememberTokens node) s := by
  unfold rememberTokens
  split
  · exact (OnlyFails.lift hcursor).bind fun _ _ _ => .modify _
  · exact .pure _

private theorem judge_onlyFails (hcursor : OnlyErrors P (x.unit.cursorAt node.cursor))
    (haccepts : OnlyErrors P (x.accepts node)) : OnlyFails P (x.judge node) s := by
  refine OnlyFails.get.bind fun _ _ _ => ?_
  split
  · refine OnlyFails.get.bind fun _ _ _ => ?_
    refine (OnlyFails.lift (repetition?_onlyErrors hcursor)).bind fun _ _ _ => ?_
    exact (OnlyFails.modify _).bind fun _ _ _ => .pure _
  · refine (OnlyFails.modify _).bind fun _ _ _ => ?_
    refine (rememberTokens_onlyFails hcursor).bind fun _ _ _ => ?_
    refine (OnlyFails.lift haccepts).bind fun _ _ _ => ?_
    split
    · exact (OnlyFails.modify _).bind fun _ _ _ => .pure _
    · exact .pure _

/-- `offer` fails as `cursorAt` or `accepts` does for its node. -/
theorem offer_onlyFails (hcursor : OnlyErrors P (x.unit.cursorAt node.cursor))
    (haccepts : OnlyErrors P (x.accepts node)) : OnlyFails P (x.offer node) s := by
  unfold offer
  split
  · refine (judge_onlyFails hcursor haccepts).bind fun _ _ _ => ?_
    exact (OnlyFails.modify _).bind fun _ _ _ => .pure _
  · exact (OnlyFails.pure _).bind fun _ _ _ => (OnlyFails.modify _).bind fun _ _ _ => .pure _

end Offers

theorem offer_tame (h : x.unit.Ranked rank) (hn : node.InRange x.unit) :
    TameStep strict (x.offer node) s :=
  offer_onlyFails (TranslationUnit.cursorAt_tame hn.cursor) (accepts_tame h hn)

theorem Resolves.container_lt {candidate container : TypeId} {referrer : Option TypeId}
    {parent : Option String} {index : Nat}
    (h : x.Resolves parent index candidate referrer node container) :
    container < x.unit.types.size := by
  obtain ⟨referrer', g, -⟩ := h.sighting
  exact g.classifies.lt

private theorem use_tame (h : x.unit.Ranked rank) (h0 : strict → x.unit.Rootless) {kind : Kind}
    {name : String} {t container : TypeId} (ht : t < x.unit.types.size)
    (hcontainer : container < x.unit.types.size)
    (hcovers : kind = .opaqueType ∨ ∃ entry, x.unit.typeAt t = .ok entry ∧
      kind.covers entry.kind = true) :
    Tame strict (x.use kind name t container) :=
  useWithin_tame h h0 ht hcontainer (fun _ => hcovers) fun _ => Nat.lt_succ_of_le (h.bounded t)

/-- `visit` fails as `resolve` does, or `offer` or `use` for the node that it resolves to. -/
theorem visit_onlyFails {P : SurveyError → Prop} {candidate : TypeId} {parent : Option String}
    {index : Nat} (hresolve : OnlyErrors P (x.resolve candidate parent index))
    (hoffer : ∀ node container, x.resolve candidate parent index = .ok (node, container) →
      ∀ s, OnlyFails P (x.offer node) s)
    (huse : ∀ node container, x.resolve candidate parent index = .ok (node, container) →
      OnlyErrors P (x.use node.kind node.typeName node.type container)) :
    OnlyFails P (x.visit candidate parent index) s := by
  refine (OnlyFails.lift hresolve).bind fun ⟨node, container⟩ _ hr => ?_
  have hr := (returns_lift.1 hr).1
  have hdescribe : ∀ s, OnlyFails P (do
      let use ← x.use node.kind node.typeName node.type container
      modify (·.record (.described use))
      return use : SurveyM TypeUse) s := fun s =>
    (OnlyFails.lift (huse node container hr)).bind fun _ _ _ =>
      (OnlyFails.modify _).bind fun _ _ _ => .pure _
  dsimp only
  split
  · exact (hoffer node container hr _).bind fun _ t _ => hdescribe t
  · exact hdescribe _

theorem visit_tame (h : x.unit.Ranked rank) (h0 : strict → x.unit.Rootless) {candidate : TypeId}
    {parent : Option String} {index : Nat} (hc : candidate < x.unit.types.size) :
    TameStep strict (x.visit candidate parent index) s := by
  refine visit_onlyFails (resolve_tame h h0 hc) (fun node container hr s => ?_)
    fun node container hr => ?_
  · exact offer_tame h (resolve_sound hr).inRange
  · have hsound := resolve_sound hr
    exact use_tame h h0 hsound.inRange.type hsound.container_lt hsound.covered

private theorem topLevelType_tame (h : x.unit.Valid) {c : Cursor} (hc : c.InRange x.unit) :
    Tame strict (x.topLevelType c) := by
  refine (TranslationUnit.typeAt_tame hc.type).bind fun entry he => ?_
  refine TranslationUnit.unwrapAttributed_tame ?_
  split
  · exact (h.entry_inRange he).canonical _ hc.type
  · exact hc.type

private theorem topLevelType_lt (h : x.unit.Valid) {c : Cursor} {t : TypeId}
    (ht : x.topLevelType c = .ok t) :
    t < x.unit.types.size := by
  simp only [topLevelType, bind_eq_ok_iff] at ht
  obtain ⟨entry, -, ht⟩ := ht
  exact h.unwrapAttributed_lt ht

private theorem passOver_tame {kind : Kind} {c : Cursor} (hc : c.InRange x.unit) :
    Tame strict (x.passOver kind c) := by
  unfold passOver
  split
  · exact (TranslationUnit.typeAt_tame hc.type).bind fun _ _ => .ok _
  · exact .ok _

private theorem visitTopLevel_tame (h : x.unit.Ranked rank) {id : CursorId} {c : Cursor}
    (hc : x.unit.cursorAt id = .ok c) : TameStep strict (x.visitTopLevel id c) s := by
  unfold visitTopLevel
  split
  · exact .pure _
  · split
    · exact .lift (passOver_tame (h.toValid.cursor_inRange hc))
    · refine (OnlyFails.lift (topLevelType_tame h.toValid (h.cursor_inRange hc))).bind
        fun t _ ht => ?_
      have hlt := topLevelType_lt h.toValid (returns_lift.1 ht).1
      have hid := TranslationUnit.lt_of_cursorAt hc
      refine (OnlyFails.lift (visitNode_tame h.toValid hid hlt)).bind fun node _ hnode => ?_
      exact (offer_tame h (visitNode_inRange (returns_lift.1 hnode).1)).bind fun _ _ _ => .pure _

theorem scan_tame (h : x.unit.Ranked rank) : TameStep strict x.scan s := by
  obtain ⟨root, hroot, -⟩ := h.root
  refine (OnlyFails.lift (TranslationUnit.cursorAt_tame
    (TranslationUnit.lt_of_cursorAt hroot))).bind
    fun root' _ hr => ?_
  have hrange := h.cursor_inRange (returns_lift.1 hr).1
  refine (OnlyFails.lift (TranslationUnit.childrenWhere_tame hrange _)).bind fun children _ hr => ?_
  refine OnlyFails.forM fun child hmem s => ?_
  obtain ⟨-, hc, -⟩ := mem_childrenWhere (returns_lift.1 hr).1 hmem
  exact visitTopLevel_tame h hc

/-! ## Finishing a node -/

theorem finishMacro_tame (hn : node.InRange x.unit) : TameStep strict (x.finishMacro node) s :=
  (OnlyFails.lift (TranslationUnit.cursorAt_tame hn.cursor)).bind fun _ _ _ => .pure _

private theorem finishVariable_tame (h : x.unit.Ranked rank) (h0 : strict → x.unit.Rootless)
    (hn : node.InRange x.unit) : TameStep strict (x.finishVariable node) s := by
  refine (OnlyFails.lift (h.classify_tame hn.type)).bind fun ⟨kind, t⟩ _ hr => ?_
  have hclass := (returns_lift.1 hr).1
  have ht := TranslationUnit.classify_lt hclass
  refine (OnlyFails.lift (typeName_tame h.toValid ht)).bind fun typeName _ _ => ?_
  have hcovers := (TranslationUnit.classify_sound hclass).covered
  exact (OnlyFails.lift (use_tame h h0 ht hn.type (Or.inr hcovers))).bind fun _ _ _ => .pure _

/-- A field or parameter: `visit` of its type, then `locate` of its place. -/
theorem visitLocated_tame {α : Type} (h : x.unit.Ranked rank) (h0 : strict → x.unit.Rootless)
    {c : Cursor} {parent : Option String} {index : Nat} (hc : c.InRange x.unit)
    (f : TypeUse → Location → α) :
    TameStep strict (do
      let type ← x.visit c.type parent index
      let location ← x.places.locate c (← x.unit.typeAt c.type)
      return f type location : SurveyM α) s := by
  refine (visit_tame h h0 hc.type).bind fun type _ _ => ?_
  refine (OnlyFails.lift (TranslationUnit.typeAt_tame hc.type)).bind fun entry _ _ => ?_
  exact (OnlyFails.lift (locate_tame _ _ _)).bind fun _ _ _ => .pure _

private theorem finishFunction_tame (h : x.unit.Ranked rank) (h0 : strict → x.unit.Rootless)
    (hn : node.InRange x.unit) : TameStep strict (x.finishFunction node) s := by
  refine (OnlyFails.lift (TranslationUnit.typeAt_tame hn.type)).bind fun entry _ he => ?_
  have hentry := h.entry_inRange (returns_lift.1 he).1
  refine (visit_tame h h0 hentry.result).bind fun result _ _ => ?_
  refine (OnlyFails.lift (TranslationUnit.cursorAt_tame hn.cursor)).bind fun cursor _ hc => ?_
  have hcursor := h.cursor_inRange (returns_lift.1 hc).1
  refine (OnlyFails.lift (TranslationUnit.childrenWhere_tame hcursor _)).bind
    fun children _ hr => ?_
  refine (OnlyFails.mapM fun ⟨child, i⟩ hmem s => ?_).bind fun _ _ _ => .pure _
  obtain ⟨-, hchild, -⟩ := mem_childrenWhere (returns_lift.1 hr).1 (List.fst_mem_of_mem_zipIdx hmem)
  exact visitLocated_tame h h0 (h.cursor_inRange hchild) _

theorem finishRecord_tame (h : x.unit.Ranked rank) (h0 : strict → x.unit.Rootless)
    (hn : node.InRange x.unit) : TameStep strict (x.finishRecord node) s := by
  refine (OnlyFails.lift (TranslationUnit.typeAt_tame hn.type)).bind fun entry _ he => ?_
  have hentry := h.entry_inRange (returns_lift.1 he).1
  refine (OnlyFails.mapM fun ⟨id, i⟩ hmem s => ?_).bind fun _ _ _ => .pure _
  have hid := hentry.fields id (List.fst_mem_of_mem_zipIdx hmem)
  refine (OnlyFails.lift (TranslationUnit.cursorAt_tame hid)).bind fun c _ hc => ?_
  exact visitLocated_tame h h0 (h.cursor_inRange (returns_lift.1 hc).1) _

private theorem finishEnum_tame (h : x.unit.Ranked rank) (h0 : strict → x.unit.Rootless)
    (hn : node.InRange x.unit) : TameStep strict (x.finishEnum node) s := by
  refine (OnlyFails.lift (TranslationUnit.cursorAt_tame hn.cursor)).bind fun cursor _ hc => ?_
  have hcursor := h.cursor_inRange (returns_lift.1 hc).1
  refine (visit_tame h h0 hcursor.integerType).bind fun integerType _ _ => ?_
  exact (OnlyFails.lift (TranslationUnit.childrenWhere_tame hcursor _)).bind fun _ _ _ => .pure _

private theorem pointedFunction_tame (h : x.unit.Valid) {entry : TypeEntry}
    (he : entry.InRange x.unit) :
    Tame strict (x.pointedFunction entry) := by
  refine (TranslationUnit.unwrapAttributed_tame he.pointee).bind fun t ht => ?_
  have hlt := h.unwrapAttributed_lt ht
  refine (TranslationUnit.typeAt_tame hlt).bind fun pointee hp => ?_
  split
  · exact .ok _
  · have hcanonical := (h.entry_inRange hp).canonical t hlt
    refine (TranslationUnit.unwrapAttributed_tame hcanonical).bind fun t' ht' => ?_
    exact TranslationUnit.typeAt_tame (h.unwrapAttributed_lt ht')

private theorem pointedFunction_inRange (h : x.unit.Valid) {entry function : TypeEntry}
    (hf : x.pointedFunction entry = .ok function) : function.InRange x.unit := by
  simp only [pointedFunction, bind_eq_ok_iff] at hf
  obtain ⟨t, -, pointee, hp, hf⟩ := hf
  split at hf
  · cases hf
    exact h.entry_inRange hp
  · simp only [bind_eq_ok_iff] at hf
    obtain ⟨t', -, hf⟩ := hf
    exact h.entry_inRange hf

private theorem finishFunctionPointer_tame (h : x.unit.Ranked rank) (h0 : strict → x.unit.Rootless)
    (hn : node.InRange x.unit) : TameStep strict (x.finishFunctionPointer node) s := by
  refine (OnlyFails.lift (TranslationUnit.typeAt_tame hn.type)).bind fun entry _ he => ?_
  have hentry := h.entry_inRange (returns_lift.1 he).1
  refine (OnlyFails.lift (pointedFunction_tame h.toValid hentry)).bind fun function _ hf => ?_
  have hfunction := pointedFunction_inRange h.toValid (returns_lift.1 hf).1
  refine (visit_tame h h0 hfunction.result).bind fun result _ _ => ?_
  refine (OnlyFails.mapM fun ⟨t, i⟩ hmem s => ?_).bind fun _ _ _ => .pure _
  exact (visit_tame h h0 (hfunction.arguments t (List.fst_mem_of_mem_zipIdx hmem))).bind
    fun _ _ _ => .pure _

private theorem finishFlattened_tame (h : x.unit.Ranked rank) (h0 : strict → x.unit.Rootless)
    (hn : node.InRange x.unit) : TameStep strict (x.finishFlattened node) s := by
  refine (OnlyFails.modify _).bind fun _ _ _ => ?_
  split
  · exact finishEnum_tame h h0 hn
  · exact finishFunctionPointer_tame h h0 hn
  · exact finishRecord_tame h h0 hn

private theorem finishAlias_tame (h : x.unit.Ranked rank) (h0 : strict → x.unit.Rootless)
    (hn : node.InRange x.unit) : TameStep strict (x.finishAlias node) s := by
  refine (OnlyFails.lift (TranslationUnit.cursorAt_tame hn.cursor)).bind fun cursor _ hc => ?_
  have hcursor := h.cursor_inRange (returns_lift.1 hc).1
  refine (OnlyFails.lift (h.classify_tame hcursor.underlying)).bind fun ⟨kind, t⟩ _ hr => ?_
  have ht := TranslationUnit.classify_lt (returns_lift.1 hr).1
  dsimp only
  split
  · refine (OnlyFails.lift (TranslationUnit.typeAt_tame ht)).bind fun entry _ he => ?_
    have hdecl := (h.entry_inRange (returns_lift.1 he).1).declaration
    refine (OnlyFails.lift (visitNode_tame h.toValid hdecl ht)).bind fun flattened _ hf => ?_
    have hflat := visitNode_inRange (returns_lift.1 hf).1
    exact finishFlattened_tame h h0 ⟨hflat.cursor, hflat.type⟩
  · exact (visit_tame h h0 hcursor.underlying).bind fun _ _ _ => .pure _

private theorem finish_tame (h : x.unit.Ranked rank) (h0 : strict → x.unit.Rootless)
    (hn : node.InRange x.unit) : TameStep strict (x.finish node) s := by
  have hvisit : ∀ (select : TypeEntry → TypeId) (f : TypeEntry → TypeUse → Node) (s : Session),
      (∀ entry, entry.InRange x.unit → select entry < x.unit.types.size) → TameStep strict (do
        let entry ← x.unit.typeAt node.type
        let use ← x.visit (select entry) (some node.name) 0
        return f entry use : SurveyM Node) s := by
    intro select f s hselect
    refine (OnlyFails.lift (TranslationUnit.typeAt_tame hn.type)).bind fun entry _ he => ?_
    have hentry := hselect entry (h.entry_inRange (returns_lift.1 he).1)
    exact (visit_tame h h0 hentry).bind fun _ _ _ => .pure _
  refine (OnlyFails.modify _).bind fun _ t _ => ?_
  split
  · exact finishMacro_tame hn
  · exact finishVariable_tame h h0 hn
  · exact finishFunction_tame h h0 hn
  · exact finishRecord_tame h h0 hn
  · exact finishRecord_tame h h0 hn
  · exact finishEnum_tame h h0 hn
  · exact finishAlias_tame h h0 hn
  · exact .pure _
  · exact finishFunctionPointer_tame h h0 hn
  · exact hvisit TypeEntry.pointeeId _ t fun _ hentry => hentry.pointee
  · exact hvisit TypeEntry.elementId _ t fun _ hentry => hentry.element
  · exact .pure _

end Context

/-! ## Rounds -/

section Rounds

variable {x : Context} {strict : Prop} {rank : TypeId → Nat} {start : Assembly} {origin : Session}
  {p : Progress} {c : Category} {names : List String}

theorem Context.complete_tame (h : x.unit.Ranked rank) (h0 : strict → x.unit.Rootless)
    {node : VisitNode} (hn : node.InRange x.unit) : TameStep strict (x.complete node) p := by
  refine (OnlyFails.onSession ?_).bind fun _ _ _ => .modify _
  exact (finish_tame h h0 hn).bind fun _ _ _ => (OnlyFails.modify _).bind fun _ _ _ => .pure _

/-- The nodes in `handledIn c` have different keys, so there are no more of them than `names`. -/
theorem Ledger.handledIn_length_le {pending current : List VisitNode} {s : Session}
    (h : Ledger x pending current s) (hnames : ∀ node, x.Discovered node → node.key ∈ names) :
    (s.handledIn c).length ≤ names.length := by
  have haccepted : ((s.accepted c).map VisitNode.key).Subperm names := by
    refine List.subperm_of_subset (h.distinct c) fun key hkey => ?_
    obtain ⟨node, hnode, rfl⟩ := List.mem_map.1 hkey
    exact hnames node (h.found _ (Ledger.mem_accepted hnode).1)
  have hle := haccepted.length_le
  rw [List.length_map, h.balance, List.length_append, List.length_append] at hle
  omega

/-- Each round adds a new key to `handledIn c`, so `drain` needs at most as many rounds as there are
`names` left. -/
theorem Steady.drain_tame (h : x.unit.Ranked rank) (h0 : strict → x.unit.Rootless)
    (hnames : strict → ∀ node, x.Discovered node → node.key ∈ names) {rounds : Nat}
    (hsteady : Steady x start origin [] p)
    (hrounds : strict → names.length < rounds + (p.session.handledIn c).length) :
    TameStep strict (x.drain c rounds) p := by
  induction rounds generalizing p with
  | zero =>
    intro e q hf
    obtain ⟨rfl, -⟩ := fails_throw.1 hf
    refine ⟨by simp, fun hs => ?_⟩
    have hle := hsteady.ledger.handledIn_length_le (c := c) (hnames hs)
    have hlt := hrounds hs
    omega
  | succ rounds ih =>
    have htake : TameStep strict (HeaderSurvey.onSession (Session.take c)) p :=
      .onSession (OnlyFails.get.bind fun _ _ _ => (OnlyFails.set _).bind fun _ _ _ => .pure _)
    refine htake.bind fun batch p' hp' => ?_
    have hbatch := hsteady.take hp'
    split
    · exact .pure _
    · next hne =>
      have hcomplete : ∀ {batch : List VisitNode} {p : Progress}, Steady x start origin batch p →
          TameStep strict (batch.forM x.complete) p := by
        intro batch
        induction batch with
        | nil => exact fun _ => .pure _
        | cons node batch ih =>
          intro p hp
          have hn := (hp.ledger.discovered List.mem_cons_self).inRange
          exact (x.complete_tame h h0 hn).bind fun _ _ hq => ih (hp.complete hq).1
      refine (hcomplete hbatch).bind fun _ p'' hp'' => ?_
      refine ih (hbatch.completeAll hp'').1 fun hs => ?_
      have hlt := hrounds hs
      have hround := hsteady.handledIn_round hp' hp''
      have hpos : 0 < batch.length := List.length_pos_iff.2 fun hnil => hne (by simp [hnil])
      omega

/-- After one turn `isExhausted` holds, so that two turns are enough. -/
theorem Steady.alternateFor_tame (h : x.unit.Ranked rank) (h0 : strict → x.unit.Rootless)
    (hnames : strict → ∀ node, x.Discovered node → node.key ∈ names) {rounds turns : Nat}
    (hrounds : strict → names.length < rounds) (hsteady : Steady x start origin [] p)
    (hmacros : (p.session.frontier .macros).queue = [])
    (hglobals : (p.session.frontier .globals).queue = [])
    (hturns : strict → 2 ≤ turns ∨ 1 ≤ turns ∧ p.session.isExhausted = true) :
    TameStep strict (x.alternateFor rounds turns) p := by
  induction turns generalizing origin p with
  | zero =>
    intro e q hf
    obtain ⟨rfl, -⟩ := fails_throw.1 hf
    refine ⟨by simp, fun hs => ?_⟩
    have := hturns hs
    omega
  | succ turns ih =>
    refine OnlyFails.get.bind fun _ _ hget => ?_
    obtain ⟨rfl, rfl⟩ := returns_get.1 hget
    split
    · exact .pure _
    · next hbusy =>
      have hhere := hsteady.rebase
      refine (hhere.drain_tame h h0 hnames fun hs => Nat.lt_add_right _ (hrounds hs)).bind
        fun _ p₁ h₁ => ?_
      obtain ⟨hsteady₁, hfunctions⟩ := hhere.drain h₁
      have hhere₁ := hsteady₁.rebase
      refine (hhere₁.drain_tame h h0 hnames fun hs => Nat.lt_add_right _ (hrounds hs)).bind
        fun _ p₂ h₂ => ?_
      obtain ⟨hsteady₂, htypes⟩ := hhere₁.drain h₂
      have hmacros₂ := Context.queue_advance (by decide)
        (hsteady₁.reached.trans hsteady₂.reached) hmacros
      have hglobals₂ := Context.queue_advance (by decide) (hsteady₁.reached.trans hsteady₂.reached)
        hglobals
      have hfunctions₂ := Context.queue_advance (by decide) hsteady₂.reached hfunctions
      refine ih hsteady₂ hmacros₂ hglobals₂ fun hs => Or.inr ⟨?_, ?_⟩
      · rcases hturns hs with htwo | ⟨-, hdone⟩
        · omega
        · exact absurd hdone hbusy
      · rw [Session.isExhausted_iff]
        intro c
        cases c <;> assumption

private theorem Context.runFor_tame (h : x.unit.Ranked rank) (h0 : strict → x.unit.Rootless)
    (hnames : strict → ∀ node, x.Discovered node → node.key ∈ names)
    {rounds turns : Nat} (hrounds : strict → names.length < rounds) (hturns : strict → 2 ≤ turns)
    (start : Assembly) : TameStep strict (x.runFor rounds turns) { assembly := start } := by
  refine (OnlyFails.onSession (scan_tame h)).bind fun _ p hscan => ?_
  obtain ⟨t, hsession, rfl⟩ := returns_onSession.1 hscan
  have hscanned := scan_steady start hsession
  refine (hscanned.drain_tame h h0 hnames fun hs => Nat.lt_add_right _ (hrounds hs)).bind
    fun _ p₁ h₁ => ?_
  obtain ⟨hsteady₁, hmacros⟩ := hscanned.drain h₁
  have hhere₁ := hsteady₁.rebase
  refine (hhere₁.drain_tame h h0 hnames fun hs => Nat.lt_add_right _ (hrounds hs)).bind
    fun _ p₂ h₂ => ?_
  obtain ⟨hsteady₂, hglobals⟩ := hhere₁.drain h₂
  have hmacros₂ := queue_advance (by decide) hsteady₂.reached hmacros
  exact hsteady₂.alternateFor_tame h h0 hnames hrounds hmacros₂ hglobals fun hs =>
    Or.inl (hturns hs)

end Rounds

/-! ## Names -/

/-- Names of types do not depend on where the types are met: `typeName` gives each one of its
own. -/
structure TranslationUnit.SelfNamed (u : TranslationUnit) : Prop where
  anonymous : ∀ c ∈ u.cursors, c.anonymous = false
  unnamed : ∀ t ∈ u.types, Text.contains t.spelling "(unnamed at " = false
  records : ∀ t ∈ u.types, ∀ c, u.declarationOf t = .ok c →
    c.kind = .structDecl ∨ c.kind = .unionDecl → stripTags t.spelling ≠ ""

namespace Context

/-- The names that nodes can have in a unit that is `SelfNamed`. -/
def names (x : Context) : List String :=
  "" :: (x.unit.cursors.toList.map Cursor.spelling ++
    (x.unit.types.toList.map fun t => stripTags t.spelling) ++
    (x.unit.types.toList.map fun t => (x.spelledName t).toOption.getD ""))

private theorem names_length (x : Context) :
    x.names.length = x.unit.cursors.size + 2 * x.unit.types.size + 1 := by
  simp only [names, List.length_cons, List.length_append, List.length_map, Array.length_toList]
  omega

private theorem arrayName_ne {x : Context} {entry : TypeEntry} {count : Option Int} {name : String}
    (h : x.arrayName entry count = .ok name) : name ≠ "" := by
  simp only [arrayName, bind_eq_ok_iff, pure_eq_ok_iff] at h
  obtain ⟨element, -, rfl⟩ := h
  refine insertDimension_ne_empty ?_ _
  cases count with
  | none => decide
  | some n =>
    intro hempty
    have := congrArg String.toList hempty
    simp at this

theorem spelledName_ne {x : Context} {entry : TypeEntry} {name : String}
    (h : x.spelledName entry = .ok name) (hs : stripTags entry.spelling ≠ "") : name ≠ "" := by
  unfold spelledName at h
  split at h
  · exact arrayName_ne h
  · exact arrayName_ne h
  · cases h
    exact hs

private theorem typeName_mem_names {x : Context} {kind : Kind} {t : TypeId} {parent : Option String}
    {index : Nat} {name : String} (h : x.unit.SelfNamed)
    (hn : x.typeName kind t parent index = .ok name) :
    name ∈ x.names := by
  unfold typeName at hn
  split at hn
  · cases hn
    exact List.mem_cons_self
  · simp only [bind_eq_ok_iff] at hn
    obtain ⟨entry, he, declaration, hdecl, hn⟩ := hn
    have hmem := Array.mem_of_getElem? (TranslationUnit.typeAt_eq_ok.1 he)
    have hcursor := Array.mem_of_getElem? (TranslationUnit.cursorAt_eq_ok.1 hdecl)
    simp only [Marker.of?, h.anonymous declaration hcursor, h.unnamed entry hmem,
      Bool.false_eq_true, if_false, bind_eq_ok_iff] at hn
    obtain ⟨spelled, hspelled, hn⟩ := hn
    split at hn
    · cases hn
      refine List.mem_cons_of_mem _ (List.mem_append_right _ (List.mem_map.2 ⟨entry, ?_, ?_⟩))
      · exact Array.mem_toList_iff.2 hmem
      · rw [hspelled]
        rfl
    · next hempty =>
      split at hn
      · next hrecord =>
        exact absurd (spelledName_ne hspelled (h.records entry hmem declaration hdecl hrecord))
          hempty
      · cases hn

theorem visitNode_mem_names {x : Context} {kind : Kind} {c : CursorId} {cursor : Cursor}
    {t : TypeId} {parent : Option String} {index : Nat} {node : VisitNode} (h : x.unit.SelfNamed)
    (hc : x.unit.cursorAt c = .ok cursor)
    (hn : x.visitNode kind cursor.spelling c t parent index = .ok node) :
    node.name ∈ x.names ∧ node.typeName ∈ x.names := by
  obtain ⟨-, -, -, -, htype, hname⟩ := visitNode_ok hn
  have htype' := typeName_mem_names h htype
  refine ⟨?_, htype'⟩
  rw [hname]
  split
  · exact htype'
  · refine List.mem_cons_of_mem _ (List.mem_append_left _ (List.mem_append_left _ ?_))
    have hmem := Array.mem_of_getElem? (TranslationUnit.cursorAt_eq_ok.1 hc)
    exact List.mem_map.2 ⟨cursor, Array.mem_toList_iff.2 hmem, rfl⟩

private theorem Discovered.key_mem_names {x : Context} {node : VisitNode} (hs : x.unit.SelfNamed)
    (h : x.Discovered node) : node.key ∈ x.names := by
  have hkey : node.name ∈ x.names ∧ node.typeName ∈ x.names → node.key ∈ x.names := by
    rintro ⟨hname, htype⟩
    unfold VisitNode.key
    split
    · exact htype
    · exact hname
  refine hkey ?_
  rcases h with ⟨-, candidate, parent, index, container, h⟩ | ⟨root, id, c, kind, t, -, -,
    hc, -, -, -, -, h⟩
  · obtain ⟨referrer, g, hg⟩ := (resolve_sound h).sighting
    have hnode : g.node.name ∈ x.names ∧ g.node.typeName ∈ x.names := by
      rcases g.node_cases with heq | ⟨r, name, location, -, -, hrenamed, heq⟩
      · rw [heq]
        exact visitNode_mem_names hs g.declaration_eq g.made_eq
      · have hname : g.node.typeName = g.node.name := by rw [heq]
        rw [hname, and_self]
        simp only [renamed, bind_eq_ok_iff, pure_eq_ok_iff] at hrenamed
        obtain ⟨entry, he, declaration, -, place, -, hnode⟩ := hrenamed
        rw [← hnode]
        refine List.mem_cons_of_mem _ (List.mem_append_left _ (List.mem_append_right _ ?_))
        have hmem := Array.mem_of_getElem? (TranslationUnit.typeAt_eq_ok.1 he)
        exact List.mem_map.2 ⟨entry, Array.mem_toList_iff.2 hmem, rfl⟩
    rcases hg with ⟨-, rfl⟩ | ⟨-, rfl, -⟩ <;> exact hnode
  · exact visitNode_mem_names hs hc h

end Context

/-- `beginSurvey` fails with `SurveyError.target` or `SurveyError.noTarget` only. -/
theorem beginSurvey_onlyErrors {P : SurveyError → Prop} (htarget : ∀ e, P (.target e))
    (hmissing : ∀ path, P (.noTarget path)) (s : Settings) (u : TranslationUnit) :
    OnlyErrors P (beginSurvey s u) := by
  refine (OnlyErrors.mapError htarget).bind fun requested _ => ?_
  have hplatform : OnlyErrors P u.platform := by
    refine OnlyErrors.bind ?_ fun info _ => OnlyErrors.mapError htarget
    unfold TranslationUnit.targetInfo
    split
    · exact .error (hmissing _)
    · exact .ok _
  exact hplatform.bind fun _ _ => .ok _

theorem beginSurvey_tame {strict : Prop} (s : Settings) (u : TranslationUnit) :
    Tame strict (beginSurvey s u) :=
  beginSurvey_onlyErrors (fun _ => ⟨by simp, by simp⟩) (fun _ => ⟨by simp, by simp⟩) s u

/-- `surveyFor` looks up nothing that is not in a valid unit. If the unit is `SelfNamed` and
`Rootless`, more rounds than it has names are enough, and two turns. -/
theorem surveyFor_tame {strict : Prop} (s : Settings) {u : TranslationUnit} (hvalid : u.Valid)
    (h0 : strict → u.Rootless) (hnamed : strict → u.SelfNamed) {rounds turns : Nat}
    (hrounds : strict → u.cursors.size + 2 * u.types.size + 1 < rounds)
    (hturns : strict → 2 ≤ turns) :
    Tame strict (surveyFor rounds turns s u) := by
  obtain ⟨rank, h⟩ := hvalid.exists_ranked
  refine (beginSurvey_tame s u).bind fun ⟨x, start⟩ hbegin => ?_
  obtain ⟨requested, actual, -, -, rfl, rfl⟩ := beginSurvey_eq_ok hbegin
  have hrun := Context.runFor_tame (x := Context.ofSettings u s actual.pointerBits) h h0
    (fun hs _ hd => hd.key_mem_names (hnamed hs))
    (fun hs => (Context.names_length _).trans_lt (hrounds hs)) hturns
    (Assembly.start u.filePath requested actual)
  dsimp only
  split
  · next e q hfail => exact .error (hrun e q hfail)
  · exact .ok _

/-- However its declarations refer to each other, a unit with no `fault?` that is `Rootless` and
`SelfNamed` is surveyed to an end: from some number of rounds on, with two turns or more,
`surveyFor` has one answer. It is an outcome, or an error other than `SurveyError.unending` and
`SurveyError.dangling`. -/
theorem surveyFor_ends (s : Settings) {u : TranslationUnit} (hvalid : u.fault? = none)
    (h0 : u.Rootless) (hnamed : u.SelfNamed) :
    ∃ answer, (∀ rounds turns, u.cursors.size + 2 * u.types.size + 1 < rounds → 2 ≤ turns →
        surveyFor rounds turns s u = answer) ∧
      ((∃ o, answer = .ok o) ∨
        ∃ e, answer = .error e ∧ e ≠ .unending ∧ ∀ handle, e ≠ .dangling handle) := by
  have htame : Tame True (surveyFor (u.cursors.size + 2 * u.types.size + 2) 2 s u) :=
    surveyFor_tame s (TranslationUnit.valid_of_fault? hvalid) (fun _ => h0) (fun _ => hnamed)
      (fun _ => Nat.lt_succ_self _) fun _ => Nat.le_refl 2
  refine ⟨_, fun rounds turns hrounds hturns => surveyFor_mono hrounds hturns fun hgiven => ?_, ?_⟩
  · exact (htame _ hgiven).2 trivial rfl
  · cases hs : surveyFor (u.cursors.size + 2 * u.types.size + 2) 2 s u with
    | ok o => exact Or.inl ⟨o, rfl⟩
    | error e =>
      obtain ⟨hdangling, hunending⟩ := htame e hs
      exact Or.inr ⟨e, rfl, hunending trivial, hdangling⟩

theorem surveyFor_listUnit_ends : listUnit.fault? = none ∧ listUnit.Rootless ∧ listUnit.SelfNamed ∧
    ∃ answer, (∀ rounds turns, listUnit.cursors.size + 2 * listUnit.types.size + 1 < rounds →
      2 ≤ turns →
        surveyFor rounds turns {} listUnit = answer) ∧
      ((∃ o, answer = .ok o) ∨
        ∃ e, answer = .error e ∧ e ≠ .unending ∧ ∀ handle, e ≠ .dangling handle) := by
  have hvalid : listUnit.fault? = none := by decide +kernel
  have h0 : listUnit.Rootless := by
    intro entry h
    cases h
    rfl
  have hnamed : listUnit.SelfNamed := by
    refine ⟨by decide +kernel, by decide +kernel, ?_⟩
    have hspelled : ∀ t ∈ listUnit.types, stripTags t.spelling ≠ "" ∨ t.declaration = none := by
      decide +kernel
    intro t ht c hc hk
    refine (hspelled t ht).resolve_right fun hnone => ?_
    rw [TranslationUnit.declarationOf, TypeEntry.declarationId, hnone] at hc
    cases hc
    exact absurd hk (by decide)
  exact ⟨hvalid, h0, hnamed, surveyFor_ends {} hvalid h0 hnamed⟩

end HeaderSurvey
