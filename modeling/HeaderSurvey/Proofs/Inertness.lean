import HeaderSurvey.Proofs.Drain
import HeaderSurvey.Proofs.Pruning
import HeaderSurvey.Proofs.Safety
import HeaderSurvey.Proofs.Unseen

/-! Declarations of a category that does not count. All that the scan does with one is to write down
that it was offered, and nothing looks at what is written down. But a variable is given the name of
its type before it is asked whether variables count, so one whose type has no name stops the survey
all the same. -/
namespace HeaderSurvey

/-! ## What is written down -/

/-- The same result, and states of the same `view`. -/
def SameEnd {σ α : Type} (view : σ → σ) (r r' : Except SurveyError α × σ) : Prop :=
  r.1 = r'.1 ∧ view r.2 = view r'.2

section SameEnd

variable {σ α β ι : Type} {view : σ → σ} {m m' : StepM σ α} {s s' t : σ}

theorem SameEnd.returns {a : α} (h : SameEnd view (m s) (m' s')) (hm : Returns m s a t) :
    ∃ t', Returns m' s' a t' ∧ view t = view t' := by
  rw [show m s = (.ok a, t) from hm] at h
  exact ⟨(m' s').2, Prod.ext h.1.symm rfl, h.2⟩

theorem SameEnd.fails {e : SurveyError} (h : SameEnd view (m s) (m' s')) (hm : Fails m s e t) :
    ∃ t', Fails m' s' e t' ∧ view t = view t' := by
  rw [show m s = (.error e, t) from hm] at h
  exact ⟨(m' s').2, Prod.ext h.1.symm rfl, h.2⟩

theorem SameEnd.bind {f f' : α → StepM σ β} (h : SameEnd view (m s) (m' s'))
    (hf : ∀ a t t', view t = view t' → SameEnd view (f a t) (f' a t')) :
    SameEnd view ((m >>= f) s) ((m' >>= f') s') := by
  rcases returns_or_fails m s with ⟨a, t, hm⟩ | ⟨e, t, hm⟩
  · obtain ⟨t', hm', ht⟩ := h.returns hm
    rw [hm.bind_eq, hm'.bind_eq]
    exact hf a t t' ht
  · obtain ⟨t', hm', ht⟩ := h.fails hm
    rw [hm.bind_eq, hm'.bind_eq]
    exact ⟨rfl, ht⟩

/-- From states of the same `view`, `m` comes to the `SameEnd`. -/
def Respects (view : σ → σ) (m : StepM σ α) : Prop :=
  ∀ s t, view s = view t → SameEnd view (m s) (m t)

/-- A step `Respects view` if it commutes with each `g i`, which bring a state back from its
view. -/
theorem Respects.of_commutes {g : ι → σ → σ} (hback : ∀ s, ∃ i, s = g i (view s))
    (hview : ∀ i s, view (g i s) = view s) (hm : ∀ i, Commutes (g i) m) : Respects view m := by
  have hsame : ∀ s, SameEnd view (m s) (m (view s)) := by
    intro s
    obtain ⟨i, hi⟩ := hback s
    have hs := hm i (view s)
    rw [← hi] at hs
    rw [hs]
    exact ⟨rfl, hview i _⟩
  intro s t h
  obtain ⟨hresult, hstate⟩ := hsame s
  obtain ⟨hresult', hstate'⟩ := hsame t
  rw [h] at hresult hstate
  exact ⟨hresult.trans hresult'.symm, hstate.trans hstate'.symm⟩

end SameEnd

namespace Session

/-- The session with an empty `journal`. -/
def forget (s : Session) : Session := { s with journal := [] }

/-- The session with `old` written down before all else. -/
def since (old : List Event) (s : Session) : Session := { s with journal := s.journal ++ old }

private theorem since_forget (s : Session) : s = since s.journal s.forget := rfl

private theorem unseen_since (old : List Event) : Unseen (since old) where
  isVisited s c name := by cases c <;> rfl
  macroTokens s := rfl
  note s tokens reports := rfl
  markVisited s c name := by cases c <;> rfl
  enqueue s c node := by cases c <;> rfl
  record s e := rfl

private theorem take_commutes (old : List Event) (c : Category) :
    Commutes (since old) (take c) := by
  intro s
  cases c <;> rfl

private theorem respects_forget {α : Type} {m : SurveyM α} (h : ∀ old, Commutes (since old) m) :
    Respects forget m :=
  .of_commutes (fun s => ⟨s.journal, s.since_forget⟩) (fun _ _ => rfl) h

end Session

namespace Context

variable {x : Context}

/-- What `runFor` does after the scan. -/
def afterScan (x : Context) (rounds turns : Nat) : RunM Unit := do
  x.drain .macros rounds
  x.drain .globals rounds
  x.alternateFor rounds turns

theorem drain_since (old : List Event) (c : Category) (rounds : Nat) :
    Commutes (Progress.change (Session.since old)) (x.drain c rounds) := by
  induction rounds with
  | zero => exact fun _ => rfl
  | succ rounds ih =>
    refine (onSession_unseen (Session.take_commutes old c)).bind fun _ batch _ _ => ?_
    split
    · exact .pure _
    · refine (Commutes.forM fun node _ => ?_).bind fun _ _ _ _ => ih
      exact complete_unseen (Session.unseen_since old)

private theorem alternateFor_since (old : List Event) (rounds turns : Nat) :
    Commutes (Progress.change (Session.since old)) (x.alternateFor rounds turns) := by
  induction turns with
  | zero => exact fun _ => rfl
  | succ turns ih =>
    refine .get_bind (fun p => rfl) fun p => ?_
    split
    · exact .pure _
    · refine (drain_since old _ _).bind fun _ _ _ _ => ?_
      exact (drain_since old _ _).bind fun _ _ _ _ => ih

/-- `afterScan` does not depend on the journal of the scan. -/
theorem afterScan_respects (rounds turns : Nat) :
    Respects (Progress.change Session.forget) (x.afterScan rounds turns) := by
  refine .of_commutes (g := fun old => Progress.change (Session.since old)) ?_ (fun _ _ => rfl)
    fun old => ?_
  · exact fun p => ⟨p.session.journal, rfl⟩
  · refine (drain_since old _ _).bind fun _ _ _ _ => (drain_since old _ _).bind fun _ _ _ _ => ?_
    exact alternateFor_since old _ _

private theorem visitTopLevel_respects (id : CursorId) (c : Cursor) :
    Respects Session.forget (x.visitTopLevel id c) := by
  refine Session.respects_forget fun old => ?_
  unfold visitTopLevel
  split
  · exact .pure _
  · split
    · exact .lift _
    · refine (Commutes.lift _).bind fun _ t _ _ => (Commutes.lift _).bind fun _ node _ _ => ?_
      exact (offer_unseen (Session.unseen_since old)).bind fun _ _ _ _ => .pure _

end Context

/-! ## Types that have no name at the top level -/

namespace TranslationUnit

theorem exists_typeAt {u : TranslationUnit} {t : TypeId} (h : t < u.types.size) :
    ∃ entry, u.typeAt t = .ok entry := by
  simp [typeAt, h]

/-- Why a type that is a part of nothing has no name: its declaration is anonymous, or `stripTags`
leaves nothing of its spelling. -/
inductive Nameless (u : TranslationUnit) (entry : TypeEntry) : SurveyError → Prop where
  | anonymous {declaration : Cursor} (declaration_eq : u.declarationOf entry = .ok declaration)
      (nameless : declaration.anonymous = true) :
      Nameless u entry (.namelessDeclaration declaration.kind entry.spelling)
  | empty {declaration : Cursor} (declaration_eq : u.declarationOf entry = .ok declaration)
      (named : declaration.anonymous = false)
      (unmarked : Text.contains entry.spelling "(unnamed at " = false)
      (sort : entry.kind.isArray = false)
      (spelled : stripTags entry.spelling = "")
      (other : ¬ (declaration.kind = .structDecl ∨ declaration.kind = .unionDecl)) :
      Nameless u entry (.emptyTypeName entry.spelling)

/-- A variable that is visible to other units and whose type is `Nameless`. -/
def NamelessVariable (u : TranslationUnit) (c : Cursor) (e : SurveyError) : Prop :=
  c.kind = .varDecl ∧ c.linkage = .external ∧ ∃ own t entry, u.typeAt c.type = .ok own ∧
    u.unwrapAttributed (if own.kind = .unexposed then own.canonicalId c.type else c.type) = .ok t ∧
    u.typeAt t = .ok entry ∧ u.Nameless entry e

end TranslationUnit

namespace Context

variable {x : Context} {entry : TypeEntry} {t : TypeId} {e : SurveyError}

/-- In a valid unit `spelledName` does not fail, and it is empty exactly for a type that is no array
and strips to nothing. -/
theorem spelledName_ok (hu : x.unit.Valid) (hentry : x.unit.typeAt t = .ok entry) :
    ∃ name, x.spelledName entry = .ok name ∧
      (name = "" ↔ entry.kind.isArray = false ∧ stripTags entry.spelling = "") := by
  have harray : ∀ count, ∃ name, x.arrayName entry count = .ok name ∧ name ≠ "" := by
    intro count
    obtain ⟨element, helement⟩ := TranslationUnit.exists_typeAt (hu.entry_inRange hentry).element
    unfold arrayName
    rw [helement]
    refine ⟨_, rfl, insertDimension_ne_empty ?_ _⟩
    cases count <;> simp
  unfold spelledName
  split
  · next hk =>
    obtain ⟨name, hname, hne⟩ := harray (some entry.arraySize)
    exact ⟨name, hname, by simp [hne, hk, TypeKind.isArray]⟩
  · next hk =>
    obtain ⟨name, hname, hne⟩ := harray none
    exact ⟨name, hname, by simp [hne, hk, TypeKind.isArray]⟩
  · next hconstant hincomplete =>
    have hsort : entry.kind.isArray = false := by
      unfold TypeKind.isArray
      split
      · contradiction
      · contradiction
      · rfl
    exact ⟨_, rfl, by simp [hsort]⟩

/-- Without a parent, `typeName` fails exactly for the types that are `Nameless`. -/
theorem typeName_eq_error_iff (hu : x.unit.Valid) (hentry : x.unit.typeAt t = .ok entry) :
    x.typeName .globalVariable t none 0 = .error e ↔ x.unit.Nameless entry e := by
  obtain ⟨declaration, hdecl⟩ : ∃ declaration, x.unit.declarationOf entry = .ok declaration :=
    ⟨_, TranslationUnit.cursorAt_of_lt (hu.entry_inRange hentry).declaration⟩
  obtain ⟨name, hname, hempty⟩ := spelledName_ok hu hentry
  have heq : x.typeName .globalVariable t none 0 =
      if declaration.anonymous then .error (.namelessDeclaration declaration.kind entry.spelling)
      else if Text.contains entry.spelling "(unnamed at " then .ok (Marker.unnamed.name "" 0)
      else if name ≠ "" then .ok name
      else if declaration.kind = .structDecl ∨ declaration.kind = .unionDecl then
        .ok ("" ++ "_" ++ declaration.spelling)
      else .error (.emptyTypeName entry.spelling) := by
    simp only [typeName, Marker.of?, reduceCtorEq, or_self, if_false, hentry, hdecl, hname, bind,
      Except.bind]
    by_cases hanonymous : declaration.anonymous = true
    · simp [hanonymous]
    · by_cases hmarked : Text.contains entry.spelling "(unnamed at " = true
      · simp [hanonymous, hmarked, pure, Except.pure]
      · simp only [hanonymous, hmarked]
        rfl
  rw [heq]
  constructor
  · intro h
    split at h
    · next hanonymous =>
      cases h
      exact .anonymous hdecl hanonymous
    · next hanonymous =>
      split at h
      · cases h
      · next hmarked =>
        split at h
        · cases h
        · next hspelled =>
          split at h
          · cases h
          · next hother =>
            cases h
            obtain ⟨hsort, hstrip⟩ := hempty.1 (not_not.1 hspelled)
            exact .empty hdecl (by simpa using hanonymous) (by simpa using hmarked) hsort
              hstrip hother
  · intro h
    cases h with
    | anonymous declaration_eq nameless =>
      cases declaration_eq.symm.trans hdecl
      rw [if_pos nameless]
    | empty declaration_eq named unmarked sort spelled other =>
      cases declaration_eq.symm.trans hdecl
      rw [if_neg (by simp [named]), if_neg (by simp [unmarked]),
        if_neg (not_not.2 (hempty.2 ⟨sort, spelled⟩)), if_neg other]

/-! ## What the scan does with a declaration that does not count -/

variable {id : CursorId} {c : Cursor} {kind : Kind}

private theorem kind_ne_noDeclFound (h : topLevelKind? c = some kind) : c.kind ≠ .noDeclFound := by
  intro hc
  simp [topLevelKind?, hc] at h

private theorem varDecl_of_topLevel (htop : isTopLevel c = true)
    (hkind : topLevelKind? c = some .globalVariable) :
    c.kind = .varDecl ∧ c.linkage = .external := by
  have hvar : c.kind = .varDecl := by
    unfold topLevelKind? at hkind
    split at hkind <;> simp_all
  exact ⟨hvar, by simpa [isTopLevel, hvar] using htop⟩

theorem topLevelType_ok (hu : x.unit.Valid) (hc : x.unit.cursorAt id = .ok c) :
    ∃ own t entry, x.unit.typeAt c.type = .ok own ∧
      x.unit.unwrapAttributed (if own.kind = .unexposed then own.canonicalId c.type else c.type) =
        .ok t ∧
      x.topLevelType c = .ok t ∧ x.unit.typeAt t = .ok entry := by
  have hlt := (hu.cursor_inRange hc).type
  obtain ⟨own, hown⟩ := TranslationUnit.exists_typeAt hlt
  have hlt' : (if own.kind = .unexposed then own.canonicalId c.type else c.type) <
      x.unit.types.size := by
    split
    · exact (hu.entry_inRange hown).canonical _ hlt
    · exact hlt
  obtain ⟨wrapper, hwrapper⟩ := TranslationUnit.exists_typeAt hlt'
  obtain ⟨t, ht⟩ : ∃ t, x.unit.unwrapAttributed
      (if own.kind = .unexposed then own.canonicalId c.type else c.type) = .ok t := by
    rw [TranslationUnit.unwrapAttributed, hwrapper]
    exact ⟨_, rfl⟩
  obtain ⟨entry, hentry⟩ := TranslationUnit.exists_typeAt (hu.unwrapAttributed_lt ht)
  refine ⟨own, t, entry, hown, ht, ?_, hentry⟩
  rw [topLevelType, hown]
  exact ht

/-- `visitNode` fails for a declaration of a valid unit only as `typeName` does. -/
theorem visitNode_eq_error (hc : x.unit.cursorAt id = .ok c) (hentry : x.unit.typeAt t = .ok entry)
    (hk : c.kind ≠ .noDeclFound) {name : String} {parent : Option String} {index : Nat}
    (h : x.visitNode kind name id t parent index = .error e) :
    x.typeName kind t parent index = .error e := by
  obtain ⟨location, hlocation⟩ : ∃ location, x.places.locate c entry = .ok location := by
    unfold Places.locate
    split
    · exact ⟨_, rfl⟩
    · exact ⟨_, rfl⟩
  unfold visitNode at h
  rcases bind_eq_error_iff.1 h with hname | ⟨typeName, -, h⟩
  · exact hname
  · simp only [hc, hentry, hlocation, bind, Except.bind] at h
    cases h

private theorem passOver_ok (hu : x.unit.Valid) (hc : x.unit.cursorAt id = .ok c) (kind : Kind) :
    x.passOver kind c = .ok () := by
  unfold passOver
  split
  · obtain ⟨entry, hentry⟩ := TranslationUnit.exists_typeAt (hu.cursor_inRange hc).type
    rw [hentry]
    rfl
  · rfl

/-- `visitTopLevel` for a category that is not enabled only adds to the journal, or fails for a
`NamelessVariable`. -/
theorem visitTopLevel_disabled (hu : x.unit.Valid) (hc : x.unit.cursorAt id = .ok c)
    (htop : isTopLevel c = true) (hkind : topLevelKind? c = some kind)
    (hoff : (Category.ofKind kind).isEnabled x.switches = false) (s : Session) :
    (∃ s', Returns (x.visitTopLevel id c) s () s' ∧ s'.forget = s.forget) ∨
      ∃ e, Fails (x.visitTopLevel id c) s e s ∧ x.unit.NamelessVariable c e := by
  obtain ⟨own, t, entry, hown, hwrapped, htype, hentry⟩ := topLevelType_ok hu hc
  unfold visitTopLevel
  rw [hkind]
  by_cases hskipped : x.isSkipped kind c = true
  · simp only [hskipped, if_true]
    exact Or.inl ⟨s, returns_lift.2 ⟨passOver_ok hu hc kind, rfl⟩, rfl⟩
  · simp only [hskipped]
    have htype' : Returns (liftM (x.topLevelType c) : SurveyM TypeId) s t s :=
      returns_lift.2 ⟨htype, rfl⟩
    cases hnode : x.visitNode kind c.spelling id t none 0 with
    | ok node =>
      obtain ⟨rfl, -⟩ := visitNode_ok hnode
      have hoffer : Returns (x.offer node) s .disabled (s.record (.offered node .disabled)) := by
        unfold offer
        rw [hoff]
        rfl
      refine Or.inl ⟨s.record (.offered node .disabled), ?_, rfl⟩
      exact returns_bind.2 ⟨t, s, htype', returns_bind.2 ⟨node, s, returns_lift.2 ⟨hnode, rfl⟩,
        returns_bind.2 ⟨_, _, hoffer, rfl⟩⟩⟩
    | error e =>
      have hname := visitNode_eq_error hc hentry (kind_ne_noDeclFound hkind) hnode
      have hvariable : kind = .globalVariable := by
        rcases topLevelKind?_cases hkind with rfl | rfl | rfl | rfl
        · simp [typeName, pure, Except.pure] at hname
        · rfl
        · cases hoff
        · simp [typeName, pure, Except.pure] at hname
      subst hvariable
      obtain ⟨hvar, hexternal⟩ := varDecl_of_topLevel htop hkind
      refine Or.inr ⟨e, ?_, hvar, hexternal, own, t, entry, hown, hwrapped, hentry,
        (typeName_eq_error_iff hu hentry).1 hname⟩
      exact fails_bind.2 (Or.inr ⟨t, s, htype', fails_bind.2 (Or.inl (fails_lift.2 ⟨hnode, rfl⟩))⟩)

/-- `visitTopLevel` fails for a `NamelessVariable`, whether or not variables are enabled. -/
theorem visitTopLevel_nameless (hu : x.unit.Valid) (h : x.unit.NamelessVariable c e) (s : Session) :
    Fails (x.visitTopLevel id c) s e s := by
  obtain ⟨hvar, -, own, t, entry, hown, hwrapped, hentry, hnameless⟩ := h
  have hkind : topLevelKind? c = some .globalVariable := by simp [topLevelKind?, hvar]
  have hnode : x.visitNode .globalVariable c.spelling id t none 0 = .error e := by
    rw [visitNode, (typeName_eq_error_iff hu hentry).2 hnameless]
    rfl
  have htype : x.topLevelType c = .ok t := by
    rw [topLevelType, hown]
    exact hwrapped
  unfold visitTopLevel
  rw [hkind]
  refine fails_bind.2 (Or.inr ⟨t, s, returns_lift.2 ⟨htype, rfl⟩, ?_⟩)
  exact fails_bind.2 (Or.inl (fails_lift.2 ⟨hnode, rfl⟩))

/-! ## Scans -/

/-- The `scan` of a valid unit is `visitTopLevel` for the children of the root that are
`isTopLevel`. -/
theorem scan_eq {root : Cursor} (hroot : x.unit.cursorAt CursorId.root = .ok root)
    (hrange : ∀ id ∈ root.children, id < x.unit.cursors.size) :
    x.scan = (root.children.filter fun id => isTopLevel (x.unit.cursorD id)).forM fun id =>
      x.visitTopLevel id (x.unit.cursorD id) := by
  have hmap : ∀ ids : List CursorId, (ids.map fun id => (id, x.unit.cursorD id)).forM
      (fun child => x.visitTopLevel child.1 child.2) =
        ids.forM fun id => x.visitTopLevel id (x.unit.cursorD id) := by
    intro ids
    induction ids with
    | nil => rfl
    | cons id ids ih => exact congrArg _ (funext fun _ => ih)
  rw [scan, hroot]
  change (do (← x.unit.childrenWhere root isTopLevel).forM _ : SurveyM Unit) = _
  rw [TranslationUnit.childrenWhere_eq hrange, List.filter_map]
  exact hmap _

/-- The `scan` of `withoutTopLevel hidden` is `visitTopLevel` for those of them that are not
`isHidden`. -/
theorem scan_withoutTopLevel (hu : x.unit.Valid) (hidden : List Category) {root : Cursor}
    (hroot : x.unit.cursorAt CursorId.root = .ok root) :
    (x.withUnit (x.unit.withoutTopLevel hidden)).scan =
      ((root.children.filter fun id => isTopLevel (x.unit.cursorD id)).filter fun id =>
        !x.unit.isHidden hidden id).forM fun id => x.visitTopLevel id (x.unit.cursorD id) := by
  have hroot' : (x.unit.withoutTopLevel hidden).cursorAt CursorId.root = .ok _ :=
    TranslationUnit.cursorAt_withoutTopLevel hroot
  have hrange : ∀ id ∈ x.unit.keptChildren hidden CursorId.root root,
      id < (x.unit.withoutTopLevel hidden).cursors.size := by
    intro id hid
    rw [TranslationUnit.size_withoutTopLevel]
    exact (hu.cursor_inRange hroot).children id (TranslationUnit.keptChildren_subset hid)
  have htop : ∀ id, isTopLevel ((x.unit.withoutTopLevel hidden).cursorD id) =
      isTopLevel (x.unit.cursorD id) := by
    intro id
    have hfixed : ∀ c : Cursor, isTopLevel c = isTopLevel c.fixed := fun _ => rfl
    rw [hfixed, TranslationUnit.cursorD_withoutTopLevel, ← hfixed]
  have hvisit : ∀ id, (x.withUnit (x.unit.withoutTopLevel hidden)).visitTopLevel id
      ((x.unit.withoutTopLevel hidden).cursorD id) = x.visitTopLevel id (x.unit.cursorD id) :=
    fun id => (hu.alike hidden).visitTopLevel id
      (TranslationUnit.cursorD_withoutTopLevel x.unit hidden id)
  rw [scan_eq hroot' hrange]
  simp only [unit_withUnit, htop, hvisit, TranslationUnit.keptChildren, if_true, List.filter_filter,
    Bool.and_comm]

end Context

/-- Steps that change nothing but what the view forgets can be left out of `forM`, unless one of
them fails. -/
theorem forM_filter_respects {α : Type} {step : α → SurveyM PUnit} {out : α → Bool}
    {E : α → SurveyError → Prop} {as : List α} (hstep : ∀ a, Respects Session.forget (step a))
    (hout : ∀ a ∈ as, out a = true → ∀ s, (∃ t, Returns (step a) s ⟨⟩ t ∧ t.forget = s.forget) ∨
      ∃ e, Fails (step a) s e s ∧ E a e) {s s' : Session} (h : s.forget = s'.forget) :
    SameEnd Session.forget (as.forM step s) ((as.filter fun a => !out a).forM step s') ∨
      ∃ a ∈ as, out a = true ∧ ∃ e t, E a e ∧ Fails (as.forM step) s e t := by
  induction as generalizing s s' with
  | nil => exact Or.inl ⟨rfl, h⟩
  | cons a as ih =>
    -- What the rest comes to after the first step, which has left `t` and `t'`.
    have hrest : ∀ {t t' : Session}, Returns (step a) s ⟨⟩ t → t.forget = t'.forget →
        SameEnd Session.forget ((a :: as).forM step s) ((as.filter fun a => !out a).forM step t') ∨
          ∃ b ∈ a :: as, out b = true ∧ ∃ e t, E b e ∧ Fails ((a :: as).forM step) s e t := by
      intro t t' ht hforget
      have hs : (a :: as).forM step s = as.forM step t := ht.bind_eq
      rcases ih (fun b hb => hout b (List.mem_cons_of_mem a hb)) hforget with
        hsame | ⟨b, hb, hb', e, t'', hE, hfails⟩
      · rw [hs]
        exact Or.inl hsame
      · exact Or.inr ⟨b, List.mem_cons_of_mem a hb, hb', e, t'', hE, hs.trans hfails⟩
    by_cases ha : out a = true
    · rw [List.filter_cons_of_neg (by simp [ha])]
      rcases hout a List.mem_cons_self ha s with ⟨t, ht, hforget⟩ | ⟨e, hfails, hE⟩
      · exact hrest ht (hforget.trans h)
      · exact Or.inr ⟨a, List.mem_cons_self, ha, e, s, hE, hfails.bind_eq⟩
    · rw [List.filter_cons_of_pos (by simp [ha])]
      have hsame := hstep a s s' h
      rcases returns_or_fails (step a) s with ⟨_, t, ht⟩ | ⟨e, t, ht⟩
      · obtain ⟨t', ht', hforget⟩ := hsame.returns ht
        rw [show (a :: as.filter fun a => !out a).forM step s' = _ from ht'.bind_eq]
        exact hrest ht hforget
      · obtain ⟨t', ht', hforget⟩ := hsame.fails ht
        rw [show (a :: as.filter fun a => !out a).forM step s' = _ from ht'.bind_eq,
          show (a :: as).forM step s = _ from ht.bind_eq]
        exact Or.inl ⟨rfl, hforget⟩

theorem Fails.onSession {α : Type} {m : SurveyM α} {p : Progress} {e : SurveyError} {t : Session}
    (h : Fails m p.session e t) : Fails (onSession m) p e { p with session := t } := by
  rw [Fails, HeaderSurvey.onSession, show m p.session = _ from h]

theorem forM_fails {σ α : Type} {step : α → StepM σ PUnit} {as : List α} {a : α} (ha : a ∈ as)
    (h : ∀ s, ∃ e t, Fails (step a) s e t) (s : σ) : ∃ e t, Fails (as.forM step) s e t := by
  induction as generalizing s with
  | nil => cases ha
  | cons b as ih =>
    rcases returns_or_fails (step b) s with ⟨_, t, hb⟩ | ⟨e, t, hb⟩
    · rcases List.mem_cons.1 ha with rfl | hmem
      · obtain ⟨e, t', hfails⟩ := h s
        exact absurd hfails hb.not_fails
      · obtain ⟨e, t', hfails⟩ := ih hmem t
        exact ⟨e, t', hb.bind_eq.trans hfails⟩
    · exact ⟨e, t, hb.bind_eq⟩

/-- A hidden child of the root that is not inert: a `NamelessVariable`. -/
def TranslationUnit.Disturbs (u : TranslationUnit) (hidden : List Category) (id : CursorId)
    (e : SurveyError) : Prop :=
  .globals ∈ hidden ∧ ∃ root c, u.cursorAt CursorId.root = .ok root ∧ id ∈ root.children ∧
    u.cursorAt id = .ok c ∧ u.NamelessVariable c e

namespace Context

variable {x : Context} {hidden : List Category}

/-- The scans with and without the hidden declarations end alike up to `Session.forget`, unless a
hidden declaration `Disturbs` them. -/
theorem scan_sameEnd (hu : x.unit.Valid) (hoff : ∀ c ∈ hidden, c.isEnabled x.switches = false)
    (s : Session) :
    SameEnd Session.forget (x.scan s) ((x.withUnit (x.unit.withoutTopLevel hidden)).scan s) ∨
      ∃ id e t, x.unit.Disturbs hidden id e ∧ Fails x.scan s e t := by
  obtain ⟨root, hroot, -⟩ := hu.root
  have hrange := (hu.cursor_inRange hroot).children
  rw [scan_withoutTopLevel hu hidden hroot, scan_eq hroot hrange]
  have hout : ∀ id ∈ root.children.filter (fun id => isTopLevel (x.unit.cursorD id)),
      x.unit.isHidden hidden id = true → ∀ s,
      (∃ t, Returns (x.visitTopLevel id (x.unit.cursorD id)) s () t ∧ t.forget = s.forget) ∨
        ∃ e, Fails (x.visitTopLevel id (x.unit.cursorD id)) s e s ∧
          x.unit.NamelessVariable (x.unit.cursorD id) e := by
    intro id hid hhidden s
    obtain ⟨hchild, htop⟩ := List.mem_filter.1 hid
    obtain ⟨kind, hkind, hcategory⟩ := (Option.any_eq_true _ _).1 hhidden
    exact visitTopLevel_disabled hu (TranslationUnit.cursorAt_of_lt (hrange id hchild)) htop hkind
      (hoff _ (List.contains_iff_mem.1 hcategory)) s
  rcases forM_filter_respects (fun id => visitTopLevel_respects id _) hout
    (rfl : s.forget = s.forget) with
    hsame | ⟨id, hid, hhidden, e, t, hnameless, hfails⟩
  · exact Or.inl hsame
  · refine Or.inr ⟨id, e, t, ⟨?_, root, x.unit.cursorD id, hroot, ?_, ?_, hnameless⟩, hfails⟩
    · obtain ⟨kind, hkind, hcategory⟩ := (Option.any_eq_true _ _).1 hhidden
      have hvariable : topLevelKind? (x.unit.cursorD id) = some .globalVariable := by
        simp [topLevelKind?, hnameless.1]
      cases hkind.symm.trans hvariable
      exact List.contains_iff_mem.1 hcategory
    · exact List.mem_of_mem_filter hid
    · exact TranslationUnit.cursorAt_of_lt (hrange id (List.mem_of_mem_filter hid))

/-- No scan returns from a unit with a declaration that `Disturbs` it. -/
theorem scan_fails (hu : x.unit.Valid) {id : CursorId} {e : SurveyError}
    (h : x.unit.Disturbs hidden id e) (s : Session) : ∃ e' t, Fails x.scan s e' t := by
  obtain ⟨-, root, c, hroot, hchild, hc, hnameless⟩ := h
  have hrange := (hu.cursor_inRange hroot).children
  rw [scan_eq hroot hrange]
  have hmem : id ∈ root.children.filter fun id => isTopLevel (x.unit.cursorD id) := by
    refine List.mem_filter.2 ⟨hchild, ?_⟩
    rw [TranslationUnit.cursorD_of_cursorAt hc]
    simp [isTopLevel, hnameless.1, hnameless.2.1]
  have hfails : ∀ s, Fails (x.visitTopLevel id (x.unit.cursorD id)) s e s := by
    rw [TranslationUnit.cursorD_of_cursorAt hc]
    exact visitTopLevel_nameless hu hnameless
  exact forM_fails hmem (fun s => ⟨e, s, hfails s⟩) s

private theorem afterScan_withUnit {v : TranslationUnit} (h : x.unit.Alike v) (rounds turns : Nat) :
    (x.withUnit v).afterScan rounds turns = x.afterScan rounds turns := by
  simp only [afterScan, h.drain, h.alternateFor]

private theorem runFor_sameEnd (hu : x.unit.Valid)
    (hoff : ∀ c ∈ hidden, c.isEnabled x.switches = false) (rounds turns : Nat) (p : Progress) :
    SameEnd (Progress.change Session.forget) (x.runFor rounds turns p)
        ((x.withUnit (x.unit.withoutTopLevel hidden)).runFor rounds turns p) ∨
      ∃ id e q, x.unit.Disturbs hidden id e ∧ Fails (x.runFor rounds turns) p e q := by
  have hrun : ∀ x : Context,
      x.runFor rounds turns = (do onSession x.scan; x.afterScan rounds turns) :=
    fun _ => rfl
  rw [hrun, hrun, afterScan_withUnit (hu.alike hidden)]
  rcases scan_sameEnd hu hoff p.session with ⟨hresult, hstate⟩ | ⟨id, e, t, hdisturbs, hfails⟩
  · have hscan : SameEnd (Progress.change Session.forget) (onSession x.scan p)
        (onSession (x.withUnit (x.unit.withoutTopLevel hidden)).scan p) :=
      ⟨hresult, congrArg (fun session => ({ p with session } : Progress)) hstate⟩
    exact Or.inl (hscan.bind fun _ => afterScan_respects rounds turns)
  · exact Or.inr ⟨id, e, _, hdisturbs, hfails.onSession.bind_eq⟩

end Context

/-! ## Surveys -/

variable {s : Settings} {u : TranslationUnit} {hidden : List Category} {x : Context}
  {start : Progress}

private theorem beginSurvey_withoutTopLevel (s : Settings) (u : TranslationUnit)
    (hidden : List Category) :
    beginSurvey s (u.withoutTopLevel hidden) =
      (beginSurvey s u).map fun begun =>
        (begun.1.withUnit (u.withoutTopLevel hidden), begun.2) := by
  have hplatform : (u.withoutTopLevel hidden).platform = u.platform := rfl
  unfold beginSurvey
  rw [hplatform]
  cases s.platform with
  | error e => rfl
  | ok requested => cases u.platform <;> rfl

/-- Runs that end alike up to `Session.forget` have the same outcome. -/
theorem surveyFor_eq_of_sameEnd {rounds turns : Nat} {v : TranslationUnit} {y : Context}
    (hbegin : beginSurvey s u = .ok (x, start)) (hbegin' : beginSurvey s v = .ok (y, start))
    (h : SameEnd (Progress.change Session.forget) (x.runFor rounds turns start)
      (y.runFor rounds turns start)) :
    surveyFor rounds turns s u = surveyFor rounds turns s v := by
  rcases returns_or_fails (x.runFor rounds turns) start with ⟨_, q, hrun⟩ | ⟨e, q, hrun⟩
  · obtain ⟨q', hrun', hview⟩ := h.returns hrun
    obtain ⟨hsession, hassembly⟩ := Progress.mk.inj hview
    have hreports := congrArg Session.diagnostics hsession
    simp only [Session.forget] at hreports
    rw [surveyFor_of_returns hbegin hrun, surveyFor_of_returns hbegin' hrun', hassembly, hreports]
  · obtain ⟨q', hrun', -⟩ := h.fails hrun
    rw [surveyFor_of_fails hbegin hrun, surveyFor_of_fails hbegin' hrun']

/-- Declarations whose category is not enabled can be left out of the top level of a valid unit:
`surveyFor` gives the same answer for `withoutTopLevel hidden`, unless it fails on a hidden variable
that `Disturbs` it, whose type has no name. With such a variable in place `surveyFor` does not
succeed. -/
theorem surveyFor_inert {rounds turns : Nat} {v : TranslationUnit} (hvalid : u.validate = .ok v)
    (hoff : ∀ c ∈ hidden, c.isEnabled s.switches = false) :
    (surveyFor rounds turns s u ≠ surveyFor rounds turns s (u.withoutTopLevel hidden) →
      ∃ id e, u.Disturbs hidden id e ∧ surveyFor rounds turns s u = .error e) ∧
    ∀ id e, u.Disturbs hidden id e → ∃ e', surveyFor rounds turns s u = .error e' := by
  have hu : u.Valid := by
    refine TranslationUnit.valid_of_fault? ?_
    unfold TranslationUnit.validate at hvalid
    split at hvalid
    · cases hvalid
    · assumption
  have hbegin' := beginSurvey_withoutTopLevel s u hidden
  cases hbegin : beginSurvey s u with
  | error e =>
    rw [hbegin] at hbegin'
    have hsurvey : surveyFor rounds turns s u = .error e := by
      rw [surveyFor, hbegin]
      rfl
    refine ⟨fun hne => absurd ?_ hne, fun _ _ _ => ⟨e, hsurvey⟩⟩
    rw [hsurvey, surveyFor, hbegin']
    rfl
  | ok begun =>
    obtain ⟨x, start⟩ := begun
    rw [hbegin] at hbegin'
    obtain ⟨requested, actual, -, -, hx, -⟩ := beginSurvey_eq_ok hbegin
    have hunit : x.unit = u := by rw [hx]; rfl
    have hswitches : x.switches = s.switches := by rw [hx]; rfl
    rw [← hunit] at hu
    refine ⟨fun hne => ?_, fun id e hdisturbs => ?_⟩
    · rcases Context.runFor_sameEnd hu (hswitches ▸ hoff) rounds turns
        start with hsame | ⟨id, e, q, hdisturbs, hfails⟩
      · rw [hunit] at hsame
        exact absurd (surveyFor_eq_of_sameEnd hbegin hbegin' hsame) hne
      · exact ⟨id, e, hunit ▸ hdisturbs, surveyFor_of_fails hbegin hfails⟩
    · obtain ⟨e', t, hfails⟩ := Context.scan_fails hu (hunit ▸ hdisturbs) start.session
      exact ⟨e', surveyFor_of_fails hbegin hfails.onSession.bind_eq⟩

/-- A variable of an anonymous structure, before a function. -/
def namelessUnit : TranslationUnit :=
  Builder.build "a.h" "x86_64-unknown-linux-gnu" 64
    [.primitive .int, .anonymousRecord .struct [("x", 1)], .globalVariable "v" 2 .external,
      .function "f" 1 [] false]

def functionSettings : Settings := { switches := { macroObjects := false, globals := false } }

theorem surveyFor_namelessUnit_inert : namelessUnit.validate = .ok namelessUnit ∧
    (∀ c ∈ [Category.globals], c.isEnabled functionSettings.switches = false) ∧
    (surveyFor 8 2 functionSettings (namelessUnit.withoutTopLevel [.globals])).isOk = true ∧
    (∃ id e, namelessUnit.Disturbs [.globals] id e ∧
      surveyFor 8 2 functionSettings namelessUnit = .error e) ∧
    surveyFor 8 2 functionSettings namelessUnit =
      surveyFor 8 2 functionSettings (namelessUnit.withoutTopLevel [.macros]) := by
  have hvalid : namelessUnit.validate = .ok namelessUnit := by decide +kernel
  have hoff : ∀ c ∈ [Category.globals], c.isEnabled functionSettings.switches = false := by decide
  have hok : (surveyFor 8 2 functionSettings (namelessUnit.withoutTopLevel [.globals])).isOk =
      true := by
    decide +kernel
  have hstopped : (surveyFor 8 2 functionSettings namelessUnit).isOk = false := by decide +kernel
  refine ⟨hvalid, hoff, hok, (surveyFor_inert hvalid hoff).1 fun hsame => ?_, ?_⟩
  · rw [hsame, hok] at hstopped
    cases hstopped
  · by_contra hne
    obtain ⟨-, -, ⟨hglobals, -⟩, -⟩ := (surveyFor_inert hvalid (by decide)).1 hne
    cases List.mem_singleton.1 hglobals

end HeaderSurvey
