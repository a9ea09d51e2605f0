import HeaderSurvey.Proofs.Discovery
import Mathlib.Logic.Relation

/-! What the steps of a survey do to its session. An offer adds a node to the end of one queue, or
reserves its name, or only leaves a trace in the journal; finishing a node comes down to offers of
types and to descriptions. -/
namespace HeaderSurvey

namespace Session

variable {s : Session}

@[simp] theorem frontier_record (e : Event) (c : Category) :
    (s.record e).frontier c = s.frontier c := by
  cases c <;> rfl

@[simp] theorem journal_record (e : Event) : (s.record e).journal = e :: s.journal := rfl

theorem frontier_setFrontier (c d : Category) (f : Frontier) :
    (s.setFrontier c f).frontier d = if d = c then f else s.frontier d := by
  cases c <;> cases d <;> rfl

@[simp] theorem journal_setFrontier (c : Category) (f : Frontier) :
    (s.setFrontier c f).journal = s.journal := by
  cases c <;> rfl

/-- The sessions agree but for `macroTokens` and `diagnostics`. -/
def SameWork (s t : Session) : Prop := (∀ c, t.frontier c = s.frontier c) ∧ t.journal = s.journal

theorem sameWork_withNotes (s : Session) (tokens : List (String × List String))
    (diagnostics : List Diagnostic) : s.SameWork { s with macroTokens := tokens, diagnostics } :=
  ⟨fun c => by cases c <;> rfl, rfl⟩

@[simp] theorem frontier_markVisited (c d : Category) (name : String) :
    (s.markVisited c name).frontier d =
      if d = c then { s.frontier c with visited := name :: (s.frontier c).visited }
        else s.frontier d :=
  frontier_setFrontier c d _

@[simp] theorem journal_markVisited (c : Category) (name : String) :
    (s.markVisited c name).journal = s.journal := journal_setFrontier c _

@[simp] theorem frontier_enqueue (c d : Category) (node : VisitNode) :
    (s.enqueue c node).frontier d =
      if d = c then { s.frontier c with queue := (s.frontier c).queue ++ [node] }
        else s.frontier d :=
  frontier_setFrontier c d _

@[simp] theorem journal_enqueue (c : Category) (node : VisitNode) :
    (s.enqueue c node).journal = s.journal := journal_setFrontier c _

theorem isVisited_iff {c : Category} {name : String} :
    s.isVisited c name = true ↔ name ∈ (s.frontier c).visited := by
  simp [isVisited]

end Session

namespace Context

variable {x : Context}

/-- What `offer node` with that `verdict` does to a session. -/
structure Offers (x : Context) (node : VisitNode) (verdict : Verdict) (s t : Session) : Prop where
  journal : t.journal = .offered node verdict :: s.journal
  queue : ∀ c, (t.frontier c).queue =
    (s.frontier c).queue ++ if c = node.category ∧ verdict = .accepted then [node] else []
  visited : ∀ c, (t.frontier c).visited =
    (if c = node.category ∧ (verdict = .accepted ∨ verdict = .filtered) then [node.key] else []) ++
      (s.frontier c).visited
  disabled : verdict = .disabled ↔ node.category.isEnabled x.switches = false
  duplicate : verdict = .duplicate → node.key ∈ (s.frontier node.category).visited
  fresh : verdict = .accepted ∨ verdict = .filtered → node.key ∉ (s.frontier node.category).visited
  passed : verdict = .accepted → x.accepts node = .ok true
  stopped : verdict = .filtered → x.accepts node = .ok false

theorem rememberTokens_returns {node : VisitNode} {s t : Session} {u : PUnit}
    (h : Returns (x.rememberTokens node) s u t) : s.SameWork t := by
  unfold rememberTokens at h
  split at h
  · simp only [returns_bind, returns_lift, returns_modify] at h
    obtain ⟨cursor, s', ⟨-, rfl⟩, rfl⟩ := h
    exact s.sameWork_withNotes _ _
  · obtain ⟨-, rfl⟩ := returns_pure.1 h
    exact s.sameWork_withNotes _ _

private theorem judge_returns {node : VisitNode} {verdict : Verdict} {s t : Session}
    (h : Returns (x.judge node) s verdict t) :
    (verdict = .duplicate ∧ node.key ∈ (s.frontier node.category).visited ∧ s.SameWork t) ∨
    (node.key ∉ (s.frontier node.category).visited ∧
      ∃ s', (s.markVisited node.category node.key).SameWork s' ∧
        ((verdict = .accepted ∧ x.accepts node = .ok true ∧ t = s'.enqueue node.category node) ∨
          (verdict = .filtered ∧ x.accepts node = .ok false ∧ t = s'))) := by
  simp only [judge, returns_bind, returns_get] at h
  obtain ⟨_, _, ⟨rfl, rfl⟩, h⟩ := h
  split at h
  · next hv =>
    simp only [returns_bind, returns_get, returns_lift, returns_modify, returns_pure] at h
    obtain ⟨_, _, ⟨rfl, rfl⟩, diagnostic, _, ⟨-, rfl⟩, -, _, rfl, rfl, rfl⟩ := h
    exact Or.inl ⟨rfl, Session.isVisited_iff.1 hv, s.sameWork_withNotes _ _⟩
  · next hv =>
    simp only [returns_bind, returns_lift, returns_modify] at h
    obtain ⟨_, _, rfl, _, s', hs', accepted, _, ⟨haccepts, rfl⟩, h⟩ := h
    refine Or.inr ⟨fun hm => hv (Session.isVisited_iff.2 hm), s', rememberTokens_returns hs', ?_⟩
    split at h
    · next ha =>
      simp only [returns_bind, returns_modify, returns_pure] at h
      obtain ⟨-, _, rfl, rfl, rfl⟩ := h
      exact Or.inl ⟨rfl, ha ▸ haccepts, rfl⟩
    · next ha =>
      obtain ⟨rfl, rfl⟩ := returns_pure.1 h
      exact Or.inr ⟨rfl, by simpa [ha] using haccepts, rfl⟩

theorem offer_returns {node : VisitNode} {verdict : Verdict} {s t : Session}
    (h : Returns (x.offer node) s verdict t) : x.Offers node verdict s t := by
  unfold offer at h
  split at h
  · next henabled =>
    simp only [returns_bind, returns_modify, returns_pure] at h
    obtain ⟨verdict, s', hjudge, _, _, rfl, rfl, rfl⟩ := h
    rcases judge_returns hjudge with ⟨rfl, hmem, hf, hj⟩ |
      ⟨hnew, s', ⟨hf, hj⟩, ⟨rfl, haccepts, rfl⟩ | ⟨rfl, haccepts, rfl⟩⟩
    · constructor <;> simp [hf, hj, henabled, hmem]
    · constructor
      case queue | visited =>
        intro c
        by_cases hc : c = node.category <;> simp [hf, hc]
      all_goals simp [hj, henabled, hnew, haccepts]
    · constructor
      case queue | visited =>
        intro c
        by_cases hc : c = node.category <;> simp [hf, hc]
      all_goals simp [hj, henabled, hnew, haccepts]
  · next hdisabled =>
    simp only [returns_bind, returns_modify, returns_pure] at h
    obtain ⟨_, _, ⟨rfl, rfl⟩, _, _, rfl, rfl, rfl⟩ := h
    constructor <;> simp [hdisabled]

/-- One thing that happens to a session: a node with `P` is offered, or one that was offered before
is described. -/
inductive Grows (x : Context) (P : VisitNode → Prop) : Session → Session → Prop where
  | offer {node verdict s t} (source : P node) (offered : x.Offers node verdict s t) : Grows x P s t
  | describe {node use s} (pictured : x.Pictures node use)
      (known : node.kind ≠ .function → node.key ∈ (s.frontier .types).visited) :
      Grows x P s (s.record (.described use))

/-- What happens to a session while `finish` works on a node. -/
abbrev Unfolds (x : Context) : Session → Session → Prop :=
  Relation.ReflTransGen (x.Grows x.Referenced)

theorem Offers.mem_visited {node : VisitNode} {verdict : Verdict} {s t : Session}
    (h : x.Offers node verdict s t) (henabled : node.category.isEnabled x.switches = true) :
    node.key ∈ (t.frontier node.category).visited := by
  rw [h.visited]
  cases verdict with
  | disabled => simp [h.disabled.1 rfl] at henabled
  | duplicate => exact List.mem_append_right _ (h.duplicate rfl)
  | filtered | accepted => simp

theorem visit_returns {candidate : TypeId} {parent : Option String} {index : Nat} {use : TypeUse}
    {s t : Session} (h : Returns (x.visit candidate parent index) s use t) :
    x.Unfolds s t ∧ .described use ∈ t.journal := by
  simp only [visit, returns_bind, returns_lift] at h
  obtain ⟨⟨node, container⟩, _, ⟨hresolve, rfl⟩, h⟩ := h
  split at h
  · next hk =>
    simp only [returns_bind, returns_lift, returns_modify, returns_pure] at h
    obtain ⟨verdict, s', hoffer, use, _, ⟨huse, rfl⟩, _, _, rfl, rfl, rfl⟩ := h
    have href : x.Referenced node := ⟨hk, candidate, parent, index, container, hresolve⟩
    have ho := offer_returns hoffer
    have hpictured : x.Pictures node use := ⟨candidate, parent, index, container, hresolve, huse⟩
    refine ⟨.tail (.single (.offer href ho)) (.describe hpictured fun _ => ?_), List.mem_cons_self⟩
    have hmem := ho.mem_visited (by rw [href.category]; rfl)
    rwa [href.category] at hmem
  · next hk =>
    simp only [returns_bind, returns_lift, returns_modify, returns_pure] at h
    obtain ⟨use, _, ⟨huse, rfl⟩, _, _, rfl, rfl, rfl⟩ := h
    have hpictured : x.Pictures node use := ⟨candidate, parent, index, container, hresolve, huse⟩
    exact ⟨.single (.describe hpictured fun hk' => absurd hk' hk), List.mem_cons_self⟩

theorem mem_childrenWhere {u : TranslationUnit} {c : Cursor} {test : Cursor → Bool}
    {children : List (CursorId × Cursor)} {child : CursorId × Cursor}
    (h : u.childrenWhere c test = .ok children) (hc : child ∈ children) :
    child.1 ∈ c.children ∧ u.cursorAt child.1 = .ok child.2 ∧ test child.2 = true := by
  simp only [TranslationUnit.childrenWhere, bind_eq_ok_iff, pure_eq_ok_iff] at h
  obtain ⟨all, hall, rfl⟩ := h
  obtain ⟨hmem, htest⟩ := List.mem_filter.1 hc
  obtain ⟨id, hid, h⟩ := mem_of_mapM_eq_ok hall hmem
  simp only [bind_eq_ok_iff, pure_eq_ok_iff] at h
  obtain ⟨cursor, hcursor, rfl⟩ := h
  exact ⟨hid, hcursor, htest⟩

theorem scan_returns {s t : Session} {u : PUnit} (h : Returns x.scan s u t) :
    Relation.ReflTransGen (x.Grows x.TopLevel) s t := by
  simp only [scan, returns_bind, returns_lift] at h
  obtain ⟨root, _, ⟨hroot, rfl⟩, children, _, ⟨hchildren, rfl⟩, h⟩ := h
  refine forM_returns ?_ h
  rintro ⟨id, c⟩ hmem s u t h
  obtain ⟨hid, hc, htop⟩ := mem_childrenWhere hchildren hmem
  unfold visitTopLevel at h
  split at h
  · obtain ⟨-, rfl⟩ := returns_pure.1 h
    exact .refl
  · next kind hkind =>
    split at h
    · obtain ⟨-, rfl⟩ := returns_lift.1 h
      exact .refl
    · next hskip =>
      simp only [returns_bind, returns_lift, returns_pure] at h
      obtain ⟨type, _, ⟨htype, rfl⟩, node, _, ⟨hnode, rfl⟩, verdict, _, hoffer, -, rfl⟩ := h
      exact .single (.offer ⟨root, id, c, kind, type, hroot, hid, hc, htop, hkind,
        by simpa using hskip, htype, hnode⟩ (offer_returns hoffer))

/-! ## Finishing nodes -/

theorem Grows.mem_journal {P : VisitNode → Prop} {s t : Session} {e : Event} (h : x.Grows P s t)
    (he : e ∈ s.journal) : e ∈ t.journal := by
  cases h with
  | offer source offered =>
    rw [offered.journal]
    exact List.mem_cons_of_mem _ he
  | describe pictured known => exact List.mem_cons_of_mem _ he

private theorem mem_journal_run {P : VisitNode → Prop} {s t : Session} {e : Event}
    (h : Relation.ReflTransGen (x.Grows P) s t) (he : e ∈ s.journal) : e ∈ t.journal :=
  keeps_run (Q := fun s => e ∈ s.journal) (fun _ _ hstep hs => hstep.mem_journal hs) h he

/-- Finishing `node` from `s` has led to `t` and given `r`. -/
structure Finishes (x : Context) (node : VisitNode) (s : Session) (r : Node) (t : Session) :
    Prop where
  unfolds : x.Unfolds s t
  kind : r.kind = node.kind
  name : r.name = node.name
  uses : r.kind ≠ .globalVariable → ∀ use ∈ r.uses, .described use ∈ t.journal

variable {node : VisitNode} {s t : Session} {r : Node}

theorem mapM_visit_returns {α β : Type} {f : α → SurveyM β} {use : β → TypeUse} {as : List α}
    {bs : List β}
    (step : ∀ a s b t, Returns (f a) s b t → x.Unfolds s t ∧ .described (use b) ∈ t.journal)
    (h : Returns (as.mapM f) s bs t) :
    x.Unfolds s t ∧ ∀ u ∈ bs.map use, .described u ∈ t.journal := by
  have h' := mapM_returns (Q := fun s b => .described (use b) ∈ s.journal)
    (fun a _ => step a) (fun _ _ _ hstep hs => hstep.mem_journal hs) h
  refine ⟨h'.1, ?_⟩
  intro u hu
  obtain ⟨b, hb, rfl⟩ := List.mem_map.1 hu
  exact h'.2 b hb

theorem finishes_of_visit {candidate : TypeId} {parent : Option String} {index : Nat}
    {use : TypeUse} (h : Returns (x.visit candidate parent index) s use t) (hk : r.kind = node.kind)
    (hn : r.name = node.name) (hu : r.uses = [use]) : x.Finishes node s r t := by
  obtain ⟨hgrow, hseen⟩ := visit_returns h
  refine ⟨hgrow, hk, hn, ?_⟩
  intro _ u hu'
  rw [hu, List.mem_singleton] at hu'
  exact hu' ▸ hseen

private theorem finishMacro_returns (hk : node.kind = .macroObject)
    (h : Returns (x.finishMacro node) s r t) :
    x.Finishes node s r t := by
  simp only [finishMacro, returns_bind, returns_lift, returns_pure] at h
  obtain ⟨cursor, _, ⟨-, rfl⟩, rfl, rfl⟩ := h
  exact ⟨.refl, hk.symm, rfl, by simp [Node.uses]⟩

private theorem finishVariable_returns (hk : node.kind = .globalVariable)
    (h : Returns (x.finishVariable node) s r t) : x.Finishes node s r t := by
  simp only [finishVariable, returns_bind, returns_lift, returns_pure] at h
  obtain ⟨⟨kind, type⟩, _, ⟨-, rfl⟩, typeName, _, ⟨-, rfl⟩, use, _, ⟨-, rfl⟩, rfl, rfl⟩ := h
  exact ⟨.refl, hk.symm, rfl, fun hv => absurd rfl hv⟩

private theorem finishFunction_returns (hk : node.kind = .function)
    (h : Returns (x.finishFunction node) s r t) : x.Finishes node s r t := by
  simp only [finishFunction, returns_bind, returns_lift, returns_pure] at h
  obtain ⟨entry, _, ⟨-, rfl⟩, result, s₁, hresult, cursor, _, ⟨-, rfl⟩, children, _, ⟨-, rfl⟩,
    parameters, s₂, hparameters, rfl, rfl⟩ := h
  obtain ⟨hgrow, hseen⟩ := visit_returns hresult
  have hstep :
      ∀ (a : (CursorId × Cursor) × Nat) (s : Session) (b : FunctionParameter) (t : Session),
      Returns (x.finishParameter node a.1.2 a.2) s b t →
        x.Unfolds s t ∧ .described b.type ∈ t.journal := by
    intro a s b t h
    simp only [finishParameter, returns_bind, returns_lift, returns_pure] at h
    obtain ⟨type, s', hvisit, entry, _, ⟨-, rfl⟩, location, _, ⟨-, rfl⟩, rfl, rfl⟩ := h
    exact visit_returns hvisit
  obtain ⟨hgrow', hseen'⟩ := mapM_visit_returns hstep hparameters
  refine ⟨hgrow.trans hgrow', hk.symm, rfl, ?_⟩
  intro _ use huse
  rcases List.mem_cons.1 huse with rfl | huse
  · exact mem_journal_run hgrow' hseen
  · exact hseen' use huse

private theorem finishRecord_returns (hk : node.kind.isRecord = true)
    (h : Returns (x.finishRecord node) s r t) : x.Finishes node s r t := by
  simp only [finishRecord, returns_bind, returns_lift, returns_pure] at h
  obtain ⟨entry, _, ⟨-, rfl⟩, fields, _, hfields, rfl, rfl⟩ := h
  have hstep : ∀ (a : CursorId × Nat) (s : Session) (b : RecordField) (t : Session),
      Returns (x.finishField node a.1 a.2) s b t → x.Unfolds s t ∧
      .described b.type ∈ t.journal := by
    intro a s b t h
    simp only [finishField, returns_bind, returns_lift, returns_pure] at h
    obtain ⟨c, _, ⟨-, rfl⟩, type, s', hvisit, entry, _, ⟨-, rfl⟩, location, _, ⟨-, rfl⟩,
      rfl, rfl⟩ := h
    exact visit_returns hvisit
  obtain ⟨hgrow, hseen⟩ := mapM_visit_returns hstep hfields
  refine ⟨hgrow, ?_, rfl, fun _ => hseen⟩
  cases hn : node.kind <;> simp_all [Kind.isRecord, Node.kind, RecordTag.kind]

private theorem finishEnum_returns (hk : node.kind = .enum)
    (h : Returns (x.finishEnum node) s r t) :
    x.Finishes node s r t := by
  simp only [finishEnum, returns_bind, returns_lift, returns_pure] at h
  obtain ⟨cursor, _, ⟨-, rfl⟩, integerType, s', hvisit, constants, _, ⟨-, rfl⟩, rfl, rfl⟩ := h
  exact finishes_of_visit hvisit hk.symm rfl rfl

private theorem finishFunctionPointer_returns (hk : node.kind = .functionPointer)
    (h : Returns (x.finishFunctionPointer node) s r t) : x.Finishes node s r t := by
  simp only [finishFunctionPointer, returns_bind, returns_lift, returns_pure] at h
  obtain ⟨entry, _, ⟨-, rfl⟩, function, _, ⟨-, rfl⟩, result, s₁, hresult, parameters, s₂,
    hparameters, rfl, rfl⟩ := h
  obtain ⟨hgrow, hseen⟩ := visit_returns hresult
  have hstep : ∀ (a : TypeId × Nat) (s : Session) (b : PointerParameter) (t : Session),
      Returns (do return ⟨"", ← x.visit a.1 (some node.name) a.2⟩ :
        SurveyM PointerParameter) s b t →
        x.Unfolds s t ∧ .described b.type ∈ t.journal := by
    intro a s b t h
    simp only [returns_bind, returns_pure] at h
    obtain ⟨type, s', hvisit, rfl, rfl⟩ := h
    exact visit_returns hvisit
  obtain ⟨hgrow', hseen'⟩ := mapM_visit_returns hstep hparameters
  refine ⟨hgrow.trans hgrow', hk.symm, rfl, ?_⟩
  intro _ use huse
  rcases List.mem_cons.1 huse with rfl | huse
  · exact mem_journal_run hgrow' hseen
  · exact hseen' use huse

private theorem finishPointer_returns (hk : node.kind = .pointer)
    (h : Returns (x.finishPointer node) s r t) :
    x.Finishes node s r t := by
  simp only [finishPointer, returns_bind, returns_lift, returns_pure] at h
  obtain ⟨entry, _, ⟨-, rfl⟩, pointee, s', hvisit, rfl, rfl⟩ := h
  exact finishes_of_visit hvisit hk.symm rfl rfl

private theorem finishArray_returns (hk : node.kind = .array)
    (h : Returns (x.finishArray node) s r t) :
    x.Finishes node s r t := by
  simp only [finishArray, returns_bind, returns_lift, returns_pure] at h
  obtain ⟨entry, _, ⟨-, rfl⟩, element, s', hvisit, rfl, rfl⟩ := h
  exact finishes_of_visit hvisit hk.symm rfl rfl

/-- An `Unflattened` alias is finished as a `typeAlias`, with one use. -/
theorem finishAlias_returns (hk : node.kind = .typeAlias) (hu : x.Unflattened node)
    (h : Returns (x.finishAlias node) s r t) : x.Finishes node s r t := by
  obtain ⟨cursor, kind, resolved, hcursor, hclass, hflat⟩ := hu hk
  simp only [finishAlias, returns_bind, returns_lift, hcursor] at h
  obtain ⟨_, _, ⟨hc, rfl⟩, ⟨_, _⟩, _, ⟨hc', rfl⟩, h⟩ := h
  cases hc
  rw [hclass] at hc'
  cases hc'
  simp only [hflat, Bool.false_eq_true, ↓reduceIte, returns_bind, returns_pure] at h
  obtain ⟨underlying, s', hvisit, rfl, rfl⟩ := h
  exact finishes_of_visit hvisit hk.symm rfl rfl

/-- `finish` records `handled` once; what follows is as `Finishes` says. -/
theorem finish_returns (hu : x.Unflattened node) (h : Returns (x.finish node) s r t) :
    x.Finishes node (s.record (.handled node)) r t := by
  simp only [finish, returns_bind, returns_modify] at h
  obtain ⟨_, _, rfl, h⟩ := h
  split at h
  · next hk => exact finishMacro_returns hk h
  · next hk => exact finishVariable_returns hk h
  · next hk => exact finishFunction_returns hk h
  · next hk => exact finishRecord_returns (by rw [hk]; rfl) h
  · next hk => exact finishRecord_returns (by rw [hk]; rfl) h
  · next hk => exact finishEnum_returns hk h
  · next hk => exact finishAlias_returns hk hu h
  · next hk =>
    obtain ⟨rfl, rfl⟩ := returns_pure.1 h
    exact ⟨.refl, hk.symm, rfl, by simp [Node.uses]⟩
  · next hk => exact finishFunctionPointer_returns hk h
  · next hk => exact finishPointer_returns hk h
  · next hk => exact finishArray_returns hk h
  · next hk =>
    obtain ⟨rfl, rfl⟩ := returns_pure.1 h
    exact ⟨.refl, hk.symm, rfl, by simp [Node.uses]⟩

end Context
end HeaderSurvey
