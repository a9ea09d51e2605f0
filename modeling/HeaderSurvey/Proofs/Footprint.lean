import HeaderSurvey.Proofs.Ledger

/-! What the steps of a survey do to its session, whether they succeed or fail. A step that fails
keeps what it has done before, so here each single change is looked at, and not only the whole of a
step. -/
namespace HeaderSurvey

/-- A step leaves `Q` if its first part does, and its second part after the first. -/
theorem leaves_bind {σ α β : Type} {Q : σ → Prop} {m : StepM σ α} {f : α → StepM σ β} {s : σ}
    (hm : Q (m s).2) (hf : ∀ a t, Returns m s a t → Q t → Q (f a t).2) : Q ((m >>= f) s).2 := by
  rcases returns_or_fails m s with ⟨a, t, h⟩ | ⟨e, t, h⟩
  · rw [h.bind_eq]
    have ht : Q t := by rwa [show m s = (.ok a, t) from h] at hm
    exact hf a t h ht
  · rw [h.bind_eq]
    rwa [show m s = (.error e, t) from h] at hm

/-- Whatever comes of the step, `Q` still holds. -/
def Keeps {σ α : Type} (Q : σ → Prop) (m : StepM σ α) : Prop := ∀ s, Q s → Q (m s).2

namespace Keeps

variable {σ α β : Type} {Q : σ → Prop} {m : StepM σ α} {f : α → StepM σ β}

theorem pure (a : α) : Keeps Q (Pure.pure a : StepM σ α) := fun _ h => h

theorem throw (e : SurveyError) : Keeps Q (MonadExcept.throw e : StepM σ α) := fun _ h => h

theorem get : Keeps Q (MonadState.get : StepM σ σ) := fun _ h => h

theorem lift (r : Except SurveyError α) : Keeps Q (liftM r : StepM σ α) := fun _ h => h

theorem modify {g : σ → σ} (h : ∀ s, Q s → Q (g s)) : Keeps Q (modify g : StepM σ PUnit) := h

theorem returns {s t : σ} {a : α} (hm : Keeps Q m) (h : Returns m s a t) (hs : Q s) : Q t := by
  have ht := hm s hs
  rwa [show m s = (.ok a, t) from h] at ht

theorem bind (hm : Keeps Q m) (hf : ∀ s a t, Returns m s a t → Keeps Q (f a)) : Keeps Q (m >>= f) :=
  fun s hs => leaves_bind (hm s hs) fun a t h ht => hf s a t h t ht

theorem forM {g : α → StepM σ PUnit} {as : List α} (h : ∀ a ∈ as, Keeps Q (g a)) :
    Keeps Q (as.forM g) := by
  induction as with
  | nil => exact pure _
  | cons a as ih =>
    refine (h a List.mem_cons_self).bind fun _ _ _ _ => ?_
    exact ih fun a' ha' => h a' (List.mem_cons_of_mem a ha')

end Keeps

/-- One change to a session: a name is reserved or a queue gets longer, both for a node with `P`, or
something is written down. -/
inductive Session.Touches (P : VisitNode → Prop) : Session → Session → Prop where
  | reserve {node s} (source : P node) : Touches P s (s.markVisited node.category node.key)
  | enqueue {node s} (source : P node) : Touches P s (s.enqueue node.category node)
  | note {s t} (same : s.SameWork t) : Touches P s t
  | record {s e} (source : ∀ node verdict, e = .offered node verdict → P node) :
      Touches P s (s.record e)

/-- No change that comes from nodes with `P` makes `Q` false. -/
def Stands (P : VisitNode → Prop) (Q : Session → Prop) : Prop := ∀ s t, s.Touches P t → Q s → Q t

theorem Stands.mono {P P' : VisitNode → Prop} {Q : Session → Prop} (h : Stands P' Q)
    (hP : ∀ node, P node → P' node) : Stands P Q := by
  intro s t htouch
  refine h s t ?_
  cases htouch with
  | reserve source => exact .reserve (hP _ source)
  | enqueue source => exact .enqueue (hP _ source)
  | note same => exact .note same
  | record source => exact .record fun node verdict he => hP node (source node verdict he)

theorem Stands.record {P : VisitNode → Prop} {Q : Session → Prop} (h : Stands P Q) {e : Event}
    (he : e.offer? = none) : ∀ s, Q s → Q (s.record e) := by
  intro s
  refine h s _ (.record ?_)
  rintro node verdict rfl
  cases he

namespace Context

variable {x : Context} {P : VisitNode → Prop} {Q : Session → Prop} {node : VisitNode}

private theorem rememberTokens_keeps (h : Stands P Q) : Keeps Q (x.rememberTokens node) := by
  unfold rememberTokens
  split
  · refine (Keeps.lift _).bind fun _ cursor _ _ => .modify fun s => ?_
    exact h s _ (.note (s.sameWork_withNotes _ _))
  · exact .pure _

private theorem judge_keeps (h : Stands P Q) (hP : P node) : Keeps Q (x.judge node) := by
  refine Keeps.get.bind fun _ s _ _ => ?_
  split
  · refine Keeps.get.bind fun _ s _ _ => (Keeps.lift _).bind fun _ diagnostic _ _ => ?_
    refine (Keeps.modify fun s => ?_).bind fun _ _ _ _ => .pure _
    exact h s _ (.note (s.sameWork_withNotes _ _))
  · refine (Keeps.modify fun s => h s _ (.reserve hP)).bind fun _ _ _ _ => ?_
    refine (rememberTokens_keeps h).bind fun _ _ _ _ => (Keeps.lift _).bind fun _ accepted _ _ => ?_
    split
    · exact (Keeps.modify fun s => h s _ (.enqueue hP)).bind fun _ _ _ _ => .pure _
    · exact .pure _

theorem offer_keeps (h : Stands P Q) (hP : P node) : Keeps Q (x.offer node) := by
  have hrecord : ∀ verdict, Keeps Q (do
      modify (·.record (.offered node verdict))
      return verdict : SurveyM Verdict) := by
    intro verdict
    refine (Keeps.modify fun s => h s _ (.record ?_)).bind fun _ _ _ _ => .pure _
    rintro _ _ ⟨⟩
    exact hP
  unfold offer
  split
  · exact (judge_keeps h hP).bind fun _ verdict _ _ => hrecord verdict
  · exact (Keeps.pure _).bind fun _ verdict _ _ => hrecord verdict

/-- The offers of nodes that references lead to, and the descriptions of these references, keep
`Q`. -/
structure Upholds (x : Context) (Q : Session → Prop) : Prop where
  offer : ∀ node, x.Referenced node → Keeps Q (x.offer node)
  describe : ∀ s use, Q s → Q (s.record (.described use))

theorem upholds_of_stands (h : Stands x.Referenced Q) : x.Upholds Q :=
  ⟨fun _ hnode => offer_keeps h hnode, fun s _ => h.record rfl s⟩

theorem scan_keeps (h : ∀ node, x.TopLevel node → Keeps Q (x.offer node)) : Keeps Q x.scan := by
  refine (Keeps.lift _).bind fun _ root _ hroot =>
    (Keeps.lift _).bind fun _ children _ hchildren => ?_
  refine Keeps.forM fun child hmem => ?_
  obtain ⟨hid, hc, htop⟩ := mem_childrenWhere (returns_lift.1 hchildren).1 hmem
  unfold visitTopLevel
  split
  · exact .pure _
  · next kind hkind =>
    split
    · exact .lift _
    · next hskip =>
      refine (Keeps.lift _).bind fun _ t _ ht => (Keeps.lift _).bind fun _ node _ hnode => ?_
      have htopLevel : x.TopLevel node :=
        ⟨root, child.1, child.2, kind, t, (returns_lift.1 hroot).1, hid, hc,
        htop, hkind, by simpa using hskip, (returns_lift.1 ht).1, (returns_lift.1 hnode).1⟩
      exact (h node htopLevel).bind fun _ _ _ _ => .pure _

/-! ## Finishing nodes -/

/-- What the finishing of a node is made of: references are followed, which offers the nodes that
they lead to and describes them, and nodes with `T` are taken up. Nothing else of it looks at the
session. -/
inductive Routine (x : Context) (T : VisitNode → Prop) : {α : Type} → SurveyM α → Prop where
  | pure {α : Type} (a : α) : Routine x T (Pure.pure a : SurveyM α)
  | lift {α : Type} (r : Except SurveyError α) : Routine x T (liftM r : SurveyM α)
  | offer {node : VisitNode} (source : x.Referenced node) : Routine x T (x.offer node)
  | describe (use : TypeUse) : Routine x T (modify (·.record (.described use)))
  | takeUp {node : VisitNode} (allowed : T node) : Routine x T (modify (·.record (.handled node)))
  | bind {α β : Type} {m : SurveyM α} {f : α → SurveyM β} (first : Routine x T m)
      (next : ∀ s a t, Returns m s a t → Routine x T (f a)) : Routine x T (m >>= f)

variable {T : VisitNode → Prop}

theorem Routine.mapM {α β : Type} {f : α → SurveyM β} {as : List α}
    (h : ∀ a ∈ as, x.Routine T (f a)) :
    x.Routine T (as.mapM f) := by
  induction as with
  | nil => exact .pure _
  | cons a as ih =>
    rw [List.mapM_cons]
    refine (h a List.mem_cons_self).bind fun _ _ _ _ => ?_
    exact (ih fun a' ha' => h a' (List.mem_cons_of_mem a ha')).bind fun _ _ _ _ => .pure _

theorem Routine.keeps {α : Type} {m : SurveyM α} (hm : x.Routine T m) (h : x.Upholds Q)
    (hT : ∀ node, T node → ∀ s, Q s → Q (s.record (.handled node))) : Keeps Q m := by
  induction hm with
  | pure a => exact .pure a
  | lift r => exact .lift r
  | offer source => exact h.offer _ source
  | describe use => exact .modify (h.describe · use)
  | takeUp allowed => exact .modify (hT _ allowed)
  | bind _ _ first next => exact first.bind next

theorem visit_routine (candidate : TypeId) (parent : Option String) (index : Nat) :
    x.Routine T (x.visit candidate parent index) := by
  refine (Routine.lift _).bind fun _ ⟨node, container⟩ _ hr => ?_
  have hresolve := (returns_lift.1 hr).1
  have hdescribe : x.Routine T (do
      let use ← x.use node.kind node.typeName node.type container
      modify (·.record (.described use))
      return use : SurveyM TypeUse) :=
    (Routine.lift _).bind fun _ use _ _ => (Routine.describe use).bind fun _ _ _ _ => .pure _
  dsimp only
  split
  · next hk =>
    have hsource : x.Referenced node := ⟨hk, candidate, parent, index, container, hresolve⟩
    exact (Routine.offer hsource).bind fun _ _ _ _ => hdescribe
  · exact hdescribe

private theorem finishFunction_routine : x.Routine T (x.finishFunction node) := by
  refine (Routine.lift _).bind fun _ entry _ _ => (visit_routine _ _ _).bind fun _ result _ _ => ?_
  refine (Routine.lift _).bind fun _ cursor _ _ => (Routine.lift _).bind fun _ children _ _ => ?_
  refine (Routine.mapM fun _ _ => ?_).bind fun _ _ _ _ => .pure _
  refine (visit_routine _ _ _).bind fun _ _ _ _ => (Routine.lift _).bind fun _ _ _ _ => ?_
  exact (Routine.lift _).bind fun _ _ _ _ => .pure _

theorem finishRecord_routine : x.Routine T (x.finishRecord node) := by
  refine (Routine.lift _).bind fun _ entry _ _ => ?_
  refine (Routine.mapM fun _ _ => ?_).bind fun _ _ _ _ => .pure _
  refine (Routine.lift _).bind fun _ _ _ _ => (visit_routine _ _ _).bind fun _ _ _ _ => ?_
  exact (Routine.lift _).bind fun _ _ _ _ => (Routine.lift _).bind fun _ _ _ _ => .pure _

private theorem finishEnum_routine : x.Routine T (x.finishEnum node) := by
  refine (Routine.lift _).bind fun _ cursor _ _ => (visit_routine _ _ _).bind fun _ _ _ _ => ?_
  exact (Routine.lift _).bind fun _ _ _ _ => .pure _

private theorem finishFunctionPointer_routine : x.Routine T (x.finishFunctionPointer node) := by
  refine (Routine.lift _).bind fun _ entry _ _ => (Routine.lift _).bind fun _ function _ _ => ?_
  refine (visit_routine _ _ _).bind fun _ result _ _ => ?_
  refine (Routine.mapM fun _ _ => ?_).bind fun _ _ _ _ => .pure _
  exact (visit_routine _ _ _).bind fun _ _ _ _ => .pure _

private theorem finishAlias_routine (hk : node.kind = .typeAlias)
    (ht : x.Unflattened node ∨ ∀ other, T other) :
    x.Routine T (x.finishAlias node) := by
  refine (Routine.lift _).bind fun _ cursor _ hc =>
    (Routine.lift _).bind fun _ ⟨kind, t⟩ _ hclass => ?_
  dsimp only
  split
  · next hflat =>
    rcases ht with hkept | hall
    · -- The node leads to a type that is not flattened, so it does not come this way.
      obtain ⟨cursor', kind', t', hc', hclass', hflat'⟩ := hkept hk
      cases hc'.symm.trans (returns_lift.1 hc).1
      cases hclass'.symm.trans (returns_lift.1 hclass).1
      simp [hflat] at hflat'
    · refine (Routine.lift _).bind fun _ entry _ _ =>
        (Routine.lift _).bind fun _ flattened _ _ => ?_
      refine (Routine.takeUp (hall _)).bind fun _ _ _ _ => ?_
      split
      · exact finishEnum_routine
      · exact finishFunctionPointer_routine
      · exact finishRecord_routine
  · exact (visit_routine _ _ _).bind fun _ _ _ _ => .pure _

/-- `finish` is the event `handled` followed by a `Routine`; the nodes that this takes up are in
`T`, and there are none if `node` is `Unflattened`. -/
theorem finish_routine (ht : x.Unflattened node ∨ ∀ other, T other) : ∃ rest : SurveyM Node,
    x.finish node = (do modify (·.record (.handled node)); rest) ∧ x.Routine T rest := by
  refine ⟨_, rfl, ?_⟩
  split
  · exact (Routine.lift _).bind fun _ _ _ _ => .pure _
  · refine (Routine.lift _).bind fun _ r _ _ => ?_
    obtain ⟨kind, t⟩ := r
    exact (Routine.lift _).bind fun _ _ _ _ => (Routine.lift _).bind fun _ _ _ _ => .pure _
  · exact finishFunction_routine
  · exact finishRecord_routine
  · exact finishRecord_routine
  · exact finishEnum_routine
  · next hk => exact finishAlias_routine hk ht
  · exact .pure _
  · exact finishFunctionPointer_routine
  · exact (Routine.lift _).bind fun _ entry _ _ => (visit_routine _ _ _).bind fun _ _ _ _ => .pure _
  · exact (Routine.lift _).bind fun _ entry _ _ => (visit_routine _ _ _).bind fun _ _ _ _ => .pure _
  · exact .pure _

/-- Finishing `node` takes up no other node, or taking up a node keeps `Q`. -/
def TakesUp (x : Context) (Q : Session → Prop) (node : VisitNode) : Prop :=
  x.Unflattened node ∨ ∀ other s, Q s → Q (s.record (.handled other))

/-- What `Upholds` the references of a unit holds of the session that `finish` leaves, whether it
returns or fails. -/
theorem finish_leaves (h : x.Upholds Q) (ht : x.TakesUp Q node) {s : Session}
    (hs : Q (s.record (.handled node))) : Q (x.finish node s).2 := by
  have hfirst : Returns (modify (·.record (.handled node)) : SurveyM PUnit) s ⟨⟩
      (s.record (.handled node)) :=
    returns_modify.2 rfl
  -- The nodes that may be taken up on the way are those whose taking up keeps `Q`.
  have ht' : x.Unflattened node ∨ ∀ other, ∀ s, Q s → Q (s.record (.handled other)) := ht
  obtain ⟨rest, hfinish, hrest⟩ := finish_routine ht'
  rw [hfinish, hfirst.bind_eq]
  exact hrest.keeps h (fun _ hother => hother) _ hs

theorem finish_keeps (h : x.Upholds Q) (hhandled : ∀ other s, Q s → Q (s.record (.handled other))) :
    Keeps Q (x.finish node) :=
  fun s hs => finish_leaves h (Or.inr hhandled) (hhandled node s hs)

/-! ## Runs of any length -/

theorem complete_leaves {p : Progress} (hfinish : Q (x.finish node p.session).2)
    (hresult : ∀ r t, Returns (x.finish node) p.session r t → Q t →
      Q (t.record (.finished node r))) :
    Q (x.complete node p).2.session := by
  refine leaves_bind (Q := fun q : Progress => Q q.session) ?_ fun _ _ _ hq => hq
  exact leaves_bind hfinish fun r t hr ht => hresult r t hr ht

variable {R : Progress → Prop} {rounds : Nat}

/-- An invariant of `Session.take` and of each round is one of `drain`. -/
theorem drain_keeps {c : Category} (htake : Keeps R (onSession (Session.take c)))
    (hround : ∀ p batch q, R p → Returns (onSession (Session.take c)) p batch q →
      R (batch.forM x.complete q).2) (rounds : Nat) : Keeps R (x.drain c rounds) := by
  induction rounds with
  | zero => exact .throw _
  | succ rounds ih =>
    intro p hp
    refine leaves_bind (htake p hp) fun batch q htook hq => ?_
    split
    · exact hq
    · exact leaves_bind (hround p batch q hp htook) fun _ q' _ hq' => ih q' hq'

theorem alternateFor_keeps (hdrain : ∀ c, Keeps R (x.drain c rounds)) (turns : Nat) :
    Keeps R (x.alternateFor rounds turns) := by
  induction turns with
  | zero => exact .throw _
  | succ turns ih =>
    refine Keeps.get.bind fun _ _ _ _ => ?_
    split
    · exact .pure _
    · exact (hdrain .functions).bind fun _ _ _ _ => (hdrain .types).bind fun _ _ _ _ => ih

/-- An invariant of the scan and of `drain` for each category is one of `runFor`. -/
theorem runFor_keeps (hscan : Keeps R (onSession x.scan)) (hdrain : ∀ c, Keeps R (x.drain c rounds))
    (turns : Nat) : Keeps R (x.runFor rounds turns) := by
  refine hscan.bind fun _ _ _ _ => (hdrain .macros).bind fun _ _ _ _ => ?_
  exact (hdrain .globals).bind fun _ _ _ _ => alternateFor_keeps hdrain turns

end Context

/-- `surveyFor` fails before its start or during its run. -/
theorem surveyFor_eq_error {rounds turns : Nat} {s : Settings} {u : TranslationUnit}
    {e : SurveyError} (h : surveyFor rounds turns s u = .error e) :
    beginSurvey s u = .error e ∨ ∃ x start p, beginSurvey s u = .ok (x, start) ∧
      Fails (x.runFor rounds turns) start e p := by
  rcases bind_eq_error_iff.1 h with hbegin | ⟨⟨x, start⟩, hbegin, hrun⟩
  · exact .inl hbegin
  · dsimp only at hrun
    split at hrun
    · next e' p hfails =>
      cases hrun
      exact .inr ⟨x, start, p, hbegin, hfails⟩
    · cases hrun

end HeaderSurvey
