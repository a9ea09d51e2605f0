import HeaderSurvey.Proofs.Footprint

/-! Changes to a session that the steps of a survey do not see. A step asks a session only for the
names that have been offered and the tokens of macros; whatever else is changed makes no difference
to what it does. -/
namespace HeaderSurvey

/-- The step has the same result before and after the change `g`, and the change can be made
afterwards. -/
def Commutes {σ α : Type} (g : σ → σ) (m : StepM σ α) : Prop := ∀ s, m (g s) = ((m s).1, g (m s).2)

namespace Commutes

variable {σ α β : Type} {g : σ → σ} {m : StepM σ α} {f : α → StepM σ β} {s t : σ}

theorem pure (a : α) : Commutes g (Pure.pure a : StepM σ α) := fun _ => rfl

theorem lift (r : Except SurveyError α) : Commutes g (liftM r : StepM σ α) := fun _ => rfl

theorem modify {change : σ → σ} (h : ∀ s, change (g s) = g (change s)) :
    Commutes g (modify change : StepM σ PUnit) := by
  intro s
  exact congrArg (Prod.mk _) (h s)

theorem returns {a : α} (hm : Commutes g m) (h : Returns m s a t) : Returns m (g s) a (g t) := by
  have hs := hm s
  rwa [show m s = (.ok a, t) from h] at hs

theorem fails {e : SurveyError} (hm : Commutes g m) (h : Fails m s e t) :
    Fails m (g s) e (g t) := by
  have hs := hm s
  rwa [show m s = (.error e, t) from h] at hs

theorem bind (hm : Commutes g m) (hf : ∀ s a t, Returns m s a t → Commutes g (f a)) :
    Commutes g (m >>= f) := by
  intro s
  rcases returns_or_fails m s with ⟨a, t, h⟩ | ⟨e, t, h⟩
  · rw [(hm.returns h).bind_eq, h.bind_eq]
    exact hf s a t h t
  · rw [(hm.fails h).bind_eq, h.bind_eq]

theorem forM {f : α → StepM σ PUnit} {as : List α} (h : ∀ a ∈ as, Commutes g (f a)) :
    Commutes g (as.forM f) := by
  induction as with
  | nil => exact pure _
  | cons a as ih =>
    refine (h a List.mem_cons_self).bind fun _ _ _ _ => ?_
    exact ih fun a' ha' => h a' (List.mem_cons_of_mem a ha')

theorem get_bind {f : σ → StepM σ β} (hsame : ∀ s, f (g s) = f s) (hf : ∀ s, Commutes g (f s)) :
    Commutes g (get >>= f) := by
  intro s
  change f (g s) (g s) = ((f s s).1, g (f s s).2)
  rw [hsame]
  exact hf s s

end Commutes

/-- A change `g` to a session that no step sees which offers or finishes a node. -/
structure Session.Unseen (g : Session → Session) : Prop where
  isVisited : ∀ s c name, (g s).isVisited c name = s.isVisited c name
  macroTokens : ∀ s, (g s).macroTokens = s.macroTokens
  note : ∀ s tokens reports,
    { g s with macroTokens := tokens, diagnostics := (g s).diagnostics ++ reports } =
      g { s with macroTokens := tokens, diagnostics := s.diagnostics ++ reports }
  markVisited : ∀ s c name, (g s).markVisited c name = g (s.markVisited c name)
  enqueue : ∀ s c node, (g s).enqueue c node = g (s.enqueue c node)
  record : ∀ s e, (g s).record e = g (s.record e)

def Progress.change (g : Session → Session) (p : Progress) : Progress :=
  { p with session := g p.session }

namespace Context

variable {x : Context} {node : VisitNode} {g : Session → Session}

private theorem rememberTokens_unseen (hg : Session.Unseen g) :
    Commutes g (x.rememberTokens node) := by
  unfold rememberTokens
  split
  · refine (Commutes.lift _).bind fun _ cursor _ _ => .modify fun s => ?_
    have hnote := hg.note s ((node.name, cursor.macroTokens) :: s.macroTokens) []
    simp only [List.append_nil] at hnote
    rw [hg.macroTokens, hnote]
  · exact .pure _

private theorem repetition?_unseen (hg : Session.Unseen g) (s : Session) :
    x.repetition? (g s) node = x.repetition? s node := by
  simp only [repetition?, hg.macroTokens]

private theorem judge_unseen (hg : Session.Unseen g) : Commutes g (x.judge node) := by
  refine .get_bind (fun s => by simp only [hg.isVisited]) fun s => ?_
  split
  · refine .get_bind (fun s => by simp only [repetition?_unseen hg]) fun s => ?_
    refine (Commutes.lift _).bind fun _ diagnostic _ _ => ?_
    refine (Commutes.modify fun s => ?_).bind fun _ _ _ _ => .pure _
    have hnote := hg.note s s.macroTokens diagnostic.toList
    nth_rewrite 1 [← hg.macroTokens s] at hnote
    exact hnote
  · refine (Commutes.modify fun s => hg.markVisited s _ _).bind fun _ _ _ _ => ?_
    refine (rememberTokens_unseen hg).bind fun _ _ _ _ =>
      (Commutes.lift _).bind fun _ accepted _ _ => ?_
    split
    · exact (Commutes.modify fun s => hg.enqueue s _ _).bind fun _ _ _ _ => .pure _
    · exact .pure _

theorem offer_unseen (hg : Session.Unseen g) : Commutes g (x.offer node) := by
  have hrecord : ∀ verdict, Commutes g (do
      modify (·.record (.offered node verdict))
      return verdict : SurveyM Verdict) := fun verdict =>
    (Commutes.modify fun s => hg.record s _).bind fun _ _ _ _ => .pure _
  unfold offer
  split
  · exact (judge_unseen hg).bind fun _ verdict _ _ => hrecord verdict
  · exact (Commutes.pure _).bind fun _ verdict _ _ => hrecord verdict

private theorem Routine.unseen {T : VisitNode → Prop} {α : Type} {m : SurveyM α}
    (hm : x.Routine T m) (hg : Session.Unseen g) : Commutes g m := by
  induction hm with
  | pure a => exact .pure a
  | lift r => exact .lift r
  | offer source => exact offer_unseen hg
  | describe use => exact .modify fun s => hg.record s _
  | takeUp allowed => exact .modify fun s => hg.record s _
  | bind _ _ first next => exact first.bind next

private theorem finish_unseen (hg : Session.Unseen g) : Commutes g (x.finish node) := by
  have hall : x.Unflattened node ∨ ∀ _ : VisitNode, True := Or.inr fun _ => trivial
  obtain ⟨rest, hfinish, hrest⟩ := finish_routine (x := x) (T := fun _ => True) hall
  rw [hfinish]
  exact (Commutes.modify fun s => hg.record s _).bind fun _ _ _ _ => hrest.unseen hg

theorem onSession_unseen {α : Type} {m : SurveyM α} (h : Commutes g m) :
    Commutes (Progress.change g) (onSession m) := by
  intro p
  have hsession : m (p.change g).session = _ := h p.session
  rw [onSession, hsession]
  rfl

theorem complete_unseen (hg : Session.Unseen g) :
    Commutes (Progress.change g) (x.complete node) := by
  refine (onSession_unseen ?_).bind fun _ _ _ _ => .modify fun _ => rfl
  refine (finish_unseen hg).bind fun _ result _ _ => ?_
  exact (Commutes.modify fun s => hg.record s _).bind fun _ _ _ _ => .pure _

end Context
end HeaderSurvey
