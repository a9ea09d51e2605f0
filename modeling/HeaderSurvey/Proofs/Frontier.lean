import HeaderSurvey.Proofs.Drain
import HeaderSurvey.Proofs.Footprint

/-! What finishing a node does to the rest of a survey: types may turn up, and nothing else changes.
So one turn of functions and types leaves nothing waiting, and after the scan of the top level the
session has nothing more to report. -/
namespace HeaderSurvey

/-- From `s` to `t` types have turned up at most. -/
structure Session.GrowsTypes (s t : Session) : Prop where
  others : ∀ c, c ≠ .types → t.frontier c = s.frontier c
  macroTokens : t.macroTokens = s.macroTokens
  diagnostics : t.diagnostics = s.diagnostics
  visited : (s.frontier .types).visited ⊆ (t.frontier .types).visited
  queue : (s.frontier .types).queue <+: (t.frontier .types).queue

namespace Session.GrowsTypes

variable {s t r : Session}

theorem refl (s : Session) : s.GrowsTypes s :=
  ⟨fun _ _ => rfl, rfl, rfl, fun _ h => h, List.prefix_rfl⟩

theorem trans (h : s.GrowsTypes t) (h' : t.GrowsTypes r) : s.GrowsTypes r where
  others c hc := (h'.others c hc).trans (h.others c hc)
  macroTokens := h'.macroTokens.trans h.macroTokens
  diagnostics := h'.diagnostics.trans h.diagnostics
  visited := List.Subset.trans h.visited h'.visited
  queue := h.queue.trans h'.queue

theorem record (s : Session) (e : Event) : s.GrowsTypes (s.record e) :=
  ⟨fun c _ => s.frontier_record e c, rfl, rfl, fun _ h => h, List.prefix_rfl⟩

theorem markVisited (s : Session) (name : String) : s.GrowsTypes (s.markVisited .types name) := by
  constructor
  case others =>
    intro c hc
    rw [Session.frontier_markVisited, if_neg hc]
  case visited => exact List.subset_cons_self name _
  case queue => exact List.prefix_rfl
  all_goals rfl

theorem enqueue (s : Session) (node : VisitNode) : s.GrowsTypes (s.enqueue .types node) := by
  constructor
  case others =>
    intro c hc
    rw [Session.frontier_enqueue, if_neg hc]
  case visited => exact fun _ h => h
  case queue => exact List.prefix_append _ _
  all_goals rfl

end Session.GrowsTypes

namespace Context

variable {x : Context} {node : VisitNode} {s : Session}

theorem repetition?_types (hc : node.category = .types) : x.repetition? s node = .ok none := by
  unfold repetition?
  rw [show Category.ofKind node.kind = .types from hc]
  rfl

private theorem rememberTokens_types (hc : node.category = .types) :
    x.rememberTokens node = pure () := by
  unfold rememberTokens
  rw [show Category.ofKind node.kind = .types from hc]
  rfl

private theorem judge_growsTypes (hc : node.category = .types) :
    Keeps s.GrowsTypes (x.judge node) := by
  unfold judge
  rw [show Category.ofKind node.kind = .types from hc, rememberTokens_types hc]
  refine Keeps.get.bind fun _ seen _ _ => ?_
  split
  · refine Keeps.get.bind fun _ now _ _ => (Keeps.lift _).bind fun _ diagnostic _ hdiagnostic => ?_
    have hnone : x.repetition? now node = .ok none := repetition?_types hc
    obtain rfl : none = diagnostic :=
      Except.ok.inj (hnone.symm.trans (returns_lift.1 hdiagnostic).1)
    refine Keeps.bind (.modify fun t ht => ?_) fun _ _ _ _ => .pure _
    rw [Option.toList_none, List.append_nil]
    exact ht
  · refine (Keeps.modify fun t ht => ht.trans (.markVisited t node.key)).bind fun _ _ _ _ => ?_
    refine (Keeps.pure _).bind fun _ _ _ _ => (Keeps.lift _).bind fun _ accepted _ _ => ?_
    split
    · exact (Keeps.modify fun t ht => ht.trans (.enqueue t node)).bind fun _ _ _ _ => .pure _
    · exact .pure _

private theorem offer_growsTypes (hc : node.category = .types) :
    Keeps s.GrowsTypes (x.offer node) := by
  unfold offer
  rw [show Category.ofKind node.kind = .types from hc]
  refine (judge_growsTypes hc).bind fun _ verdict _ _ => ?_
  exact (Keeps.modify fun t ht => ht.trans (.record t _)).bind fun _ _ _ _ => .pure _

/-- `finish`, whether it returns or fails, changes the frontier of `types` only. -/
theorem finish_growsTypes (x : Context) (node : VisitNode) (s : Session) :
    s.GrowsTypes (x.finish node s).2 := by
  have hupholds : x.Upholds s.GrowsTypes :=
    ⟨fun other hother => offer_growsTypes hother.category, fun t use ht => ht.trans (.record t _)⟩
  exact finish_keeps hupholds (fun other t ht => ht.trans (.record t _)) s (.refl s)

/-! ## One turn is enough -/

variable {Q : Session → Prop} {c d : Category} {rounds : Nat} {p q : Progress}

/-- An invariant of `Session.GrowsTypes` and of emptying the queue of `c` is one of `drain`. -/
theorem drain_keeps_session (hgrows : ∀ s t, s.GrowsTypes t → Q s → Q t)
    (htaken : ∀ s, Q s → Q (s.setFrontier c { s.frontier c with queue := [] })) (rounds : Nat) :
    Keeps (fun p => Q p.session) (x.drain c rounds) := by
  have htake : Keeps (fun p => Q p.session) (onSession (Session.take c)) := fun p hp => htaken _ hp
  have hcomplete : ∀ node, Keeps (fun p => Q p.session) (x.complete node) := by
    intro node p hp
    apply complete_leaves
    · exact hgrows _ _ (x.finish_growsTypes node p.session) hp
    · intro r t _ ht
      exact hgrows _ _ (.record t _) ht
  refine drain_keeps htake (fun p batch q hp htook => ?_) rounds
  exact (Keeps.forM fun node _ => hcomplete node) q (htake.returns htook hp)

private theorem drain_diagnostics (diagnostics : List Diagnostic) (c : Category) (rounds : Nat) :
    Keeps (fun p => p.session.diagnostics = diagnostics) (x.drain c rounds) := by
  apply drain_keeps_session (Q := fun s => s.diagnostics = diagnostics)
  · intro s t hst hs
    rw [hst.diagnostics, hs]
  · intro s hs
    cases c <;> exact hs

/-- An empty queue of a category other than `types` stays empty in `drain`. -/
theorem drain_idle (hd : d ≠ .types) (c : Category) (rounds : Nat) :
    Keeps (fun p => (p.session.frontier d).queue = []) (x.drain c rounds) := by
  apply drain_keeps_session (Q := fun s => (s.frontier d).queue = [])
  · intro s t hst hs
    rw [hst.others d hd, hs]
  · intro s hs
    rw [Session.frontier_setFrontier]
    split
    · rfl
    · exact hs

/-- `runFor` with one turn at most. -/
def runOnce (x : Context) (rounds : Nat) : RunM Unit := do
  onSession x.scan
  x.drain .macros rounds
  x.drain .globals rounds
  if (← get).session.isExhausted then return ()
  x.drain .functions rounds
  x.drain .types rounds

theorem bind_congr_returns {σ α β : Type} {m : StepM σ α} {f g : α → StepM σ β} {s : σ}
    (h : ∀ a t, Returns m s a t → f a t = g a t) : (m >>= f) s = (m >>= g) s := by
  rcases returns_or_fails m s with ⟨a, t, hm⟩ | ⟨e, t, hm⟩
  · rw [hm.bind_eq, hm.bind_eq]
    exact h a t hm
  · rw [hm.bind_eq, hm.bind_eq]

theorem isExhausted_of_turn {p₁ : Progress} {u v : PUnit}
    (hmacros : (p.session.frontier .macros).queue = [])
    (hglobals : (p.session.frontier .globals).queue = [])
    (h₁ : Returns (x.drain .functions rounds) p u p₁)
    (h₂ : Returns (x.drain .types rounds) p₁ v q) : q.session.isExhausted = true := by
  have hkept : ∀ d, d ≠ .types → (p₁.session.frontier d).queue = [] →
      (q.session.frontier d).queue = [] :=
    fun d hd hidle => (drain_idle hd .types rounds).returns h₂ hidle
  rw [Session.isExhausted_iff]
  intro c
  cases c with
  | macros =>
    exact hkept .macros (by decide) ((drain_idle (by decide) .functions rounds).returns h₁ hmacros)
  | globals =>
    exact hkept .globals (by decide)
      ((drain_idle (by decide) .functions rounds).returns h₁ hglobals)
  | functions => exact hkept .functions (by decide) (drain_empties h₁)
  | types => exact drain_empties h₂

private theorem alternateFor_exhausted {turns : Nat} (h : p.session.isExhausted = true) :
    x.alternateFor rounds (turns + 1) p = (.ok (), p) := by
  have hget : Returns (get : RunM Progress) p p p := returns_get.2 ⟨rfl, rfl⟩
  rw [alternateFor, hget.bind_eq, if_pos h]
  rfl

/-- `alternateFor` takes one turn at most: with two or more allowed, `runFor` is `runOnce`. -/
theorem runFor_eq_runOnce (x : Context) (rounds turns : Nat) :
    x.runFor rounds (turns + 2) = x.runOnce rounds := by
  funext p
  apply bind_congr_returns
  intro _ p₁ _
  apply bind_congr_returns
  intro _ p₂ hmacros
  apply bind_congr_returns
  intro _ p₃ hglobals
  have hidle : (p₃.session.frontier .macros).queue = [] :=
    (drain_idle (by decide) .globals rounds).returns hglobals (drain_empties hmacros)
  apply bind_congr_returns
  intro s p₄ hs
  obtain ⟨rfl, rfl⟩ := returns_get.1 hs
  split
  · rfl
  · apply bind_congr_returns
    intro _ p₅ hfunctions
    -- The turn that would follow finds nothing to do.
    rcases returns_or_fails (x.drain .types rounds) p₅ with ⟨_, p₆, htypes⟩ | ⟨e, p₆, htypes⟩
    · have hdone := isExhausted_of_turn hidle (drain_empties hglobals) hfunctions htypes
      rw [htypes.bind_eq, alternateFor_exhausted hdone]
      exact htypes.symm
    · rw [htypes.bind_eq]
      exact htypes.symm

/-- Only the scan adds to the diagnostics of the session. -/
theorem runFor_diagnostics {turns : Nat} (h : Returns (x.runFor rounds turns) p () q) :
    ∃ t, Returns x.scan p.session () t ∧ q.session.diagnostics = t.diagnostics := by
  obtain ⟨_, p₁, hscan, h⟩ := returns_bind.1 h
  obtain ⟨t, ht, rfl⟩ := returns_onSession.1 hscan
  refine ⟨t, ht, ?_⟩
  have hdrain := drain_diagnostics (x := x) t.diagnostics
  have hrest : Keeps (fun p : Progress => p.session.diagnostics = t.diagnostics) _ :=
    (hdrain .macros rounds).bind fun _ _ _ _ => (hdrain .globals rounds).bind fun _ _ _ _ =>
      alternateFor_keeps (hdrain · rounds) turns
  exact hrest.returns h rfl

end Context

/-- `finish`, whether it returns or fails, changes the frontier of `types` only. So `runFor` with
two turns or more is `runOnce`; and the diagnostics of a `surveyFor` that succeeds are those of
`scan`, followed by those of the assembly. -/
theorem surveyFor_turns :
    (∀ (x : Context) (node : VisitNode) (s : Session), s.GrowsTypes (x.finish node s).2) ∧
    (∀ (x : Context) (rounds turns : Nat), x.runFor rounds (turns + 2) = x.runOnce rounds) ∧
    ∀ (rounds turns : Nat) (s : Settings) (u : TranslationUnit) (o : Outcome),
      surveyFor rounds turns s u = .ok o →
      ∃ x start t p, beginSurvey s u = .ok (x, start) ∧ Returns x.scan start.session () t ∧
        Returns (x.runFor rounds turns) start () p ∧
        o.diagnostics = t.diagnostics ++ p.assembly.diagnostics := by
  refine ⟨Context.finish_growsTypes, Context.runFor_eq_runOnce, ?_⟩
  intro rounds turns s u o ho
  obtain ⟨x, start, p, hbegin, hrun, rfl⟩ := surveyFor_eq_ok ho
  obtain ⟨t, hscan, hdiagnostics⟩ := Context.runFor_diagnostics hrun
  refine ⟨x, start, t, p, hbegin, hscan, hrun, ?_⟩
  rw [hdiagnostics]

/-- A variable that is declared twice, and a function of two structures whose declarations have one
name. -/
def repeatedUnit : TranslationUnit :=
  { filePath := "pair.h"
    target := { triple := "x86_64-unknown-linux-gnu", pointerBits := 64 }
    cursors := #[
      { kind := .translationUnit, spelling := "pair.h", children := [2, 3, 4, 5, 6] },
      { kind := .noDeclFound },
      { kind := .structDecl, spelling := "item", type := 1 },
      { kind := .structDecl, spelling := "item", type := 2 },
      { kind := .varDecl, spelling := "count", type := 3, linkage := .external },
      { kind := .varDecl, spelling := "count", type := 3, linkage := .external },
      { kind := .functionDecl, spelling := "join", type := 4, linkage := .external,
        children := [7, 8] },
      { kind := .parmDecl, spelling := "l", type := 1 },
      { kind := .parmDecl, spelling := "r", type := 2 }]
    types := #[
      { kind := .invalid },
      { kind := .record, spelling := "struct left", declaration := some 2, size := 0, align := 1 },
      { kind := .record, spelling := "struct right", declaration := some 3, size := 0, align := 1 },
      { kind := .int, spelling := "int", size := 4, align := 4 },
      { kind := .functionProto, spelling := "int (struct left, struct right)", result := some 3,
        arguments := [1, 2] }] }

/-- The second declaration is reported by the scan and the second structure by the assembly. -/
theorem surveyFor_repeatedUnit_turns :
    ∃ o, surveyFor 8 2 {} repeatedUnit = .ok o ∧ o.diagnostics.length = 2 ∧
    ∃ x start t p, beginSurvey {} repeatedUnit = .ok (x, start) ∧
      Returns x.scan start.session () t ∧
      Returns (x.runFor 8 2) start () p ∧
      o.diagnostics = t.diagnostics ++ p.assembly.diagnostics := by
  have hok : (surveyFor 8 2 {} repeatedUnit).toOption.any (·.diagnostics.length == 2) = true := by
    decide +kernel
  obtain ⟨o, ho, hok⟩ := toOption_any_iff.1 hok
  exact ⟨o, ho, by simpa using hok, surveyFor_turns.2.2 8 2 {} repeatedUnit o ho⟩

end HeaderSurvey
