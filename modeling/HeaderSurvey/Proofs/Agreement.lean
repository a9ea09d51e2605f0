import HeaderSurvey.Proofs.Drain
import HeaderSurvey.Proofs.Footprint

/-! What is finished agrees with what waited, in every survey and however it ends: each node that is
taken up was accepted before, and its result has its kind and its name. So an alias that waits as an
alias never turns out to stand for a type that is taken in its place, and behind a function pointer
there is a function. -/
namespace HeaderSurvey

namespace Context

variable {x : Context} {node : VisitNode} {s t : Session} {e : SurveyError}

/-- A `judge` that fails leaves the journal and the queues as they are; it may have reserved a
name. -/
theorem judge_fails (h : Fails (x.judge node) s e t) :
    t.journal = s.journal ∧ ∀ c, (t.frontier c).queue = (s.frontier c).queue := by
  simp only [judge, fails_bind, not_fails_get, returns_get, false_or] at h
  obtain ⟨_, _, ⟨rfl, rfl⟩, h⟩ := h
  split at h
  · simp only [fails_bind, not_fails_get, returns_get, fails_lift, not_fails_modify, not_fails_pure,
      false_or, and_false, exists_false, or_false] at h
    obtain ⟨_, _, ⟨rfl, rfl⟩, -, rfl⟩ := h
    exact ⟨rfl, fun _ => rfl⟩
  · have hmarked : ∀ c, ((s.markVisited node.category node.key).frontier c).queue =
        (s.frontier c).queue := by
      intro c
      rw [Session.frontier_markVisited]
      split
      · next hc => rw [hc]
      · rfl
    simp only [fails_bind, not_fails_modify, returns_modify, fails_lift, returns_lift,
      false_or] at h
    obtain ⟨_, _, rfl, hremember | ⟨_, s', hremember, ⟨-, rfl⟩ | ⟨accepted, _, -, h⟩⟩⟩ := h
    · unfold rememberTokens at hremember
      split at hremember
      · simp only [fails_bind, fails_lift, returns_lift, not_fails_modify, and_false, exists_false,
          or_false] at hremember
        obtain ⟨-, rfl⟩ := hremember
        exact ⟨Session.journal_markVisited _ _, hmarked⟩
      · exact absurd hremember not_fails_pure
    · obtain ⟨hfrontier, hjournal⟩ := rememberTokens_returns hremember
      refine ⟨hjournal.trans (Session.journal_markVisited _ _), ?_⟩
      intro c
      rw [hfrontier]
      exact hmarked c
    · split at h
      · simp only [fails_bind, not_fails_modify, not_fails_pure, and_false, exists_false,
          or_false] at h
      · exact absurd h not_fails_pure

private theorem offer_fails (h : Fails (x.offer node) s e t) :
    t.journal = s.journal ∧ ∀ c, (t.frontier c).queue = (s.frontier c).queue := by
  unfold offer at h
  split at h
  · simp only [fails_bind, not_fails_modify, not_fails_pure, and_false, exists_false, or_false] at h
    exact judge_fails h
  · simp only [fails_bind, not_fails_modify, not_fails_pure, and_false, exists_false, or_false] at h

end Context

/-- Where the nodes of a session come from: each one that waits or was taken up was accepted before,
and so were those of `pending`. Results have the kind and the name of their nodes. -/
structure Traced (x : Context) (pending : List VisitNode) (s : Session) : Prop where
  found : ∀ o ∈ s.offers, x.Discovered o.1
  pending : ∀ node ∈ pending, (node, .accepted) ∈ s.offers
  waiting : ∀ c, ∀ node ∈ (s.frontier c).queue, (node, .accepted) ∈ s.offers
  handled : ∀ node ∈ s.handled, (node, .accepted) ∈ s.offers
  results : ∀ e ∈ s.results, (e.1, .accepted) ∈ s.offers ∧ e.2.kind = e.1.kind ∧ e.2.name = e.1.name

namespace Traced

variable {x : Context} {pending : List VisitNode} {s t : Session} {node : VisitNode}

theorem of_same (h : Traced x pending s) (hjournal : t.journal = s.journal)
    (hqueue : ∀ c, (t.frontier c).queue = (s.frontier c).queue) : Traced x pending t := by
  have hhistory : t.history = s.history := by rw [Session.history, Session.history, hjournal]
  constructor
  all_goals
    simp only [Session.offers, Session.handled, Session.results, hhistory, hqueue]
  · exact h.found
  · exact h.pending
  · exact h.waiting
  · exact h.handled
  · exact h.results

private theorem of_offers {verdict : Verdict} (h : Traced x pending s) (source : x.Discovered node)
    (ho : x.Offers node verdict s t) : Traced x pending t := by
  have hoffers : t.offers = s.offers ++ [(node, verdict)] := Session.filterMap_history _ ho.journal
  have hhandled : t.handled = s.handled :=
    (Session.filterMap_history _ ho.journal).trans (List.append_nil _)
  have hresults : t.results = s.results :=
    (Session.filterMap_history _ ho.journal).trans (List.append_nil _)
  have hkept : ∀ o ∈ s.offers, o ∈ t.offers := by
    intro o hmem
    rw [hoffers]
    exact List.mem_append_left _ hmem
  constructor
  · intro o hmem
    rw [hoffers] at hmem
    rcases List.mem_append.1 hmem with hold | hnew
    · exact h.found o hold
    · rw [List.mem_singleton.1 hnew]
      exact source
  · intro other hother
    exact hkept _ (h.pending other hother)
  · intro c other hother
    rw [ho.queue] at hother
    rcases List.mem_append.1 hother with hold | hnew
    · exact hkept _ (h.waiting c other hold)
    · split at hnew
      · next hnow =>
        rw [List.mem_singleton.1 hnew, hoffers, ← hnow.2]
        exact List.mem_append_right _ List.mem_cons_self
      · cases hnew
  · intro other hother
    rw [hhandled] at hother
    exact hkept _ (h.handled other hother)
  · intro e he
    rw [hresults] at he
    exact ⟨hkept _ (h.results e he).1, (h.results e he).2⟩

/-- `Traced` is an invariant of `offer` for a discovered node, whether it returns or fails. -/
theorem offer_keeps (source : x.Discovered node) : Keeps (Traced x pending) (x.offer node) := by
  intro s hs
  rcases returns_or_fails (x.offer node) s with ⟨verdict, t, h⟩ | ⟨e, t, h⟩
  · rw [show x.offer node s = (.ok verdict, t) from h]
    exact hs.of_offers source (Context.offer_returns h)
  · rw [show x.offer node s = (.error e, t) from h]
    obtain ⟨hjournal, hqueue⟩ := Context.offer_fails h
    exact hs.of_same hjournal hqueue

theorem record {e : Event} (h : Traced x pending s) (he : e.offer? = none)
    (hhandled : ∀ node ∈ e.handled?, (node, .accepted) ∈ s.offers)
    (hresult : ∀ r ∈ e.result?, (r.1, .accepted) ∈ s.offers ∧ r.2.kind = r.1.kind ∧
      r.2.name = r.1.name) :
    Traced x pending (s.record e) := by
  have hoffers : (s.record e).offers = s.offers := by
    rw [Session.offers_record, he]
    exact List.append_nil _
  constructor
  · rw [hoffers]
    exact h.found
  · rw [hoffers]
    exact h.pending
  · intro c
    rw [hoffers, Session.frontier_record]
    exact h.waiting c
  · intro other hother
    rw [Session.handled_record] at hother
    rw [hoffers]
    rcases List.mem_append.1 hother with hold | hnew
    · exact h.handled other hold
    · exact hhandled other (Option.mem_toList.1 hnew)
  · intro r hr
    rw [Session.results_record] at hr
    rw [hoffers]
    rcases List.mem_append.1 hr with hold | hnew
    · exact h.results r hold
    · exact hresult r (Option.mem_toList.1 hnew)

private theorem upholds : x.Upholds (Traced x pending) where
  offer _ hother := offer_keeps (Or.inl hother)
  describe _ _ hs := hs.record rfl (by simp [Event.handled?]) (by simp [Event.result?])

theorem discovered (h : Traced x pending s) (hnode : (node, .accepted) ∈ s.offers) :
    x.Discovered node :=
  h.found _ hnode

/-- `Traced` is an invariant of `complete` for a pending node, whether it returns or fails. -/
theorem complete_keeps (hnode : node ∈ pending) :
    Keeps (fun p => Traced x pending p.session) (x.complete node) := by
  intro p hp
  have haccepted := hp.pending node hnode
  have hunflattened := (hp.discovered haccepted).unflattened
  have htaken : Traced x pending (p.session.record (.handled node)) := by
    refine hp.record rfl ?_ (by simp [Event.result?])
    intro other hother
    obtain rfl : node = other := by simpa [Event.handled?] using hother
    exact haccepted
  apply Context.complete_leaves
  · exact Context.finish_leaves upholds (Or.inl hunflattened) htaken
  · intro r t hr ht
    have hfinishes := Context.finish_returns hunflattened hr
    refine ht.record rfl (by simp [Event.handled?]) ?_
    intro e he
    obtain rfl : (node, r) = e := by simpa [Event.result?] using he
    exact ⟨ht.pending node hnode, hfinishes.kind, hfinishes.name⟩

theorem take {c : Category} (h : Traced x [] s) :
    Traced x (s.frontier c).queue (s.setFrontier c { s.frontier c with queue := [] }) := by
  have hhistory : (s.setFrontier c { s.frontier c with queue := [] }).history = s.history := by
    rw [Session.history, Session.journal_setFrontier]
    rfl
  constructor
  all_goals
    simp only [Session.offers, Session.handled, Session.results, hhistory]
  · exact h.found
  · exact h.waiting c
  · intro d other hother
    rw [Session.frontier_setFrontier] at hother
    split at hother
    · cases hother
    · exact h.waiting d other hother
  · exact h.handled
  · exact h.results

theorem forget (h : Traced x pending s) : Traced x [] s :=
  { h with pending := by simp }

theorem drain_keeps (c : Category) (rounds : Nat) :
    Keeps (fun p => Traced x [] p.session) (x.drain c rounds) := by
  have htake : Keeps (fun p => Traced x [] p.session) (onSession (Session.take c)) :=
    fun p hp => hp.take.forget
  refine Context.drain_keeps htake (fun p batch q hp htook => ?_) rounds
  obtain ⟨t, ht, rfl⟩ := returns_onSession.1 htook
  obtain ⟨rfl, rfl⟩ := Session.take_returns ht
  have hbatch : Keeps (fun q : Progress => Traced x (p.session.frontier c).queue q.session) _ :=
    Keeps.forM fun node hnode => complete_keeps hnode
  exact (hbatch _ hp.take).forget

theorem runFor_keeps (rounds turns : Nat) :
    Keeps (fun p => Traced x [] p.session) (x.runFor rounds turns) := by
  refine Context.runFor_keeps ?_ (drain_keeps · rounds) turns
  have hscan : Keeps (Traced x []) x.scan :=
    Context.scan_keeps fun _ htop => offer_keeps (Or.inr htop)
  exact fun p hp => hscan p.session hp

theorem initial (x : Context) : Traced x [] {} := by
  constructor
  case waiting =>
    intro c
    cases c <;> simp [Session.frontier]
  all_goals simp [Session.offers, Session.handled, Session.results, Session.history]

end Traced

namespace Context

variable {x : Context} {node : VisitNode}

/-- `pointedFunction` finds a function type wherever `pointsToFunction` holds. -/
theorem pointedFunction_isFunction {pointer : TypeEntry}
    (h : x.unit.pointsToFunction pointer = .ok true) :
    ∃ function, x.pointedFunction pointer = .ok function ∧ function.kind.isFunction = true := by
  simp only [TranslationUnit.pointsToFunction, bind_eq_ok_iff, pure_eq_ok_iff, Bool.or_eq_true] at h
  obtain ⟨t, ht, pointee, hpointee, canonical, hcanonical, h⟩ := h
  by_cases hdirect : pointee.kind.isFunction = true
  · refine ⟨pointee, ?_, hdirect⟩
    simp only [pointedFunction, ht, hpointee, bind, Except.bind, if_pos hdirect]
    rfl
  · have hfunction : canonical.kind.isFunction = true := h.resolve_left hdirect
    -- A function is no attribute, so looking under one more attribute finds nothing new.
    have hplain : canonical.kind ≠ .attributed := by
      intro hattributed
      rw [hattributed] at hfunction
      cases hfunction
    have hunwrapped : x.unit.unwrapAttributed (pointee.canonicalId t) =
        .ok (pointee.canonicalId t) := by
      simp [TranslationUnit.unwrapAttributed, hcanonical, hplain]
    refine ⟨canonical, ?_, hfunction⟩
    simp only [pointedFunction, ht, hpointee, bind, Except.bind, if_neg hdirect, hunwrapped,
      hcanonical]

theorem Discovered.pointedFunction (h : x.Discovered node) (hk : node.kind = .functionPointer) :
    ∃ pointer function, x.unit.typeAt node.type = .ok pointer ∧
      x.pointedFunction pointer = .ok function ∧
      function.kind.isFunction = true := by
  rcases h with ⟨-, candidate, parent, index, container, h⟩ |
    ⟨root, id, c, kind, t, -, -, -, -, htop, -, -, h⟩
  · obtain ⟨referrer, g, ⟨-, rfl⟩ | ⟨-, rfl, -⟩⟩ := (resolve_sound h).sighting
    · cases hk
    · have hclass := g.classifies
      rw [← g.node_kind, hk, ← g.node_type] at hclass
      obtain ⟨pointer, hpointer, -, hpoints⟩ := hclass.pointsToFunction
      obtain ⟨function, hfound, hfunction⟩ := pointedFunction_isFunction hpoints
      exact ⟨pointer, function, hpointer, hfound, hfunction⟩
  · obtain ⟨hkind, -⟩ := visitNode_ok h
    rw [hk] at hkind
    subst hkind
    simpa using topLevelKind?_cases htop

end Context

/-- Finishing agrees with finding: whatever was `handled` had waited, and its result has its kind
and its name. No alias that was taken up leads to a type that would be finished in its place, and a
pointer that was taken up as a `functionPointer` leads to a function. -/
structure Agrees (x : Context) (s : Session) : Prop where
  waited : ∀ node ∈ s.handled, (node, .accepted) ∈ s.offers
  results : ∀ e ∈ s.results, (e.1, .accepted) ∈ s.offers ∧ e.2.kind = e.1.kind ∧ e.2.name = e.1.name
  aliases : ∀ node ∈ s.handled, node.kind = .typeAlias → ∃ cursor kind r,
    x.unit.cursorAt node.cursor = .ok cursor ∧ x.unit.classify cursor.underlyingId = .ok (kind, r) ∧
      kind.isFlattened = false
  functionPointers : ∀ node ∈ s.handled, node.kind = .functionPointer → ∃ pointer function,
    x.unit.typeAt node.type = .ok pointer ∧ x.pointedFunction pointer = .ok function ∧
      function.kind.isFunction = true

private theorem Traced.agrees {x : Context} {pending : List VisitNode} {s : Session}
    (h : Traced x pending s) :
    Agrees x s where
  waited := h.handled
  results := h.results
  aliases node hnode := (h.discovered (h.handled node hnode)).unflattened
  functionPointers node hnode := (h.discovered (h.handled node hnode)).pointedFunction

/-- The session that `runFor` leaves `Agrees` with what was discovered, whether the run returns or
fails, for all `rounds` and `turns`. -/
theorem runFor_agrees {s : Settings} {u : TranslationUnit} {x : Context} {start : Progress}
    (h : beginSurvey s u = .ok (x, start)) :
    ∀ rounds turns, Agrees x (x.runFor rounds turns start).2.session := by
  have hstart : Traced x [] start.session := by
    obtain ⟨_, _, -, -, -, rfl⟩ := beginSurvey_eq_ok h
    exact Traced.initial x
  intro rounds turns
  exact (Traced.runFor_keeps rounds turns start hstart).agrees

/-- A function of a number under another name and of a callback whose function type has an
attribute. -/
def callbackUnit : TranslationUnit :=
  { filePath := "watch.h"
    target := { triple := "x86_64-unknown-linux-gnu", pointerBits := 64 }
    cursors := #[
      { kind := .translationUnit, spelling := "watch.h", children := [2, 3, 4] },
      { kind := .noDeclFound },
      { kind := .typedefDecl, spelling := "count_t", type := 2, underlying := some 1 },
      { kind := .typedefDecl, spelling := "handler_t", type := 6, underlying := some 5 },
      { kind := .functionDecl, spelling := "watch", type := 7, linkage := .external,
        children := [5, 6] },
      { kind := .parmDecl, spelling := "n", type := 2 },
      { kind := .parmDecl, spelling := "h", type := 6 }]
    types := #[
      { kind := .invalid },
      { kind := .int, spelling := "int", size := 4, align := 4 },
      { kind := .typedef, spelling := "count_t", declaration := some 2, size := 4, align := 4 },
      { kind := .functionProto, spelling := "int (int)", result := some 1, arguments := [1] },
      { kind := .attributed, spelling := "int (int)", modified := some 3, canonical := some 3 },
      { kind := .pointer, spelling := "int (*)(int)", pointee := some 4, size := 8, align := 8 },
      { kind := .typedef, spelling := "handler_t", declaration := some 3, size := 8, align := 8 },
      { kind := .functionProto, spelling := "int (count_t, handler_t)", result := some 1,
        arguments := [2, 6] }] }

theorem runFor_callbackUnit_agrees : ∃ x start, beginSurvey {} callbackUnit = .ok (x, start) ∧
    (∃ e ∈ (x.runFor 8 2 start).2.session.results, e.2.kind = .typeAlias ∧ e.2.name = "count_t") ∧
    (∃ e ∈ (x.runFor 8 2 start).2.session.results, e.2.kind = .functionPointer ∧
      e.2.name = "handler_t") ∧
    Agrees x (x.runFor 8 2 start).2.session := by
  have hok : (beginSurvey {} callbackUnit).toOption.any (fun r =>
      (r.1.runFor 8 2 r.2).2.session.results.any
        (fun e => e.2.kind = .typeAlias ∧ e.2.name = "count_t") ∧
      (r.1.runFor 8 2 r.2).2.session.results.any
        (fun e => e.2.kind = .functionPointer ∧ e.2.name = "handler_t")) = true := by
    decide +kernel
  obtain ⟨⟨x, start⟩, hbegin, hok⟩ := toOption_any_iff.1 hok
  obtain ⟨halias, hpointer⟩ := of_decide_eq_true hok
  refine ⟨x, start, hbegin, ?_, ?_, runFor_agrees hbegin 8 2⟩
  · simpa using halias
  · simpa using hpointer

end HeaderSurvey
