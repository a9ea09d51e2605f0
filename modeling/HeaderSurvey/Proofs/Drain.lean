import HeaderSurvey.Proofs.Ledger

/-! A whole survey, from the scan of the top level to the last round: its books balance all along,
the snapshot is put together from the results in their order, and in the end nothing waits. -/
namespace HeaderSurvey

@[simp] theorem returns_onSession {α : Type} {m : SurveyM α} {p q : Progress} {a : α} :
    Returns (onSession m) p a q ↔ ∃ t, Returns m p.session a t ∧ { p with session := t } = q := by
  change ((m p.session).1, { p with session := (m p.session).2 }) = ((.ok a, q) : _ × Progress) ↔
    ∃ t, m p.session = (.ok a, t) ∧ _
  constructor
  · intro h
    obtain ⟨h₁, h₂⟩ := Prod.mk.inj h
    exact ⟨(m p.session).2, Prod.ext h₁ rfl, h₂⟩
  · rintro ⟨t, h, rfl⟩
    rw [h]

/-- What `runFor` does to the session after the `scan`, step by step. -/
inductive Context.Advances (x : Context) (s : Session) : Session → Prop where
  | grow {t : Session} (step : x.Grows x.Referenced s t) : Advances x s t
  | note {e : Event} (other : e.offer? = none) : Advances x s (s.record e)
  | take (c : Category) : Advances x s (s.setFrontier c { s.frontier c with queue := [] })

/-- From `s` to `t` only nodes of that sort were offered. -/
def OffersOnly (P : VisitNode → Prop) (s t : Session) : Prop :=
  ∃ later, t.offers = s.offers ++ later ∧ ∀ o ∈ later, P o.1

theorem OffersOnly.of_eq {P : VisitNode → Prop} {s t : Session} (h : t.offers = s.offers) :
    OffersOnly P s t := ⟨[], by rw [h, List.append_nil], by simp⟩

theorem OffersOnly.of_run {P : VisitNode → Prop} {R : Session → Session → Prop} {s t : Session}
    (hR : ∀ s t, R s t → OffersOnly P s t) (h : Relation.ReflTransGen R s t) :
    OffersOnly P s t := by
  refine keeps_run (Q := OffersOnly P s) (fun t t' hstep ht => ?_) h (.of_eq rfl)
  obtain ⟨first, hfirst, hP⟩ := ht
  obtain ⟨second, hsecond, hP'⟩ := hR t t' hstep
  refine ⟨first ++ second, by rw [hsecond, hfirst, List.append_assoc], ?_⟩
  intro o ho
  exact (List.mem_append.1 ho).elim (hP o) (hP' o)

namespace Context

variable {x : Context} {s t : Session}

theorem Grows.offersOnly {P : VisitNode → Prop} (h : x.Grows P s t) : OffersOnly P s t := by
  cases h with
  | @offer node verdict _ _ source offered =>
    refine ⟨[(node, verdict)], Session.filterMap_history _ offered.journal, ?_⟩
    intro o ho
    rw [List.mem_singleton.1 ho]
    exact source
  | describe pictured known => exact .of_eq ((Session.offers_record s _).trans (List.append_nil _))

theorem Advances.offersOnly (h : x.Advances s t) : OffersOnly x.Referenced s t := by
  cases h with
  | grow step => exact step.offersOnly
  | note other =>
    refine .of_eq ?_
    rw [Session.offers_record, other]
    exact List.append_nil _
  | take c =>
    refine .of_eq ?_
    rw [Session.offers, Session.offers, Session.history, Session.history,
      Session.journal_setFrontier]

/-- `Grows` adds only `offered` and `described` events to the history. -/
theorem filterMap_grow {P : VisitNode → Prop} {α : Type} {f : Event → Option α}
    (hoffer : ∀ node verdict, f (.offered node verdict) = none)
    (huse : ∀ use, f (.described use) = none) (h : Relation.ReflTransGen (x.Grows P) s t) :
    t.history.filterMap f = s.history.filterMap f := by
  refine keeps_run (Q := fun t => t.history.filterMap f = s.history.filterMap f)
    (fun s' t hstep hs => ?_) h rfl
  cases hstep with
  | offer source offered =>
    rw [Session.filterMap_history f offered.journal, hoffer]
    exact (List.append_nil _).trans hs
  | @describe node use _ pictured known =>
    rw [Session.filterMap_history f (s := s') (e := .described use) rfl, huse]
    exact (List.append_nil _).trans hs

theorem results_grow {P : VisitNode → Prop} (h : Relation.ReflTransGen (x.Grows P) s t) :
    t.results = s.results := filterMap_grow (fun _ _ => rfl) (fun _ => rfl) h

private theorem handled_grow {P : VisitNode → Prop} (h : Relation.ReflTransGen (x.Grows P) s t) :
    t.handled = s.handled := filterMap_grow (fun _ _ => rfl) (fun _ => rfl) h

/-- `Advances` offers nodes of the category `types` only, so an empty queue of another category
stays empty. -/
theorem queue_advance {c : Category} (hc : c ≠ .types) (h : Relation.ReflTransGen x.Advances s t)
    (hs : (s.frontier c).queue = []) : (t.frontier c).queue = [] := by
  refine keeps_run (Q := fun t => (t.frontier c).queue = []) (fun s t hstep hs => ?_) h hs
  cases hstep with
  | grow step =>
    cases step with
    | offer source offered => simp [offered.queue, hs, source.category, hc]
    | describe pictured known => rwa [Session.frontier_record]
  | note other => rwa [Session.frontier_record]
  | take d =>
    rw [Session.frontier_setFrontier]
    split_ifs
    · rfl
    · exact hs

end Context

/-- A survey with balanced books, some way after `origin`, whose snapshot holds the results so
far. -/
structure Steady (x : Context) (start : Assembly) (origin : Session) (pending : List VisitNode)
    (p : Progress) : Prop where
  ledger : Ledger x pending [] p.session
  reached : Relation.ReflTransGen x.Advances origin p.session
  assembled : p.assembly = (p.session.results.map (·.2)).foldl Assembly.add start
  made : ∀ e ∈ p.session.results, ∃ s t, Returns (x.finish e.1) s e.2 t

private theorem Context.complete_returns {x : Context} {node : VisitNode} {p q : Progress}
    {u : PUnit} (h : Returns (x.complete node) p u q) :
    ∃ r t, Returns (x.finish node) p.session r t ∧
      q = { session := t.record (.finished node r), assembly := p.assembly.add r } := by
  simp only [complete, returns_bind, returns_onSession, returns_modify, returns_pure] at h
  obtain ⟨r, _, ⟨_, ⟨r', t, hfinish, _, _, rfl, rfl, rfl⟩, rfl⟩, rfl⟩ := h
  exact ⟨r', t, hfinish, rfl⟩

theorem Context.drain_empties {x : Context} {c : Category} {rounds : Nat} {p q : Progress}
    {u : PUnit} (h : Returns (x.drain c rounds) p u q) : (q.session.frontier c).queue = [] := by
  induction rounds generalizing p with
  | zero => exact absurd h not_returns_throw
  | succ rounds ih =>
    obtain ⟨batch, p', htake, h⟩ := returns_bind.1 h
    split at h
    · obtain ⟨-, rfl⟩ := returns_pure.1 h
      obtain ⟨t, ht, rfl⟩ := returns_onSession.1 htake
      obtain ⟨-, rfl⟩ := Session.take_returns ht
      rw [Session.frontier_setFrontier, if_pos rfl]
    · obtain ⟨_, p'', -, hrest⟩ := returns_bind.1 h
      exact ih hrest

theorem Ledger.discovered {x : Context} {pending current : List VisitNode} {s : Session}
    (h : Ledger x pending current s) {node : VisitNode} (hnode : node ∈ pending) :
    x.Discovered node := by
  have hmem : node ∈ s.accepted node.category := by
    rw [h.balance]
    simp [hnode]
  exact h.found _ (Ledger.mem_accepted hmem).1

namespace Steady

variable {x : Context} {start : Assembly} {origin : Session} {pending : List VisitNode}
  {p q : Progress} {node : VisitNode} {u : PUnit}

/-- `reached` counted from the present session. -/
theorem rebase (h : Steady x start origin pending p) : Steady x start p.session pending p :=
  { h with reached := .refl }

theorem complete (h : Steady x start origin (node :: pending) p)
    (hc : Returns (x.complete node) p u q) :
    Steady x start origin pending q ∧ q.session.handled = p.session.handled ++ [node] := by
  obtain ⟨r, t, hfinish, rfl⟩ := Context.complete_returns hc
  have hf := Context.finish_returns (h.ledger.discovered List.mem_cons_self).unflattened hfinish
  have hledger := h.ledger.handle.grow (fun _ => Or.inl) hf.unfolds
  have hresults : t.results = p.session.results :=
    (Context.results_grow hf.unfolds).trans ((Session.results_record _ _).trans (List.append_nil _))
  have hhandled : (t.record (.finished node r)).handled = p.session.handled ++ [node] := by
    rw [Session.handled_record, Context.handled_grow hf.unfolds, Session.handled_record]
    exact List.append_nil _
  refine ⟨⟨hledger.finish hf.kind hf.name fun hv use hu => Session.mem_uses.2 (hf.uses hv use hu),
    ?_, ?_, ?_⟩, hhandled⟩
  · have htaken := h.reached.tail (.note (e := .handled node) rfl)
    exact (htaken.trans (hf.unfolds.lift id fun _ _ => .grow)).tail (.note rfl)
  · rw [Session.results_record, hresults, h.assembled]
    simp [Event.result?]
  · intro e he
    rw [Session.results_record, hresults] at he
    rcases List.mem_append.1 he with hold | hlast
    · exact h.made e hold
    · obtain rfl : e = (node, r) := by simpa [Event.result?] using hlast
      exact ⟨_, _, hfinish⟩

theorem completeAll {batch : List VisitNode} (h : Steady x start origin batch p)
    (hc : Returns (batch.forM x.complete) p u q) :
    Steady x start origin [] q ∧ q.session.handled = p.session.handled ++ batch := by
  induction batch generalizing p with
  | nil =>
    obtain ⟨-, rfl⟩ := returns_pure.1 hc
    exact ⟨h, (List.append_nil _).symm⟩
  | cons node batch ih =>
    obtain ⟨_, p', hnode, hbatch⟩ := returns_bind.1 hc
    obtain ⟨h', hhandled⟩ := h.complete hnode
    obtain ⟨hq, hhandled'⟩ := ih h' hbatch
    exact ⟨hq, by rw [hhandled', hhandled, List.append_assoc]; rfl⟩

theorem take {c : Category} {batch : List VisitNode} (h : Steady x start origin [] p)
    (hq : Returns (onSession (Session.take c)) p batch q) : Steady x start origin batch q := by
  obtain ⟨t, ht, rfl⟩ := returns_onSession.1 hq
  have hledger := (h.ledger.take ht).1
  obtain ⟨rfl, rfl⟩ := Session.take_returns ht
  have hresults : (p.session.setFrontier c { p.session.frontier c with queue := [] }).results =
      p.session.results := by
    rw [Session.results, Session.history, Session.journal_setFrontier]
    rfl
  refine ⟨hledger, h.reached.tail (.take c), ?_, ?_⟩
  · change p.assembly = _
    rw [h.assembled, hresults]
  · intro e he
    exact h.made e (hresults ▸ he)

/-- A round adds its whole batch to `handledIn c`. -/
theorem handledIn_round {c : Category} {batch : List VisitNode} {p' : Progress}
    (h : Steady x start origin [] p) (htake : Returns (onSession (Session.take c)) p batch p')
    (hc : Returns (batch.forM x.complete) p' u q) :
    (q.session.handledIn c).length = (p.session.handledIn c).length + batch.length := by
  obtain ⟨-, hhandled⟩ := (h.take htake).completeAll hc
  obtain ⟨t, ht, rfl⟩ := returns_onSession.1 htake
  obtain ⟨rfl, rfl⟩ := Session.take_returns ht
  have hbatch : (p.session.frontier c).queue.filter (·.category = c) =
      (p.session.frontier c).queue :=
    List.filter_eq_self.2 fun node hn => decide_eq_true (h.ledger.category_of_queue hn)
  have hsame : (p.session.setFrontier c { p.session.frontier c with queue := [] }).handled =
      p.session.handled := by
    rw [Session.handled, Session.history, Session.journal_setFrontier]
    rfl
  rw [Session.handledIn, hhandled, hsame, List.filter_append, List.length_append, hbatch]
  rfl

/-- `Steady` is an invariant of `Context.drain`. -/
theorem drain {c : Category} {rounds : Nat} (h : Steady x start origin [] p)
    (hd : Returns (x.drain c rounds) p u q) :
    Steady x start origin [] q ∧ (q.session.frontier c).queue = [] := by
  refine ⟨?_, Context.drain_empties hd⟩
  induction rounds generalizing p with
  | zero => exact absurd hd not_returns_throw
  | succ rounds ih =>
    obtain ⟨batch, p', htake, hd⟩ := returns_bind.1 hd
    split at hd
    · next hempty =>
      obtain ⟨-, rfl⟩ := returns_pure.1 hd
      rw [List.isEmpty_iff.1 hempty] at htake
      exact h.take htake
    · obtain ⟨_, p'', hbatch, hrest⟩ := returns_bind.1 hd
      exact ih ((h.take htake).completeAll hbatch).1 hrest

theorem alternateFor {rounds turns : Nat} (h : Steady x start origin [] p)
    (ha : Returns (x.alternateFor rounds turns) p u q) :
    Steady x start origin [] q ∧ q.session.isExhausted = true := by
  induction turns generalizing p with
  | zero => exact absurd ha not_returns_throw
  | succ turns ih =>
    simp only [Context.alternateFor, returns_bind, returns_get] at ha
    obtain ⟨_, _, ⟨rfl, rfl⟩, ha⟩ := ha
    split at ha
    · next hdone =>
      obtain ⟨-, rfl⟩ := returns_pure.1 ha
      exact ⟨h, hdone⟩
    · simp only [returns_bind] at ha
      obtain ⟨_, p₁, hfunctions, _, p₂, htypes, hrest⟩ := ha
      exact ih ((h.drain hfunctions).1.drain htypes).1 hrest

end Steady

theorem Ledger.initial (x : Context) : Ledger x [] [] {} := by
  refine ⟨⟨?_, ?_, ?_, ?_, ?_, ?_⟩, ?_, ?_, rfl, ?_⟩
  · intro c
    exact List.nodup_nil
  · intro c node h
    cases h
  · intro c key _ _
    rfl
  · intro c key _ h
    cases c <;> cases h
  · intro o h
    cases h
  · intro o h
    cases h
  · intro c
    cases c <;> rfl
  · intro use h
    cases h
  · intro e h
    cases h

theorem Context.scan_steady {x : Context} (start : Assembly) {u : PUnit} {t : Session}
    (h : Returns x.scan {} u t) : Steady x start t [] { session := t, assembly := start } := by
  have hgrow := scan_returns h
  have hresults : t.results = [] := results_grow hgrow
  refine ⟨(Ledger.initial x).grow (fun _ => Or.inr) hgrow, .refl, ?_, ?_⟩
  · rw [hresults]
    rfl
  · intro e he
    rw [hresults] at he
    cases he

theorem Session.isExhausted_iff {s : Session} :
    s.isExhausted = true ↔ ∀ c, (s.frontier c).queue = [] := by
  simp only [isExhausted, isQueued, List.all_eq_true, Bool.not_not, List.isEmpty_iff]
  exact ⟨fun h c => h c (by cases c <;> simp [Category.all]), fun h c _ => h c⟩

/-- `runFor` leaves `Steady` books with nothing pending and every queue empty, for all `rounds` and
`turns` with which it returns. -/
theorem Context.runFor_steady {x : Context} {rounds turns : Nat} {start : Assembly} {u : PUnit}
    {q : Progress} (hr : Returns (x.runFor rounds turns) { assembly := start } u q) :
    ∃ t, Returns x.scan {} () t ∧ Steady x start t [] q ∧
      ∀ c, (q.session.frontier c).queue = [] := by
  simp only [runFor, returns_bind] at hr
  obtain ⟨_, p₁, hscan, _, p₂, hmacros, _, p₃, hglobals, hrest⟩ := hr
  obtain ⟨t, hsession, rfl⟩ := returns_onSession.1 hscan
  have hscanned := scan_steady start hsession
  obtain ⟨hsteady, hdone⟩ := ((hscanned.drain hmacros).1.drain hglobals).1.alternateFor hrest
  exact ⟨t, hsession, hsteady, Session.isExhausted_iff.1 hdone⟩

theorem beginSurvey_eq_ok {s : Settings} {u : TranslationUnit} {x : Context} {start : Progress}
    (h : beginSurvey s u = .ok (x, start)) :
    ∃ requested actual, s.platform = .ok requested ∧ u.platform = .ok actual ∧
      x = Context.ofSettings u s actual.pointerBits ∧
      start = { assembly := Assembly.start u.filePath requested actual } := by
  simp only [beginSurvey, bind_eq_ok_iff, pure_eq_ok_iff, Prod.mk.injEq] at h
  obtain ⟨requested, hr, actual, ha, rfl, rfl⟩ := h
  exact ⟨requested, actual, hr, ha, rfl, rfl⟩

theorem surveyFor_eq_ok {rounds turns : Nat} {s : Settings} {u : TranslationUnit} {o : Outcome}
    (h : surveyFor rounds turns s u = .ok o) :
    ∃ x start p, beginSurvey s u = .ok (x, start) ∧ Returns (x.runFor rounds turns) start () p ∧
      o = ⟨p.assembly.snapshot, p.session.diagnostics ++ p.assembly.diagnostics⟩ := by
  simp only [surveyFor, bind_eq_ok_iff] at h
  obtain ⟨⟨x, start⟩, hbegin, h⟩ := h
  split at h
  · cases h
  · next p hrun => exact ⟨x, start, p, hbegin, hrun, (pure_eq_ok_iff.1 h).symm⟩

theorem surveyFor_of_fails {rounds turns : Nat} {s : Settings} {u : TranslationUnit} {x : Context}
    {start q : Progress} {e : SurveyError} (hbegin : beginSurvey s u = .ok (x, start))
    (h : Fails (x.runFor rounds turns) start e q) : surveyFor rounds turns s u = .error e := by
  rw [surveyFor, hbegin]
  simp only [bind, Except.bind, show x.runFor rounds turns start = (.error e, q) from h]

theorem surveyFor_of_returns {rounds turns : Nat} {s : Settings} {u : TranslationUnit} {x : Context}
    {start q : Progress} (hbegin : beginSurvey s u = .ok (x, start))
    (h : Returns (x.runFor rounds turns) start () q) : surveyFor rounds turns s u =
      .ok ⟨q.assembly.snapshot, q.session.diagnostics ++ q.assembly.diagnostics⟩ := by
  rw [surveyFor, hbegin]
  simp only [bind, Except.bind, show x.runFor rounds turns start = (.ok (), q) from h]
  rfl

/-! ## More rounds and turns -/

namespace Context

variable (x : Context) {rounds rounds' turns turns' : Nat}

theorem drain_prolongs (c : Category) (h : rounds ≤ rounds') :
    Prolongs (x.drain c rounds) (x.drain c rounds') := by
  induction rounds generalizing rounds' with
  | zero => exact .throw _
  | succ rounds ih =>
    obtain ⟨rounds', rfl⟩ := Nat.exists_eq_add_of_le' (Nat.le_trans (Nat.le_add_left 1 rounds) h)
    refine (Prolongs.refl _).bind fun batch => ?_
    split
    · exact .refl _
    · exact (Prolongs.refl _).bind fun _ => ih (Nat.le_of_succ_le_succ h)

private theorem alternateFor_prolongs (hrounds : rounds ≤ rounds') (hturns : turns ≤ turns') :
    Prolongs (x.alternateFor rounds turns) (x.alternateFor rounds' turns') := by
  induction turns generalizing turns' with
  | zero => exact .throw _
  | succ turns ih =>
    obtain ⟨turns', rfl⟩ := Nat.exists_eq_add_of_le' (Nat.le_trans (Nat.le_add_left 1 turns) hturns)
    refine (Prolongs.refl _).bind fun p => ?_
    split
    · exact .refl _
    · refine (x.drain_prolongs .functions hrounds).bind fun _ => ?_
      exact (x.drain_prolongs .types hrounds).bind fun _ => ih (Nat.le_of_succ_le_succ hturns)

private theorem runFor_prolongs (hrounds : rounds ≤ rounds') (hturns : turns ≤ turns') :
    Prolongs (x.runFor rounds turns) (x.runFor rounds' turns') := by
  refine (Prolongs.refl _).bind fun _ => (x.drain_prolongs .macros hrounds).bind fun _ => ?_
  exact (x.drain_prolongs .globals hrounds).bind fun _ => x.alternateFor_prolongs hrounds hturns

end Context

/-- An answer of `surveyFor` other than `SurveyError.unending` stays the same with more rounds and
turns. -/
theorem surveyFor_mono {rounds rounds' turns turns' : Nat} {s : Settings} {u : TranslationUnit}
    (hrounds : rounds ≤ rounds') (hturns : turns ≤ turns')
    (h : surveyFor rounds turns s u ≠ .error .unending) :
    surveyFor rounds' turns' s u = surveyFor rounds turns s u := by
  cases hbegin : beginSurvey s u with
  | error e =>
    rw [surveyFor, surveyFor, hbegin]
    rfl
  | ok begun =>
    obtain ⟨x, start⟩ := begun
    rcases x.runFor_prolongs hrounds hturns start with ⟨p, hgiven⟩ | hsame
    · exact absurd (surveyFor_of_fails hbegin hgiven) h
    · rw [surveyFor, surveyFor, hbegin]
      simp only [bind, Except.bind, hsame]

/-- The books of a survey that is over: in each category the `accepted` nodes have been `handled` in
their order and no name twice, each of them once, with a result; and the name in every use of a type
has been offered, with the first offer deciding on it. -/
structure Session.Settled (s : Session) : Prop where
  inOrder : ∀ c, s.handledIn c = s.accepted c
  distinct : ∀ c, ((s.handledIn c).map VisitNode.key).Nodup
  once : ∀ node, (node, .accepted) ∈ s.offers → s.handled.count node = 1 ∧
    ∃ r, (node, r) ∈ s.results
  exhausted : ∀ c, (s.frontier c).queue = []
  decided : ∀ use ∈ s.uses, use.kind ≠ .function → use.name ≠ "" →
    use.name ∈ (s.frontier .types).visited ∧ FirstDecides (s.verdicts .types use.name)

theorem Ledger.settled {x : Context} {s : Session} (h : Ledger x [] [] s)
    (hempty : ∀ c, (s.frontier c).queue = []) : s.Settled := by
  have horder : ∀ c, s.handledIn c = s.accepted c := by
    intro c
    rw [h.balance, hempty]
    simp
  have hdistinct : ∀ c, ((s.handledIn c).map VisitNode.key).Nodup := by
    intro c
    rw [horder]
    exact h.distinct c
  refine ⟨horder, hdistinct, ?_, hempty, ?_⟩
  · intro node hnode
    have hmem : node ∈ s.handledIn node.category := by
      rw [horder]
      exact List.mem_map.2 ⟨_, List.mem_filter.2 ⟨hnode, by simp⟩, rfl⟩
    obtain ⟨hmem', hcategory⟩ := List.mem_filter.1 hmem
    refine ⟨?_, ?_⟩
    · rw [← List.count_filter (p := (·.category = node.category)) hcategory]
      exact List.count_eq_one_of_mem (List.Nodup.of_map _ (hdistinct _)) hmem
    · rw [h.finished, List.append_nil] at hmem'
      obtain ⟨⟨_, r⟩, hr, rfl⟩ := List.mem_map.1 hmem'
      exact ⟨r, hr⟩
  · intro use hu hk hn
    obtain ⟨node, hpictured, hknown⟩ := h.known use hu
    obtain ⟨hname, hkind⟩ := hpictured.name_kind
    rw [hkind] at hk
    rw [hname] at hn ⊢
    have hv := hknown hk
    rw [(hpictured.referenced hk).key_eq hn] at hv
    exact ⟨hv, h.decided .types _ rfl hv⟩

/-- Whatever `rounds` and `turns` allow it, `surveyFor` succeeds only with a session that is
`Session.Settled`: the nodes in its `accepted` offers are those in `handled`, in their order and
once each, with a result in `results`. -/
theorem surveyFor_settled {rounds turns : Nat} {s : Settings} {u : TranslationUnit} {o : Outcome}
    (h : surveyFor rounds turns s u = .ok o) :
    ∃ x start p, beginSurvey s u = .ok (x, start) ∧ Returns (x.runFor rounds turns) start () p ∧
      o = ⟨p.assembly.snapshot, p.session.diagnostics ++ p.assembly.diagnostics⟩ ∧
      p.session.Settled := by
  obtain ⟨x, start, p, hbegin, hrun, ho⟩ := surveyFor_eq_ok h
  obtain ⟨_, _, -, -, -, rfl⟩ := beginSurvey_eq_ok hbegin
  obtain ⟨t, -, hsteady, hempty⟩ := Context.runFor_steady hrun
  exact ⟨x, _, p, hbegin, hrun, ho, hsteady.ledger.settled hempty⟩

/-- A list whose items point to the next one, and a function that gives the next one. -/
def listUnit : TranslationUnit :=
  { filePath := "list.h"
    target := { triple := "x86_64-unknown-linux-gnu", pointerBits := 64 }
    cursors := #[
      { kind := .translationUnit, spelling := "list.h", children := [2, 4] },
      { kind := .noDeclFound },
      { kind := .structDecl, spelling := "item", type := 1, children := [3] },
      { kind := .fieldDecl, spelling := "next", type := 2, offsetBits := 0 },
      { kind := .functionDecl, spelling := "next", type := 3, linkage := .external }]
    types := #[
      { kind := .invalid },
      { kind := .record, spelling := "struct item", declaration := some 2, size := 8, align := 8,
        fields := [3] },
      { kind := .pointer, spelling := "struct item *", pointee := some 1, size := 8, align := 8 },
      { kind := .functionProto, spelling := "struct item *(void)", result := some 2 }] }

theorem surveyFor_listUnit_settled : ∃ o, surveyFor 3 2 {} listUnit = .ok o ∧
    ∃ x start p, beginSurvey {} listUnit = .ok (x, start) ∧ Returns (x.runFor 3 2) start () p ∧
      o = ⟨p.assembly.snapshot, p.session.diagnostics ++ p.assembly.diagnostics⟩ ∧
      p.session.Settled := by
  have hok : (surveyFor 3 2 {} listUnit).toOption.any (fun _ => true) = true := by decide +kernel
  obtain ⟨o, ho, -⟩ := toOption_any_iff.1 hok
  exact ⟨o, ho, surveyFor_settled ho⟩

end HeaderSurvey
