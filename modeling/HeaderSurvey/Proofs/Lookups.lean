import HeaderSurvey.Proofs.Footprint
import HeaderSurvey.Proofs.Termination

/-! A survey of a valid unit stays inside its arenas: no look-up fails, however long the survey goes
on and whether or not it succeeds, and the nodes that wait or were offered are in range at any
time. -/
namespace HeaderSurvey

/-- The nodes that wait or were offered are `InRange`. -/
structure Session.Within (u : TranslationUnit) (s : Session) : Prop where
  queued : ∀ c, ∀ node ∈ (s.frontier c).queue, node.InRange u
  offered : ∀ o ∈ s.offers, o.1.InRange u

theorem Session.offers_eq {s t : Session} (h : t.journal = s.journal) : t.offers = s.offers := by
  rw [offers, offers, history, history, h]

/-- Discovered nodes are in range, so `Session.Within` stands whatever is done for them. -/
theorem Session.within_stands (x : Context) : Stands x.Discovered (Session.Within x.unit) := by
  intro s t htouch hs
  cases htouch with
  | @reserve node s source =>
    refine ⟨fun c other hother => hs.queued c other ?_, ?_⟩
    · rw [frontier_markVisited] at hother
      split at hother
      · next hc => exact hc ▸ hother
      · exact hother
    · rw [offers_eq (journal_markVisited ..)]
      exact hs.offered
  | @enqueue node s source =>
    refine ⟨fun c other hother => ?_, ?_⟩
    · rw [frontier_enqueue] at hother
      split at hother
      · next hc =>
        rcases List.mem_append.1 hother with hold | hnew
        · exact hs.queued c other (hc ▸ hold)
        · rw [List.mem_singleton.1 hnew]
          exact source.inRange
      · exact hs.queued c other hother
    · rw [offers_eq (journal_enqueue ..)]
      exact hs.offered
  | note same =>
    refine ⟨fun c other hother => hs.queued c other (same.1 c ▸ hother), ?_⟩
    rw [offers_eq same.2]
    exact hs.offered
  | @record s e source =>
    refine ⟨fun c other hother => hs.queued c other (frontier_record e c ▸ hother), fun o ho => ?_⟩
    rw [offers_record] at ho
    rcases List.mem_append.1 ho with hold | hnew
    · exact hs.offered o hold
    · cases e with
      | offered node verdict =>
        rw [List.mem_singleton.1 hnew]
        exact (source node verdict rfl).inRange
      | described | handled | finished => cases hnew

theorem Session.Within.taken {u : TranslationUnit} {s : Session} (h : s.Within u) (c : Category) :
    (s.setFrontier c { s.frontier c with queue := [] }).Within u := by
  refine ⟨fun d node hnode => ?_, ?_⟩
  · rw [frontier_setFrontier] at hnode
    split at hnode
    · cases hnode
    · exact h.queued d node hnode
  · rw [offers_eq (journal_setFrontier ..)]
    exact h.offered

namespace Context

variable {x : Context} {rank : TypeId → Nat} {p : Progress}

/-! ## Whether or not it succeeds -/

abbrev Sheltered (x : Context) (p : Progress) : Prop := p.session.Within x.unit

private theorem complete_sheltered (x : Context) (node : VisitNode) :
    Keeps x.Sheltered (x.complete node) := by
  have hstands := (Session.within_stands x).mono fun _ => Or.inl
  intro p hp
  refine complete_leaves ?_ fun r t _ ht => hstands.record rfl t ht
  exact finish_keeps (upholds_of_stands hstands) (fun _ => hstands.record rfl) _ hp

theorem take_sheltered (x : Context) (c : Category) :
    Keeps x.Sheltered (onSession (Session.take c)) :=
  fun _ hp => hp.taken c

theorem drain_sheltered (x : Context) (c : Category) (rounds : Nat) :
    Keeps x.Sheltered (x.drain c rounds) := by
  refine drain_keeps (x.take_sheltered c) (fun p batch q hp htook => ?_) rounds
  exact (Keeps.forM fun node _ => x.complete_sheltered node) q
    ((x.take_sheltered c).returns htook hp)

private theorem scan_sheltered (x : Context) : Keeps x.Sheltered (onSession x.scan) := by
  have hscan := scan_keeps fun _ hnode => offer_keeps (Session.within_stands x) (Or.inr hnode)
  exact fun p hp => hscan p.session hp

/-! ## No look-up fails -/

theorem drain_inside (h : x.unit.Ranked rank) (c : Category) (rounds : Nat) (hp : x.Sheltered p) :
    TameStep False (x.drain c rounds) p := by
  induction rounds generalizing p with
  | zero =>
    intro e q hf
    obtain ⟨rfl, -⟩ := fails_throw.1 hf
    exact ⟨by simp, False.elim⟩
  | succ rounds ih =>
    have htake : TameStep False (onSession (Session.take c)) p :=
      .onSession (OnlyFails.get.bind fun _ _ _ => (OnlyFails.set _).bind fun _ _ _ => .pure _)
    refine htake.bind fun batch p' hp' => ?_
    have hsheltered := (x.take_sheltered c).returns hp' hp
    have hbatch : ∀ node ∈ batch, node.InRange x.unit := by
      obtain ⟨t, ht, -⟩ := returns_onSession.1 hp'
      rw [(Session.take_returns ht).1]
      exact hp.queued c
    split
    · exact .pure _
    · have hcomplete : TameStep False (batch.forM x.complete) p' :=
        .forM fun node hnode _ => x.complete_tame h False.elim (hbatch node hnode)
      refine hcomplete.bind fun _ p'' hp'' => ih ?_
      exact (Keeps.forM fun node _ => x.complete_sheltered node).returns hp'' hsheltered

private theorem alternateFor_inside (h : x.unit.Ranked rank) (rounds turns : Nat)
    (hp : x.Sheltered p) :
    TameStep False (x.alternateFor rounds turns) p := by
  induction turns generalizing p with
  | zero =>
    intro e q hf
    obtain ⟨rfl, -⟩ := fails_throw.1 hf
    exact ⟨by simp, False.elim⟩
  | succ turns ih =>
    refine OnlyFails.get.bind fun _ p' hget => ?_
    obtain ⟨-, rfl⟩ := returns_get.1 hget
    split
    · exact .pure _
    · refine (drain_inside h .functions rounds hp).bind fun _ p₁ h₁ => ?_
      have hp₁ := (x.drain_sheltered .functions rounds).returns h₁ hp
      refine (drain_inside h .types rounds hp₁).bind fun _ p₂ h₂ => ?_
      exact ih ((x.drain_sheltered .types rounds).returns h₂ hp₁)

private theorem runFor_inside (h : x.unit.Ranked rank) (rounds turns : Nat) (hp : x.Sheltered p) :
    TameStep False (x.runFor rounds turns) p := by
  refine (OnlyFails.onSession (scan_tame h)).bind fun _ p₁ h₁ => ?_
  have hp₁ := x.scan_sheltered.returns h₁ hp
  refine (drain_inside h .macros rounds hp₁).bind fun _ p₂ h₂ => ?_
  have hp₂ := (x.drain_sheltered .macros rounds).returns h₂ hp₁
  refine (drain_inside h .globals rounds hp₂).bind fun _ p₃ h₃ => ?_
  exact alternateFor_inside h rounds turns ((x.drain_sheltered .globals rounds).returns h₃ hp₂)

/-- A survey from `start` looks up nothing outside the unit. -/
structure Inside (x : Context) (start : Progress) : Prop where
  /-- No run fails by a look-up, however many rounds and turns it is given. -/
  runs : ∀ rounds turns handle p, ¬ Fails (x.runFor rounds turns) start (.dangling handle) p
  /-- Whether such a run succeeds or fails, the nodes it has offered and those it leaves waiting are
  in range. -/
  nodes : ∀ rounds turns, (x.runFor rounds turns start).2.session.Within x.unit
  /-- A reference is followed inside the unit, over however many aliases. -/
  references : ∀ aliases parent index candidate, candidate < x.unit.types.size → ∀ handle,
    x.resolveWithin parent index aliases candidate none ≠ .error (.dangling handle)
  /-- What a reference leads to is described inside the unit, over however many layers. -/
  uses : ∀ layers parent index candidate node container,
    x.resolve candidate parent index = .ok (node, container) → ∀ handle,
    x.useWithin layers node.kind node.typeName node.type container ≠ .error (.dangling handle)

private theorem inside_of_valid (h : x.unit.Valid) (start : Assembly) :
    x.Inside { assembly := start } := by
  obtain ⟨rank, hranked⟩ := h.exists_ranked
  have hstart : x.Sheltered { assembly := start } := by
    refine ⟨fun c node hnode => ?_, fun o ho => ?_⟩
    · cases c <;> cases hnode
    · cases ho
  refine ⟨?_, ?_, ?_, ?_⟩
  · intro rounds turns handle p hfails
    exact (runFor_inside hranked rounds turns hstart _ p hfails).1 handle rfl
  · exact fun rounds turns =>
      runFor_keeps x.scan_sheltered (x.drain_sheltered · rounds) turns _ hstart
  · intro aliases parent index candidate hcandidate handle herror
    have htame : Tame False (x.resolveWithin parent index aliases candidate none) :=
      resolveWithin_tame hranked False.elim hcandidate (by simp) False.elim
    exact (htame _ herror).1 handle rfl
  · intro layers parent index candidate node container hresolve handle herror
    have hsound := resolve_sound hresolve
    have htame : Tame False (x.useWithin layers node.kind node.typeName node.type container) :=
      useWithin_tame hranked False.elim hsound.inRange.type hsound.container_lt False.elim
        False.elim
    exact (htame _ herror).1 handle rfl

end Context

/-- Whatever the settings, `surveyFor` does not fail with `SurveyError.dangling` on a unit with no
`fault?`, however many rounds and turns it is allowed, and each run of it is `Context.Inside` the
unit. -/
theorem surveyFor_inside (s : Settings) {u : TranslationUnit} (hvalid : u.fault? = none) :
    (∀ rounds turns handle, surveyFor rounds turns s u ≠ .error (.dangling handle)) ∧
      ∀ x start, beginSurvey s u = .ok (x, start) → x.Inside start := by
  have hinside : ∀ x start, beginSurvey s u = .ok (x, start) → x.Inside start := by
    intro x start hbegin
    obtain ⟨requested, actual, -, -, rfl, rfl⟩ := beginSurvey_eq_ok hbegin
    exact Context.inside_of_valid (TranslationUnit.valid_of_fault? hvalid) _
  refine ⟨fun rounds turns handle herror => ?_, hinside⟩
  rcases surveyFor_eq_error herror with hbegin | ⟨x, start, p, hbegin, hfails⟩
  · have htame : Tame False (beginSurvey s u) := beginSurvey_tame s u
    exact (htame _ hbegin).1 handle rfl
  · exact (hinside x start hbegin).runs rounds turns handle p hfails

theorem surveyFor_listUnit_inside : listUnit.fault? = none ∧
    (∀ rounds turns handle, surveyFor rounds turns {} listUnit ≠ .error (.dangling handle)) ∧
    ∃ x start, beginSurvey {} listUnit = .ok (x, start) ∧ x.Inside start := by
  have hvalid : listUnit.fault? = none := by decide +kernel
  have hok : (beginSurvey {} listUnit).toOption.any (fun _ => true) = true := by decide +kernel
  obtain ⟨⟨x, start⟩, hbegin, -⟩ := toOption_any_iff.1 hok
  obtain ⟨hsurvey, hinside⟩ := surveyFor_inside {} hvalid
  exact ⟨hvalid, hsurvey, x, start, hbegin, hinside x start hbegin⟩

end HeaderSurvey
