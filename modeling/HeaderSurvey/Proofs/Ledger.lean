import HeaderSurvey.Proofs.Growth
import Mathlib.Data.List.Nodup

/-! The books of a survey. Whatever is accepted is taken up exactly once, in the order of
acceptance, and of all offers under one name the first decides. -/
namespace HeaderSurvey

namespace Event

def offer? : Event → Option (VisitNode × Verdict)
  | offered node verdict => some (node, verdict)
  | _ => none

def use? : Event → Option TypeUse
  | described use => some use
  | _ => none

def handled? : Event → Option VisitNode
  | handled node => some node
  | _ => none

def result? : Event → Option (VisitNode × Node)
  | finished node result => some (node, result)
  | _ => none

end Event

namespace Session

/-- The `journal`, earliest first. -/
def history (s : Session) : List Event := s.journal.reverse

def offers (s : Session) : List (VisitNode × Verdict) := s.history.filterMap Event.offer?

def uses (s : Session) : List TypeUse := s.history.filterMap Event.use?

def handled (s : Session) : List VisitNode := s.history.filterMap Event.handled?

def results (s : Session) : List (VisitNode × Node) := s.history.filterMap Event.result?

def accepted (s : Session) (c : Category) : List VisitNode :=
  (s.offers.filter fun o => o.1.category = c ∧ o.2 = .accepted).map (·.1)

def handledIn (s : Session) (c : Category) : List VisitNode := s.handled.filter (·.category = c)

/-- What became of the offers under `key` in the category `c`, one after the other. -/
def verdicts (s : Session) (c : Category) (key : String) : List Verdict :=
  (s.offers.filter fun o => o.1.category = c ∧ o.1.key = key).map (·.2)

theorem filterMap_history {α : Type} {s t : Session} {e : Event} (f : Event → Option α)
    (h : t.journal = e :: s.journal) :
    t.history.filterMap f = s.history.filterMap f ++ (f e).toList := by
  simp only [history, h, List.reverse_cons, List.filterMap_append, List.filterMap_cons,
    List.filterMap_nil]
  cases f e <;> rfl

theorem offers_record (s : Session) (e : Event) :
    (s.record e).offers = s.offers ++ e.offer?.toList :=
  filterMap_history _ rfl

theorem uses_record (s : Session) (e : Event) : (s.record e).uses = s.uses ++ e.use?.toList :=
  filterMap_history _ rfl

theorem handled_record (s : Session) (e : Event) :
    (s.record e).handled = s.handled ++ e.handled?.toList := filterMap_history _ rfl

theorem results_record (s : Session) (e : Event) :
    (s.record e).results = s.results ++ e.result?.toList := filterMap_history _ rfl

theorem take_returns {s t : Session} {c : Category} {batch : List VisitNode}
    (h : Returns (take c) s batch t) :
    batch = (s.frontier c).queue ∧ t = s.setFrontier c { s.frontier c with queue := [] } := by
  simp only [take, returns_bind, returns_get, returns_set, returns_pure] at h
  obtain ⟨_, _, ⟨rfl, rfl⟩, _, _, rfl, rfl, rfl⟩ := h
  exact ⟨rfl, rfl⟩

theorem mem_uses {s : Session} {use : TypeUse} : use ∈ s.uses ↔ .described use ∈ s.journal := by
  simp only [uses, history, List.mem_filterMap, List.mem_reverse]
  constructor
  · rintro ⟨e, he, h⟩
    cases e with
    | described u =>
      cases h
      exact he
    | offered | handled | finished => cases h
  · intro h
    exact ⟨_, h, rfl⟩

end Session

/-- The first offer is `accepted` or `filtered`, every later one is a `duplicate`. -/
def FirstDecides (verdicts : List Verdict) : Prop :=
  ∃ v n, (v = .accepted ∨ v = .filtered) ∧ verdicts = v :: List.replicate n .duplicate

theorem FirstDecides.duplicate {verdicts : List Verdict} (h : FirstDecides verdicts) :
    FirstDecides (verdicts ++ [.duplicate]) := by
  obtain ⟨v, n, hv, rfl⟩ := h
  exact ⟨v, n + 1, hv, by rw [List.cons_append, List.replicate_succ']⟩

/-- What the offers so far have made of the names: each name in `visited` was decided by its first
offer, and `accepted` nodes have different names. -/
structure Register (x : Context) (s : Session) : Prop where
  distinct : ∀ c, ((s.accepted c).map VisitNode.key).Nodup
  reserved : ∀ c, ∀ node ∈ s.accepted c, node.key ∈ (s.frontier c).visited
  undecided : ∀ c key, c.isEnabled x.switches = true → key ∉ (s.frontier c).visited →
    s.verdicts c key = []
  decided : ∀ c key, c.isEnabled x.switches = true → key ∈ (s.frontier c).visited →
    FirstDecides (s.verdicts c key)
  found : ∀ o ∈ s.offers, x.Discovered o.1
  judged : ∀ o ∈ s.offers, (o.2 = .accepted → x.accepts o.1 = .ok true) ∧
    (o.2 = .filtered → x.accepts o.1 = .ok false)

/-- The books balance while the nodes of `pending` have been taken out of their queue and not been
taken up, and those of `current` have been taken up and not been finished. -/
structure Ledger (x : Context) (pending current : List VisitNode) (s : Session) : Prop
    extends Register x s where
  balance : ∀ c, s.accepted c =
    s.handledIn c ++ pending.filter (·.category = c) ++ (s.frontier c).queue
  known : ∀ use ∈ s.uses, ∃ node, x.Pictures node use ∧
    (node.kind ≠ .function → node.key ∈ (s.frontier .types).visited)
  finished : s.handled = s.results.map (·.1) ++ current
  faithful : ∀ e ∈ s.results, e.2.kind = e.1.kind ∧ e.2.name = e.1.name ∧
    (e.2.kind ≠ .globalVariable → ∀ use ∈ e.2.uses, use ∈ s.uses)

section Offer

variable {x : Context} {s t : Session} {node : VisitNode} {verdict : Verdict}

theorem accepted_offer (h : x.Offers node verdict s t) (c : Category) :
    t.accepted c =
      s.accepted c ++ if c = node.category ∧ verdict = .accepted then [node] else [] := by
  simp only [Session.accepted, Session.offers, Session.filterMap_history _ h.journal,
    List.filter_append, List.map_append, List.append_cancel_left_eq]
  by_cases hc : c = node.category <;> by_cases hv : verdict = .accepted <;>
    simp [Event.offer?, hc, hv, eq_comm]

private theorem verdicts_offer (h : x.Offers node verdict s t) (c : Category) (key : String) :
    t.verdicts c key =
      s.verdicts c key ++ if c = node.category ∧ key = node.key then [verdict] else [] := by
  simp only [Session.verdicts, Session.offers, Session.filterMap_history _ h.journal,
    List.filter_append, List.map_append, List.append_cancel_left_eq]
  by_cases hc : c = node.category <;> by_cases hk : key = node.key <;>
    simp [Event.offer?, hc, hk, eq_comm]

theorem visited_offer (h : x.Offers node verdict s t) {c : Category} {key : String}
    (hk : key ∈ (s.frontier c).visited) : key ∈ (t.frontier c).visited := by
  rw [h.visited]
  exact List.mem_append_right _ hk

end Offer

namespace Register

variable {x : Context} {s t : Session} {node : VisitNode} {verdict : Verdict}

private theorem distinct_offer (h : Register x s) (ho : x.Offers node verdict s t) (c : Category) :
    ((t.accepted c).map VisitNode.key).Nodup := by
  rw [accepted_offer ho, List.map_append, List.nodup_append]
  refine ⟨h.distinct c, by split_ifs <;> simp, ?_⟩
  intro key hkey key' hkey'
  split_ifs at hkey' with hnew
  · obtain ⟨rfl, rfl⟩ := hnew
    obtain ⟨n, hn, rfl⟩ := List.mem_map.1 hkey
    have hfresh := ho.fresh (Or.inl rfl)
    rintro rfl
    simp only [List.map_cons, List.map_nil, List.mem_singleton] at hkey'
    exact hfresh (hkey' ▸ h.reserved _ n hn)
  · cases hkey'

/-- A key that was in `visited` before the offer gets the verdict `duplicate`; one that is new is
decided by this offer. -/
theorem decided_offer (h : Register x s) (ho : x.Offers node verdict s t) {c : Category}
    {key : String} (he : c.isEnabled x.switches = true) (hk : key ∈ (t.frontier c).visited) :
    FirstDecides (t.verdicts c key) := by
  rw [verdicts_offer ho]
  by_cases hold : key ∈ (s.frontier c).visited
  · split_ifs with hnew
    · obtain ⟨rfl, rfl⟩ := hnew
      have hdup : verdict = .duplicate := by
        cases verdict with
        | disabled => simp [ho.disabled.1 rfl] at he
        | duplicate => rfl
        | filtered => exact absurd hold (ho.fresh (Or.inr rfl))
        | accepted => exact absurd hold (ho.fresh (Or.inl rfl))
      exact hdup ▸ (h.decided _ _ he hold).duplicate
    · rw [List.append_nil]
      exact h.decided c key he hold
  · rw [h.undecided c key he hold, List.nil_append]
    rw [ho.visited] at hk
    rcases List.mem_append.1 hk with hfirst | hseen
    · split_ifs at hfirst with hnew
      · obtain ⟨rfl, hv⟩ := hnew
        rw [List.mem_singleton.1 hfirst, if_pos ⟨rfl, rfl⟩]
        exact ⟨verdict, 0, hv, rfl⟩
      · cases hfirst
    · exact absurd hseen hold

theorem offer (h : Register x s) (source : x.Discovered node) (ho : x.Offers node verdict s t) :
    Register x t := by
  have hoffers : t.offers = s.offers ++ [(node, verdict)] := Session.filterMap_history _ ho.journal
  refine ⟨h.distinct_offer ho, ?_, ?_, fun c key he hk => h.decided_offer ho he hk, ?_, ?_⟩
  · intro c n hn
    rw [accepted_offer ho] at hn
    rcases List.mem_append.1 hn with hold | hlast
    · exact visited_offer ho (h.reserved c n hold)
    · split_ifs at hlast with hnew
      · obtain ⟨rfl, rfl⟩ := hnew
        rw [List.mem_singleton.1 hlast, ho.visited]
        simp
      · cases hlast
  · intro c key he hk
    have hk' : key ∉ (s.frontier c).visited := fun hm => hk (visited_offer ho hm)
    rw [verdicts_offer ho, h.undecided c key he hk', List.nil_append]
    split_ifs with hnew
    · obtain ⟨rfl, rfl⟩ := hnew
      exact absurd (ho.mem_visited he) hk
    · rfl
  · intro o hmem
    rw [hoffers] at hmem
    rcases List.mem_append.1 hmem with hold | hlast
    · exact h.found o hold
    · rw [List.mem_singleton.1 hlast]
      exact source
  · intro o hmem
    rw [hoffers] at hmem
    rcases List.mem_append.1 hmem with hold | hlast
    · exact h.judged o hold
    · rw [List.mem_singleton.1 hlast]
      exact ⟨ho.passed, ho.stopped⟩

theorem of_same (h : Register x s) (hoffers : t.offers = s.offers)
    (hvisited : ∀ c, (t.frontier c).visited = (s.frontier c).visited) : Register x t := by
  constructor
  all_goals
    simp only [Session.accepted, Session.verdicts, hoffers, hvisited]
  · exact h.distinct
  · exact h.reserved
  · exact h.undecided
  · exact h.decided
  · exact h.found
  · exact h.judged

theorem record {e : Event} (h : Register x s) (he : e.offer? = none) : Register x (s.record e) := by
  refine h.of_same ?_ fun c => by rw [Session.frontier_record]
  rw [Session.offers_record, he]
  exact List.append_nil _

end Register

namespace Ledger

variable {x : Context} {pending current : List VisitNode} {s t : Session} {node : VisitNode}

theorem offer {verdict : Verdict} (h : Ledger x pending current s) (source : x.Discovered node)
    (ho : x.Offers node verdict s t) : Ledger x pending current t := by
  have huses : t.uses = s.uses := (Session.filterMap_history _ ho.journal).trans (List.append_nil _)
  have hhandled : t.handled = s.handled :=
    (Session.filterMap_history _ ho.journal).trans (List.append_nil _)
  have hresults : t.results = s.results :=
    (Session.filterMap_history _ ho.journal).trans (List.append_nil _)
  refine ⟨h.toRegister.offer source ho, ?_, ?_, ?_, ?_⟩
  · intro c
    rw [accepted_offer ho, h.balance, ho.queue, Session.handledIn, Session.handledIn, hhandled]
    simp only [List.append_assoc]
  · intro use hu
    obtain ⟨node', hpictured, hknown⟩ := h.known use (huses ▸ hu)
    exact ⟨node', hpictured, fun hk => visited_offer ho (hknown hk)⟩
  · rw [hhandled, hresults]
    exact h.finished
  · rw [hresults, huses]
    exact h.faithful

theorem accepted_record {e : Event} (he : e.offer? = none) (c : Category) :
    (s.record e).accepted c = s.accepted c := by
  rw [Session.accepted, Session.offers_record, he, Option.toList_none, List.append_nil,
    Session.accepted]

theorem describe {use : TypeUse} (h : Ledger x pending current s) (hpictured : x.Pictures node use)
    (known : node.kind ≠ .function → node.key ∈ (s.frontier .types).visited) :
    Ledger x pending current (s.record (.described use)) := by
  have hhandled : (s.record (.described use)).handled = s.handled :=
    (Session.handled_record s _).trans (List.append_nil _)
  have hresults : (s.record (.described use)).results = s.results :=
    (Session.results_record s _).trans (List.append_nil _)
  have huses : (s.record (.described use)).uses = s.uses ++ [use] := Session.uses_record s _
  refine ⟨h.toRegister.record rfl, ?_, ?_, ?_, ?_⟩
  · intro c
    rw [accepted_record rfl, Session.handledIn, hhandled, Session.frontier_record]
    exact h.balance c
  · intro u hu
    rw [Session.frontier_record]
    rw [huses] at hu
    rcases List.mem_append.1 hu with hold | hlast
    · exact h.known u hold
    · rw [List.mem_singleton.1 hlast]
      exact ⟨node, hpictured, known⟩
  · rw [hhandled, hresults]
    exact h.finished
  · intro e he
    rw [hresults] at he
    obtain ⟨hkind, hname, hused⟩ := h.faithful e he
    exact ⟨hkind, hname, fun hv u hu => huses ▸ List.mem_append_left _ (hused hv u hu)⟩

theorem handle (h : Ledger x (node :: pending) [] s) :
    Ledger x pending [node] (s.record (.handled node)) := by
  have hhandled : (s.record (.handled node)).handled = s.handled ++ [node] :=
    Session.handled_record s _
  have hresults : (s.record (.handled node)).results = s.results :=
    (Session.results_record s _).trans (List.append_nil _)
  have huses : (s.record (.handled node)).uses = s.uses :=
    (Session.uses_record s _).trans (List.append_nil _)
  refine ⟨h.toRegister.record rfl, ?_, ?_, ?_, ?_⟩
  · intro c
    rw [accepted_record rfl, h.balance, Session.handledIn, Session.handledIn, hhandled,
      Session.frontier_record, List.filter_append]
    by_cases hc : node.category = c <;> simp [hc]
  · rw [huses, Session.frontier_record]
    exact h.known
  · rw [hhandled, hresults, h.finished, List.append_nil]
  · rw [hresults, huses]
    exact h.faithful

theorem finish {r : Node} (h : Ledger x pending [node] s) (hkind : r.kind = node.kind)
    (hname : r.name = node.name) (hused : r.kind ≠ .globalVariable → ∀ use ∈ r.uses, use ∈ s.uses) :
    Ledger x pending [] (s.record (.finished node r)) := by
  have hhandled : (s.record (.finished node r)).handled = s.handled :=
    (Session.handled_record s _).trans (List.append_nil _)
  have hresults : (s.record (.finished node r)).results = s.results ++ [(node, r)] :=
    Session.results_record s _
  have huses : (s.record (.finished node r)).uses = s.uses :=
    (Session.uses_record s _).trans (List.append_nil _)
  refine ⟨h.toRegister.record rfl, ?_, ?_, ?_, ?_⟩
  · intro c
    rw [accepted_record rfl, Session.handledIn, hhandled, Session.frontier_record]
    exact h.balance c
  · rw [huses, Session.frontier_record]
    exact h.known
  · rw [hhandled, hresults, h.finished, List.map_append, List.append_nil]
    rfl
  · intro e he
    rw [hresults] at he
    rw [huses]
    rcases List.mem_append.1 he with hold | hlast
    · exact h.faithful e hold
    · rw [List.mem_singleton.1 hlast]
      exact ⟨hkind, hname, hused⟩

/-- `Ledger` is an invariant of `Grows`, so of a scan and of the finishing of a node. -/
theorem grow {P : VisitNode → Prop} (hP : ∀ node, P node → x.Discovered node)
    (h : Ledger x pending current s) (hgrow : Relation.ReflTransGen (x.Grows P) s t) :
    Ledger x pending current t := by
  refine keeps_run (Q := Ledger x pending current) (fun s t hstep hs => ?_) hgrow h
  cases hstep with
  | offer source offered => exact hs.offer (hP _ source) offered
  | describe pictured known => exact hs.describe pictured known

theorem mem_accepted {c : Category} (h : node ∈ s.accepted c) :
    (node, .accepted) ∈ s.offers ∧ node.category = c := by
  obtain ⟨⟨n, v⟩, hmem, rfl⟩ := List.mem_map.1 h
  obtain ⟨hmem, hn⟩ := List.mem_filter.1 hmem
  obtain ⟨hc, rfl⟩ := of_decide_eq_true hn
  exact ⟨hmem, hc⟩

theorem category_of_queue {c : Category} (h : Ledger x pending current s)
    (hn : node ∈ (s.frontier c).queue) : node.category = c := by
  have hmem : node ∈ s.accepted c := by
    rw [h.balance]
    exact List.mem_append_right _ hn
  exact (mem_accepted hmem).2

/-- `Session.take` moves the whole queue of `c` into `batch` and leaves the other queues as they
are. -/
theorem take {c : Category} {batch : List VisitNode} (h : Ledger x [] [] s)
    (htake : Returns (Session.take c) s batch t) :
    Ledger x batch [] t ∧
      ∀ d, (t.frontier d).queue = if d = c then [] else (s.frontier d).queue := by
  obtain ⟨rfl, rfl⟩ := Session.take_returns htake
  have hjournal := Session.journal_setFrontier (s := s) c { s.frontier c with queue := [] }
  have hqueue : ∀ d, ((s.setFrontier c { s.frontier c with queue := [] }).frontier d).queue =
      if d = c then [] else (s.frontier d).queue := by
    intro d
    rw [Session.frontier_setFrontier]
    split_ifs <;> rfl
  have hvisited : ∀ d, ((s.setFrontier c { s.frontier c with queue := [] }).frontier d).visited =
      (s.frontier d).visited := by
    intro d
    rw [Session.frontier_setFrontier]
    split_ifs with hd
    · rw [hd]
    · rfl
  refine ⟨⟨h.toRegister.of_same ?_ hvisited, ?_, ?_, ?_, ?_⟩, hqueue⟩
  all_goals
    simp only [Session.offers, Session.accepted, Session.handledIn, Session.handled, Session.uses,
      Session.results, Session.history, hjournal, hvisited, hqueue]
  · intro d
    have hb := h.balance d
    simp only [Session.offers, Session.accepted, Session.handledIn, Session.handled,
      Session.history, List.filter_nil, List.append_nil] at hb
    rw [hb]
    split_ifs with hd
    · subst hd
      rw [List.append_nil, List.append_cancel_left_eq]
      exact (List.filter_eq_self.2 fun n hn => decide_eq_true (h.category_of_queue hn)).symm
    · have hnone : (s.frontier c).queue.filter (·.category = d) = [] := by
        rw [List.filter_eq_nil_iff]
        intro n hn hn'
        exact hd ((of_decide_eq_true hn').symm.trans (h.category_of_queue hn))
      rw [hnone, List.append_nil]
  · exact h.known
  · exact h.finished
  · exact h.faithful

end Ledger

end HeaderSurvey
