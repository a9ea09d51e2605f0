import HeaderSurvey.Proofs.Drain
import HeaderSurvey.Proofs.Unseen

/-! Draining a category in rounds is first come, first served. No step looks at the nodes that wait,
and new ones go to the end of their queue, so it makes no difference to a batch whether the rest of
it has been taken out of the queue or still stands at its head. -/
namespace HeaderSurvey

namespace Session

/-- The session with `nodes` at the head of a queue. -/
def putBack (s : Session) (c : Category) (nodes : List VisitNode) : Session :=
  s.setFrontier c { s.frontier c with queue := nodes ++ (s.frontier c).queue }

variable {s : Session} {c : Category} {nodes : List VisitNode}

theorem putBack_nil : s.putBack c [] = s := by
  cases c <;> rfl

theorem unseen_putBack (c : Category) (nodes : List VisitNode) : Unseen (·.putBack c nodes) where
  isVisited s d name := by cases c <;> cases d <;> rfl
  macroTokens s := by cases c <;> rfl
  note s tokens reports := by cases c <;> rfl
  markVisited s d name := by cases c <;> cases d <;> rfl
  enqueue s d node := by cases c <;> cases d <;> simp [putBack, enqueue, frontier, setFrontier]
  record s e := by cases c <;> rfl

theorem putBack_take (s : Session) (c : Category) :
    (s.setFrontier c { s.frontier c with queue := [] }).putBack c (s.frontier c).queue = s := by
  cases c <;> simp [putBack, frontier, setFrontier]

private theorem pop_putBack (s : Session) (c : Category) (node : VisitNode)
    (nodes : List VisitNode) :
    Returns (pop c) (s.putBack c (node :: nodes)) (some node) (s.putBack c nodes) := by
  cases c <;> rfl

private theorem pop_empty (h : (s.frontier c).queue = []) : Returns (pop c) s none s := by
  simp [pop, h]

end Session

/-- A run with `nodes` at the head of a queue. -/
def Progress.putBack (p : Progress) (c : Category) (nodes : List VisitNode) : Progress :=
  { p with session := p.session.putBack c nodes }

theorem Progress.putBack_nil (p : Progress) (c : Category) : p.putBack c [] = p := by
  rw [putBack, Session.putBack_nil]

namespace Context

variable {x : Context} {c : Category} {nodes : List VisitNode} {node : VisitNode}

theorem complete_commutes : Commutes (·.putBack c nodes) (x.complete node) :=
  complete_unseen (Session.unseen_putBack c nodes)

/-! ## One round -/

variable {p q : Progress} {batch : List VisitNode}

theorem drainOneByOne_cons (n : Nat) : x.drainOneByOne c (n + 1) (p.putBack c (node :: nodes)) =
    (do x.complete node; x.drainOneByOne c n) (p.putBack c nodes) := by
  have hpop : Returns (onSession (Session.pop c)) (p.putBack c (node :: nodes)) (some node)
      (p.putBack c nodes) :=
    returns_onSession.2 ⟨_, Session.pop_putBack p.session c node nodes, rfl⟩
  exact hpop.bind_eq

/-- `drainOneByOne` on a queue that starts with `batch` comes to the state that `batch.forM` returns
from. -/
theorem drainOneByOne_returns {u : PUnit} (h : Returns (batch.forM x.complete) p u q) (n : Nat) :
    x.drainOneByOne c (n + batch.length) (p.putBack c batch) = x.drainOneByOne c n q := by
  induction batch generalizing p with
  | nil =>
    obtain ⟨-, rfl⟩ := returns_pure.1 h
    rw [Progress.putBack_nil]
    rfl
  | cons node batch ih =>
    obtain ⟨_, p', hnode, hbatch⟩ := returns_bind.1 h
    rw [List.length_cons, ← Nat.add_assoc, drainOneByOne_cons,
      (complete_commutes.returns hnode).bind_eq]
    exact ih hbatch

/-- Where `batch.forM` fails, `drainOneByOne` fails with the same error, and the nodes after the
failing one are still in the queue. -/
theorem drainOneByOne_fails {e : SurveyError} (h : Fails (batch.forM x.complete) p e q) :
    ∃ left k, ∀ n, x.drainOneByOne c (n + k) (p.putBack c batch) =
      (.error e, q.putBack c left) := by
  induction batch generalizing p with
  | nil => exact absurd h not_fails_pure
  | cons node batch ih =>
    rcases fails_bind.1 h with hnode | ⟨_, p', hnode, hbatch⟩
    · refine ⟨batch, 1, fun n => ?_⟩
      rw [drainOneByOne_cons, (complete_commutes.fails hnode).bind_eq]
    · obtain ⟨left, k, hleft⟩ := ih hbatch
      refine ⟨left, k + 1, fun n => ?_⟩
      rw [← Nat.add_assoc, drainOneByOne_cons, (complete_commutes.returns hnode).bind_eq]
      exact hleft n

private theorem longer_stands (P : VisitNode → Prop) (k : Nat) :
    Stands P (k < ·.journal.length) := by
  intro s t htouch hs
  cases htouch with
  | reserve source => rwa [Session.journal_markVisited]
  | enqueue source => rwa [Session.journal_enqueue]
  | note same => rwa [same.2]
  | record source => exact Nat.lt_succ_of_lt hs

/-- `complete` adds to the journal, whether it returns or fails. -/
theorem complete_longer (x : Context) (node : VisitNode) (p : Progress) :
    p.session.journal.length < (x.complete node p).2.session.journal.length := by
  have hstands := longer_stands x.Referenced p.session.journal.length
  refine complete_leaves (Q := (p.session.journal.length < ·.journal.length)) ?_
    fun _ t _ => hstands.record rfl t
  refine finish_leaves (upholds_of_stands hstands) (Or.inr fun _ => hstands.record rfl) ?_
  exact Nat.lt_succ_self _

private theorem batch_longer (node : VisitNode) (nodes : List VisitNode) (p : Progress) :
    p.session.journal.length < (((node :: nodes).forM x.complete) p).2.session.journal.length := by
  have hkeeps : ∀ other, Keeps
      (fun q : Progress => p.session.journal.length < q.session.journal.length)
      (x.complete other) := fun other q hq => Nat.lt_trans hq (complete_longer x other q)
  exact leaves_bind (Q := fun q : Progress => p.session.journal.length < q.session.journal.length)
    (complete_longer x node p) fun _ q _ => Keeps.forM (fun other _ => hkeeps other) q

/-- What one round of `drain` comes to, in comparison with the same nodes one by one: both end with
the same result, with nodes left over only where it is a failure, or both come to the same state and
go on. -/
inductive Round (x : Context) (c : Category) (p : Progress) : Prop where
  | ends {r : Except SurveyError Unit} {q : Progress} {k : Nat} {left : List VisitNode}
      (inRounds : ∀ n, x.drain c (n + 1) p = (r, q))
      (oneByOne : ∀ n, x.drainOneByOne c (n + k) p = (r, q.putBack c left))
      (whole : r = .ok () → left = []) : Round x c p
  | goesOn {q : Progress} {k : Nat} (moved : p ≠ q) (some : 0 < k)
      (inRounds : ∀ n, x.drain c (n + 1) p = x.drain c n q)
      (oneByOne : ∀ n, x.drainOneByOne c (n + k) p = x.drainOneByOne c n q) : Round x c p

private theorem round (x : Context) (c : Category) (p : Progress) : x.Round c p := by
  obtain ⟨batch, hbatch⟩ : ∃ batch, (p.session.frontier c).queue = batch := ⟨_, rfl⟩
  obtain ⟨p', hp'⟩ : ∃ p' : Progress, p' =
      { p with session := p.session.setFrontier c { p.session.frontier c with queue := [] } } :=
    ⟨_, rfl⟩
  have htake : Returns (onSession (Session.take c)) p batch p' := by
    rw [hp', ← hbatch]
    rfl
  have hback : p'.putBack c batch = p := by
    rw [hp', ← hbatch, Progress.putBack, Session.putBack_take]
  have hdrain : ∀ n, x.drain c (n + 1) p =
      (if batch.isEmpty then pure () else do batch.forM x.complete; x.drain c n) p' :=
    fun n => htake.bind_eq
  cases batch with
  | nil =>
    rw [Progress.putBack_nil] at hback
    have hpop : Returns (onSession (Session.pop c)) p none p :=
      returns_onSession.2 ⟨_, Session.pop_empty hbatch, rfl⟩
    have hrounds : ∀ n, x.drain c (n + 1) p = (.ok (), p) := by
      intro n
      rw [hdrain, hback]
      rfl
    have hone : ∀ n, x.drainOneByOne c (n + 1) p = (.ok (), p.putBack c []) := by
      intro n
      rw [Progress.putBack_nil]
      exact hpop.bind_eq
    exact .ends hrounds hone fun _ => rfl
  | cons node nodes =>
    have hlonger := batch_longer (x := x) node nodes p'
    rcases returns_or_fails ((node :: nodes).forM x.complete) p' with ⟨_, q, h⟩ | ⟨e, q, h⟩
    · have hmoved : p ≠ q := by
        rintro rfl
        rw [h, hp', Session.journal_setFrontier] at hlonger
        exact Nat.lt_irrefl _ hlonger
      have hone := drainOneByOne_returns (c := c) h
      rw [hback] at hone
      exact .goesOn hmoved (Nat.succ_pos nodes.length) (fun n => (hdrain n).trans h.bind_eq) hone
    · obtain ⟨left, k, hone⟩ := drainOneByOne_fails (c := c) h
      rw [hback] at hone
      exact .ends (fun n => (hdrain n).trans h.bind_eq) hone nofun

end Context

/-! ## Round after round -/

/-- From some number on, however many times it may go round, the loop comes to `r` and leaves
`t`. -/
def Settles {σ : Type} (loop : Nat → StepM σ Unit) (s : σ) (r : Except SurveyError Unit) (t : σ) :
    Prop :=
  ∃ n, ∀ m, loop (m + n) s = (r, t)

namespace Settles

variable {σ : Type} {loop loop' : Nat → StepM σ Unit} {s s' t t' : σ}
  {r r' : Except SurveyError Unit}

private theorem unique (h : Settles loop s r t) (h' : Settles loop s r' t') : r = r' ∧ t = t' := by
  obtain ⟨n, hn⟩ := h
  obtain ⟨n', hn'⟩ := h'
  have heq : (r, t) = (r', t') := by rw [← hn n', ← hn' n, Nat.add_comm]
  exact Prod.mk.inj heq

/-- A loop that comes to `s'` settles if it does from there. -/
theorem of_next {k : Nat} (hnext : ∀ n, loop (n + k) s = loop n s') (h : Settles loop s' r t) :
    Settles loop s r t := by
  obtain ⟨n, hn⟩ := h
  refine ⟨n + k, fun m => ?_⟩
  rw [← Nat.add_assoc, hnext, hn]

/-- Two loops settle alike if from each state both end alike or both come to one other state. -/
theorem transfer {R : Except SurveyError Unit → σ → σ → Prop}
    (hzero : ∀ s, loop 0 s = (.error .unending, s))
    (hstep : ∀ s, (∃ r t t', R r t t' ∧ Settles loop s r t ∧ Settles loop' s r t') ∨
      ∃ s' k k', s ≠ s' ∧ 0 < k ∧ (∀ n, loop (n + k) s = loop n s') ∧
        ∀ n, loop' (n + k') s = loop' n s')
    (h : Settles loop s r t) : ∃ t', R r t t' ∧ Settles loop' s r t' := by
  obtain ⟨n, hn⟩ := h
  -- The bound from which the loop has settled gets smaller along the way.
  induction n using Nat.strongRecOn generalizing s with
  | _ n ih =>
    rcases hstep s with ⟨r', t₁, t', hR, hends, hends'⟩ | ⟨s', k, k', hmoved, hk, hnext, hnext'⟩
    · obtain ⟨rfl, rfl⟩ := hends.unique ⟨n, hn⟩
      exact ⟨t', hR, hends'⟩
    · have hlater : ∀ m, loop (m + (n - k)) s' = (r, t) := by
        intro m
        have hcount : m + (n - k) + k = m + (k - n) + n := by omega
        rw [← hnext, hcount, hn]
      have hpos : n ≠ 0 := by
        -- Otherwise the loop would be given up at once, both here and there.
        rintro rfl
        have hhere := (hzero s).symm.trans (hn 0)
        rw [Nat.zero_sub] at hlater
        have hthere := (hzero s').symm.trans (hlater 0)
        exact hmoved (Prod.mk.inj (hhere.trans hthere.symm)).2
      obtain ⟨t', hR, ht'⟩ := ih (n - k) (by omega) hlater
      exact ⟨t', hR, ht'.of_next hnext'⟩

end Settles

namespace Context

variable {x : Context} {c : Category} {p q : Progress} {r : Except SurveyError Unit}

/-- An answer of `drain` other than `SurveyError.unending` is the one it settles to. -/
theorem drain_settles {rounds : Nat} (h : x.drain c rounds p = (r, q)) (hr : r ≠ .error .unending) :
    Settles (x.drain c) p r q := by
  refine ⟨rounds, fun m => ?_⟩
  rcases x.drain_prolongs c (Nat.le_add_left rounds m) p with ⟨t, hgiven⟩ | hsame
  · exact absurd (congrArg Prod.fst (h.symm.trans hgiven)) hr
  · exact hsame.trans h

def EndAlike (c : Category) (r : Except SurveyError Unit) (q q' : Progress) : Prop :=
  ∃ left, q' = q.putBack c left ∧ (r = .ok () → left = [])

private theorem settles_oneByOne (h : Settles (x.drain c) p r q) :
    ∃ q', EndAlike c r q q' ∧ Settles (x.drainOneByOne c) p r q' := by
  refine h.transfer (fun _ => rfl) fun s => ?_
  cases x.round c s with
  | ends inRounds oneByOne whole =>
    exact Or.inl ⟨_, _, _, ⟨_, rfl, whole⟩, ⟨1, inRounds⟩, ⟨_, oneByOne⟩⟩
  | goesOn moved some inRounds oneByOne =>
    exact Or.inr ⟨_, 1, _, moved, Nat.one_pos, inRounds, oneByOne⟩

private theorem settles_inRounds (h : Settles (x.drainOneByOne c) p r q) :
    ∃ q', EndAlike c r q' q ∧ Settles (x.drain c) p r q' := by
  refine h.transfer (R := fun r q q' => EndAlike c r q' q) (fun _ => rfl) fun s => ?_
  cases x.round c s with
  | ends inRounds oneByOne whole =>
    exact Or.inl ⟨_, _, _, ⟨_, rfl, whole⟩, ⟨_, oneByOne⟩, ⟨1, inRounds⟩⟩
  | goesOn moved some inRounds oneByOne => exact Or.inr ⟨_, _, 1, moved, some, oneByOne, inRounds⟩

private theorem EndAlike.eq_of_ok {q' : Progress} (h : EndAlike c (.ok ()) q q') : q' = q := by
  obtain ⟨left, rfl, hleft⟩ := h
  rw [hleft rfl, Progress.putBack_nil]

end Context

/-- `drain` settles as `drainOneByOne` does, with the same session and assembly, or with the same
error; a failure of `drainOneByOne` leaves the rest of the batch in the queue. What `drain` comes to
in some number of rounds, it settles to, unless it is `SurveyError.unending`. -/
theorem drain_first_come (x : Context) (c : Category) (p : Progress) :
    (∀ q, Settles (x.drain c) p (.ok ()) q ↔ Settles (x.drainOneByOne c) p (.ok ()) q) ∧
    (∀ e q, Settles (x.drain c) p (.error e) q →
      ∃ left, Settles (x.drainOneByOne c) p (.error e) (q.putBack c left)) ∧
    (∀ e q', Settles (x.drainOneByOne c) p (.error e) q' →
      ∃ q left, q' = q.putBack c left ∧ Settles (x.drain c) p (.error e) q) ∧
    ∀ rounds r q, x.drain c rounds p = (r, q) → r ≠ .error .unending →
      Settles (x.drain c) p r q := by
  refine ⟨fun q => ⟨fun h => ?_, fun h => ?_⟩, fun e q h => ?_, fun e q' h => ?_, ?_⟩
  · obtain ⟨q', halike, h'⟩ := Context.settles_oneByOne h
    rwa [halike.eq_of_ok] at h'
  · obtain ⟨q', halike, h'⟩ := Context.settles_inRounds h
    rwa [halike.eq_of_ok]
  · obtain ⟨_, ⟨left, rfl, -⟩, h'⟩ := Context.settles_oneByOne h
    exact ⟨left, h'⟩
  · obtain ⟨q, ⟨left, hq, -⟩, h'⟩ := Context.settles_inRounds h
    exact ⟨q, left, hq, h'⟩
  · intro rounds r q
    exact Context.drain_settles

/-- The list when its function has been finished, and the types that it refers to wait. -/
def listProgress : Progress :=
  let x := Context.ofSettings listUnit {} 64
  let platform : Platform := ⟨"x86_64-unknown-linux-gnu", 64⟩
  ((do onSession x.scan; x.drain .functions 2 : RunM Unit)
    { assembly := .start "list.h" platform platform }).2

theorem drain_listProgress_first_come : listProgress.session.isQueued .types = true ∧ ∃ q,
    Settles ((Context.ofSettings listUnit {} 64).drain .types) listProgress (.ok ()) q ∧
    Settles ((Context.ofSettings listUnit {} 64).drainOneByOne .types) listProgress (.ok ()) q := by
  have hqueued : listProgress.session.isQueued .types = true := by decide +kernel
  have hok : ((Context.ofSettings listUnit {} 64).drain .types 3 listProgress).1.isOk = true := by
    decide +kernel
  obtain ⟨hiff, -, -, hsettles⟩ :=
    drain_first_come (Context.ofSettings listUnit {} 64) .types listProgress
  obtain ⟨_, q, h⟩ := exists_returns hok
  have hq := hsettles 3 _ q h nofun
  exact ⟨hqueued, q, hq, (hiff q).1 hq⟩

end HeaderSurvey
