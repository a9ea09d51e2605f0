import HeaderSurvey.Unit.Links
import Mathlib.Data.Finset.Max
import Mathlib.Data.List.Nodup
import Mathlib.Data.List.Perm.Basic

/-! The search for a cycle among type links. Types are taken away in an order in which no type links
to one that went before it, nor to itself; so if all can be taken away, the order ranks the
types. -/
namespace HeaderSurvey

namespace Elimination

variable {n : Nat} {links : TypeId → List TypeId} {removed targets : List TypeId} {s : Elimination}

/-- The counters and the ready types are right for links that end in `targets`, after the types of
`removed` have been taken away. -/
structure Accounts (n : Nat) (removed targets : List TypeId) (s : Elimination) : Prop where
  count : ∀ k < n, s.counts[k]? = some (targets.count k : Int)
  free : ∀ k < n, k ∈ removed ++ s.ready ↔ targets.count k = 0
  distinct : (removed ++ s.ready).Nodup
  bound : ∀ k ∈ removed ++ s.ready, k < n

private theorem Accounts.perm {targets' : List TypeId} (h : Accounts n removed targets s)
    (hperm : targets.Perm targets') : Accounts n removed targets' s := by
  refine ⟨?_, ?_, h.distinct, h.bound⟩
  · intro k hk
    rw [← hperm.count_eq]
    exact h.count k hk
  · intro k hk
    rw [← hperm.count_eq]
    exact h.free k hk

theorem Accounts.release {t : TypeId} (h : Accounts n removed (t :: targets) s) (ht : t < n) :
    Accounts n removed targets (s.release t) := by
  have hcount : ∀ k < n, (s.counts.modify t (· - 1))[k]? = some (targets.count k : Int) := by
    intro k hk
    rw [List.getElem?_modify, h.count k hk]
    by_cases hkt : t = k
    · subst hkt
      simp
    · simp [hkt]
  have hfresh : t ∉ removed ++ s.ready := by
    rw [h.free t ht]
    simp
  have hother : ∀ k < n, k ≠ t → (k ∈ removed ++ s.ready ↔ targets.count k = 0) := by
    intro k hk hkt
    rw [h.free k hk, List.count_cons_of_ne (Ne.symm hkt)]
  unfold Elimination.release
  simp only [hcount t ht, Option.some.injEq]
  split
  · next hzero =>
    refine ⟨hcount, ?_, ?_, ?_⟩
    · intro k hk
      by_cases hkt : k = t
      · subst hkt
        simpa using hzero
      · rw [← hother k hk hkt]
        simp [hkt]
    · rw [List.nodup_middle]
      exact List.nodup_cons.2 ⟨hfresh, h.distinct⟩
    · intro k hk
      rw [List.perm_middle.mem_iff] at hk
      rcases List.mem_cons.1 hk with rfl | hk
      · exact ht
      · exact h.bound k hk
  · next hne =>
    refine ⟨hcount, ?_, h.distinct, h.bound⟩
    intro k hk
    by_cases hkt : k = t
    · subst hkt
      exact iff_of_false hfresh (by simpa using hne)
    · exact hother k hk hkt

private theorem Accounts.releaseAll {ts : List TypeId} (h : Accounts n removed (ts ++ targets) s)
    (hts : ∀ t ∈ ts, t < n) : Accounts n removed targets (ts.foldl Elimination.release s) := by
  induction ts generalizing s with
  | nil => exact h
  | cons t ts ih =>
    exact ih (h.release (hts t List.mem_cons_self)) fun t' ht' =>
      hts t' (List.mem_cons_of_mem t ht')

/-- The ends of the links of all types that are not among the `removed`. -/
def openTargets (links : TypeId → List TypeId) (n : Nat) (removed : List TypeId) : List TypeId :=
  ((List.range n).filter (· ∉ removed)).flatMap links

private theorem openTargets_perm {i : TypeId} (hi : i < n) (hr : i ∉ removed) :
    (openTargets links n removed).Perm (links i ++ openTargets links n (removed ++ [i])) := by
  have hperm : ((List.range n).filter (· ∉ removed)).Perm
      (i :: (List.range n).filter (· ∉ removed ++ [i])) := by
    refine (List.perm_ext_iff_of_nodup ?_ ?_).2 fun k => ?_
    · exact List.nodup_range.filter _
    · exact List.nodup_cons.2 ⟨by simp, List.nodup_range.filter _⟩
    · by_cases hki : k = i
      · simp [hki, hi, hr]
      · simp [hki]
  exact hperm.flatMap_right links

/-- No type of `removed` links to one before it, nor to itself. -/
structure Ordered (links : TypeId → List TypeId) (removed : List TypeId) : Prop where
  earlier : removed.Pairwise fun a b => a ∉ links b
  self : ∀ a ∈ removed, a ∉ links a

theorem Ordered.idxOf_lt {i j : TypeId} (h : Ordered links removed) (hlink : j ∈ links i)
    (hi : i ∈ removed) (hj : j ∈ removed) : removed.idxOf i < removed.idxOf j := by
  rcases Nat.lt_trichotomy (removed.idxOf i) (removed.idxOf j) with hlt | heq | hgt
  · exact hlt
  · have hij := (List.idxOf_inj hi).1 heq
    exact absurd (hij ▸ hlink) (h.self i hi)
  · have hpair := List.pairwise_iff_getElem.1 h.earlier _ _ (List.idxOf_lt_length_of_mem hj)
      (List.idxOf_lt_length_of_mem hi) hgt
    simp only [List.getElem_idxOf] at hpair
    exact absurd hlink hpair

private theorem not_mem_links {i j : TypeId} (h : (openTargets links n removed).count j = 0)
    (hi : i < n) (hr : i ∉ removed) : j ∉ links i := by
  intro hj
  refine List.count_eq_zero.1 h (List.mem_flatMap.2 ⟨i, ?_, hj⟩)
  simp [hi, hr]

/-- A `ready` type is taken up: its links are the next to go away. -/
theorem Accounts.takeUp {counts : List Int} {i : TypeId} {ready : List TypeId}
    (h : Accounts n removed (openTargets links n removed) ⟨counts, i :: ready⟩)
    (ho : Ordered links removed) :
    i < n ∧ Accounts n (removed ++ [i]) (links i ++ openTargets links n (removed ++ [i]))
      ⟨counts, ready⟩ ∧
      Ordered links (removed ++ [i]) := by
  have hi : i < n := h.bound i (by simp)
  have hr : i ∉ removed := fun hmem => by
    have := List.disjoint_of_nodup_append h.distinct
    exact this hmem List.mem_cons_self
  have hfree : ∀ k ∈ removed ++ i :: ready, (openTargets links n removed).count k = 0 :=
    fun k hk => (h.free k (h.bound k hk)).1 hk
  have hsplit : removed ++ i :: ready = removed ++ [i] ++ ready := by simp
  refine ⟨hi, Accounts.perm ?_ (openTargets_perm hi hr), ?_⟩
  · refine ⟨h.count, ?_, ?_, ?_⟩
    · intro k hk
      rw [← h.free k hk]
      exact (Iff.of_eq (congrArg (k ∈ ·) hsplit)).symm
    · exact hsplit ▸ h.distinct
    · exact hsplit ▸ h.bound
  · constructor
    · rw [List.pairwise_append]
      refine ⟨ho.earlier, List.pairwise_singleton _ _, ?_⟩
      intro a ha b hb
      rw [List.mem_singleton.1 hb]
      exact not_mem_links (hfree a (by simp [ha])) hi hr
    · intro a ha
      rcases List.mem_append.1 ha with ha | ha
      · exact ho.self a ha
      · rw [List.mem_singleton.1 ha]
        exact not_mem_links (hfree i (by simp)) hi hr

theorem run_accounts (hlinks : ∀ i < n, ∀ j ∈ links i, j < n)
    (h : Accounts n removed (openTargets links n removed) s) (ho : Ordered links removed) :
    ∃ removed', Accounts n removed' (openTargets links n removed') (s.run links) ∧
      Ordered links removed' ∧ (s.run links).ready = [] := by
  induction s using run.induct links generalizing removed with
  | case1 counts =>
    rw [run]
    exact ⟨removed, h, ho, rfl⟩
  | case2 counts i ready ih =>
    rw [run]
    obtain ⟨hi, h', ho'⟩ := h.takeUp ho
    exact ih (h'.releaseAll (hlinks i hi)) ho'

end Elimination

namespace TranslationUnit

variable {u : TranslationUnit}

private theorem inDegree_eq_count (u : TranslationUnit) (i : TypeId) :
    u.inDegree i = (Elimination.openTargets u.links u.types.size []).count i := by
  simp [inDegree, Elimination.openTargets]

theorem elimination_accounts (u : TranslationUnit) :
    u.elimination.Accounts u.types.size []
      (Elimination.openTargets u.links u.types.size []) := by
  refine ⟨?_, ?_, ?_, ?_⟩
  · intro k hk
    simp [elimination, hk, inDegree_eq_count]
  · intro k hk
    simp [elimination, hk, inDegree_eq_count]
  · exact List.nodup_reverse.2 (List.nodup_range.filter _)
  · intro k hk
    simp [elimination] at hk
    exact hk.1

theorem exists_order (hlinks : ∀ i < u.types.size, ∀ j ∈ u.links i, j < u.types.size)
    (h : u.firstTypeCycle? = none) :
    ∃ order : List TypeId, Elimination.Ordered u.links order ∧ order.Nodup ∧
      ∀ i, i ∈ order ↔ i < u.types.size := by
  obtain ⟨order, haccounts, hordered, hready⟩ :=
    Elimination.run_accounts hlinks u.elimination_accounts ⟨List.Pairwise.nil, by simp⟩
  have hdistinct := haccounts.distinct
  have hbound := haccounts.bound
  have hfree := haccounts.free
  rw [hready, List.append_nil] at hdistinct hbound hfree
  refine ⟨order, hordered, hdistinct, fun i => ⟨hbound i, fun hi => (hfree i hi).2 ?_⟩⟩
  have hnone := List.find?_eq_none.1 h i (List.mem_range.2 hi)
  simp only [haccounts.count i hi, Option.getD_some, decide_eq_true_eq] at hnone
  omega

/-- If `firstTypeCycle?` finds nothing, types have ranks up to their number that fall along
`links`. -/
theorem exists_rank (hlinks : ∀ i < u.types.size, ∀ j ∈ u.links i, j < u.types.size)
    (h : u.firstTypeCycle? = none) :
    ∃ rank : TypeId → Nat, (∀ i, rank i ≤ u.types.size) ∧
      ∀ i < u.types.size, ∀ j ∈ u.links i, rank j < rank i := by
  obtain ⟨order, hordered, hdistinct, hmem⟩ := exists_order hlinks h
  have hlength : order.length ≤ u.types.size := by
    have hsub : order ⊆ List.range u.types.size := fun i hi => List.mem_range.2 ((hmem i).1 hi)
    simpa using (List.subperm_of_subset hdistinct hsub).length_le
  refine ⟨fun i => u.types.size - order.idxOf i, fun i => Nat.sub_le _ _, ?_⟩
  intro i hi j hj
  have hi' := (hmem i).2 hi
  have hj' := (hmem j).2 (hlinks i hi j hj)
  have hlast : order.idxOf j < order.length := List.idxOf_lt_length_of_mem hj'
  have hbefore : order.idxOf i < order.idxOf j := hordered.idxOf_lt hj hi' hj'
  dsimp only
  omega

/-- If ranks fall along `links`, `firstTypeCycle?` finds nothing. -/
theorem firstTypeCycle?_eq_none {rank : TypeId → Nat}
    (hlinks : ∀ i < u.types.size, ∀ j ∈ u.links i, j < u.types.size)
    (hfalls : ∀ i < u.types.size, ∀ j ∈ u.links i, rank j < rank i) : u.firstTypeCycle? = none := by
  obtain ⟨order, haccounts, -, hready⟩ :=
    Elimination.run_accounts hlinks u.elimination_accounts ⟨List.Pairwise.nil, by simp⟩
  have hfree := haccounts.free
  rw [hready, List.append_nil] at hfree
  by_contra hcycle
  obtain ⟨i, hfound⟩ := Option.ne_none_iff_exists'.1 hcycle
  unfold firstTypeCycle? at hfound
  have hi : i < u.types.size := List.mem_range.1 (List.mem_of_find?_eq_some hfound)
  have hstays : i ∉ order := by
    intro hmem
    have hcount := List.find?_some hfound
    rw [haccounts.count i hi, (hfree i hi).1 hmem] at hcount
    simp at hcount
  -- Of the types that stay, one of the highest rank has a link to it from another that stays.
  obtain ⟨top, htop, hmax⟩ := ((Finset.range u.types.size).filter (· ∉ order)).exists_max_image rank
    ⟨i, by simp [hi, hstays]⟩
  simp only [Finset.mem_filter, Finset.mem_range] at htop hmax
  have hopen : top ∈ Elimination.openTargets u.links u.types.size order := by
    rw [← List.count_pos_iff]
    exact Nat.pos_of_ne_zero fun hzero => htop.2 ((hfree top htop.1).2 hzero)
  obtain ⟨j, hj, hlink⟩ := List.mem_flatMap.1 hopen
  simp only [List.mem_filter, List.mem_range, decide_eq_true_eq] at hj
  have hlt := hfalls j hj.1 top hlink
  have hle := hmax j hj
  omega

end TranslationUnit
end HeaderSurvey
