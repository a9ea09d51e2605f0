import HeaderSurvey.Proofs.Resolution
import Mathlib.Data.List.Find

/-! Which type is reported when the links from type to type have a cycle. What cannot be taken away
by the search is on a cycle or behind one, and the first of these types is reported. So the report
may name a type that does not refer back to itself: one that comes before all types on cycles and
that a cycle leads to. -/
namespace HeaderSurvey

open Relation

namespace TranslationUnit

variable {u : TranslationUnit} {i j k : TypeId}

/-- A chain of `LinksTo` from `i` comes back to it. -/
def OnCycle (u : TranslationUnit) (i : TypeId) : Prop := TransGen u.LinksTo i i

/-- `i` is `OnCycle`, or `LinksTo` leads to it from a type that is. -/
def Behind (u : TranslationUnit) (i : TypeId) : Prop :=
  ∃ k, u.OnCycle k ∧ ReflTransGen u.LinksTo k i

theorem OnCycle.behind (h : u.OnCycle i) : u.Behind i := ⟨i, h, .refl⟩

/-- The types that the search took away, in their `order`. The others are those to which one of the
others links. -/
structure TakenAway (u : TranslationUnit) (order : List TypeId) : Prop where
  ordered : Elimination.Ordered u.links order
  linked : ∀ i < u.types.size, i ∉ order ↔ ∃ j, j ∉ order ∧ u.LinksTo j i

private theorem HandlesInRange.exists_takenAway (h : u.HandlesInRange) :
    ∃ order, u.TakenAway order ∧
    u.firstTypeCycle? = (List.range u.types.size).find? (· ∉ order) := by
  obtain ⟨order, haccounts, hordered, hready⟩ :=
    Elimination.run_accounts (fun i _ j hj => h.links_lt hj) u.elimination_accounts
      ⟨List.Pairwise.nil, by simp⟩
  have hleft : ∀ i < u.types.size,
      i ∉ order ↔ 0 < (Elimination.openTargets u.links u.types.size order).count i := by
    intro i hi
    have hfree := haccounts.free i hi
    rw [hready, List.append_nil] at hfree
    rw [hfree]
    exact Nat.pos_iff_ne_zero.symm
  refine ⟨order, ⟨hordered, ?_⟩, ?_⟩
  · intro i hi
    rw [hleft i hi, List.count_pos_iff]
    constructor
    · intro hopen
      obtain ⟨j, hj, hlink⟩ := List.mem_flatMap.1 hopen
      simp only [List.mem_filter, List.mem_range, decide_eq_true_eq] at hj
      exact ⟨j, hj.2, mem_links_iff.1 hlink⟩
    · rintro ⟨j, hj, hlink⟩
      apply List.mem_flatMap.2
      exact ⟨j, by simp [hlink.lt, hj], mem_links_iff.2 hlink⟩
  · apply List.find?_congr
    intro i hi
    have hi := List.mem_range.1 hi
    simp [haccounts.count i hi, hleft i hi]

namespace TakenAway

variable {order : List TypeId}

theorem mem_of_linksTo (h : u.TakenAway order) (hrange : u.HandlesInRange) (hlink : u.LinksTo i j)
    (hj : j ∈ order) : i ∈ order := by
  by_contra hi
  have hj' : j < u.types.size := hrange.links_lt (mem_links_iff.2 hlink)
  exact (h.linked j hj').2 ⟨i, hi, hlink⟩ hj

theorem chain (h : u.TakenAway order) (hrange : u.HandlesInRange) (hchain : TransGen u.LinksTo i j)
    (hj : j ∈ order) : i ∈ order ∧ order.idxOf i < order.idxOf j := by
  induction hchain using TransGen.head_induction_on with
  | single hlink =>
    have hi := h.mem_of_linksTo hrange hlink hj
    exact ⟨hi, h.ordered.idxOf_lt (mem_links_iff.2 hlink) hi hj⟩
  | head hlink _ ih =>
    have hi := h.mem_of_linksTo hrange hlink ih.1
    exact ⟨hi, Nat.lt_trans (h.ordered.idxOf_lt (mem_links_iff.2 hlink) hi ih.1) ih.2⟩

/-- From a type that was not `TakenAway` one can go back along links for ever, and so comes round to
a cycle. -/
theorem behind (h : u.TakenAway order) (hi : i < u.types.size) (hleft : i ∉ order) :
    u.Behind i := by
  have hwalks : ∀ n i, i < u.types.size → i ∉ order → Walks (Function.swap u.LinksTo) n i := by
    intro n
    induction n with
    | zero => exact fun _ _ _ => trivial
    | succ n ih =>
      intro i hi hleft
      obtain ⟨j, hj, hlink⟩ := (h.linked i hi).1 hleft
      exact ⟨j, hlink, ih j hlink.lt hj⟩
  have hrecurs : Recurs (Function.swap u.LinksTo) i :=
    (hwalks (u.types.size + 1) i hi hleft).recurs (f := id) (fun _ _ hlink => hlink.lt)
      (fun _ _ _ _ _ _ heq => heq) (Nat.lt_succ_self _)
  obtain ⟨k, hreach, hcycle⟩ := hrecurs
  exact ⟨k, transGen_swap.1 hcycle, reflTransGen_swap.1 hreach⟩

private theorem not_mem_iff (h : u.TakenAway order) (hrange : u.HandlesInRange)
    (hi : i < u.types.size) :
    i ∉ order ↔ u.Behind i := by
  constructor
  · exact h.behind hi
  · rintro ⟨k, hcycle, hreach⟩ hmem
    -- What leads to a type that was taken away went before it, but no type goes before itself.
    have hk : k ∈ order := by
      rcases reflTransGen_iff_eq_or_transGen.1 hreach with rfl | hchain
      · exact hmem
      · exact (h.chain hrange hchain hmem).1
    exact Nat.lt_irrefl _ (h.chain hrange hcycle hk).2

end TakenAway

private theorem HandlesInRange.onCycle_lt (h : u.HandlesInRange) (hcycle : u.OnCycle i) :
    i < u.types.size := by
  obtain ⟨j, -, hlink⟩ := TransGen.tail'_iff.1 hcycle
  exact h.links_lt (mem_links_iff.2 hlink)

private theorem HandlesInRange.behind_lt (h : u.HandlesInRange) (hi : u.Behind i) :
    i < u.types.size := by
  obtain ⟨k, hcycle, hreach⟩ := hi
  cases hreach with
  | refl => exact h.onCycle_lt hcycle
  | tail _ hlink => exact h.links_lt (mem_links_iff.2 hlink)

private theorem HandlesInRange.firstTypeCycle?_eq_some_iff (h : u.HandlesInRange) :
    u.firstTypeCycle? = some i ↔ u.Behind i ∧ ∀ j < i, ¬ u.Behind j := by
  obtain ⟨order, htaken, hfirst⟩ := h.exists_takenAway
  rw [hfirst, List.find?_range_eq_some]
  simp only [decide_eq_true_eq, List.mem_range, Bool.not_eq_true', decide_eq_false_iff_not]
  constructor
  · rintro ⟨hleft, hi, hbefore⟩
    refine ⟨htaken.behind hi hleft, fun j hj hbehind => ?_⟩
    exact hbefore j hj ((htaken.not_mem_iff h (h.behind_lt hbehind)).2 hbehind)
  · rintro ⟨hbehind, hbefore⟩
    have hi := h.behind_lt hbehind
    refine ⟨(htaken.not_mem_iff h hi).2 hbehind, hi, fun j hj hleft => ?_⟩
    exact hbefore j hj (htaken.behind (Nat.lt_trans hj hi) hleft)

end TranslationUnit

/-- If all handles are in range, `firstTypeCycle?` reports the first type that is `Behind` a cycle:
on one, or reached from one by links. It is `OnCycle` itself exactly if a type on a cycle comes no
later: if all of those come later, the report is about a type that does not refer back to itself. -/
theorem firstTypeCycle?_reports {u : TranslationUnit} (h : u.HandlesInRange) (i : TypeId) :
    (u.firstTypeCycle? = some i ↔ u.Behind i ∧ ∀ j < i, ¬ u.Behind j) ∧
    (u.firstTypeCycle? = some i → (u.OnCycle i ↔ ∃ k ≤ i, u.OnCycle k)) := by
  refine ⟨h.firstTypeCycle?_eq_some_iff,
    fun hreport => ⟨fun hcycle => ⟨i, Nat.le_refl i, hcycle⟩, ?_⟩⟩
  rintro ⟨k, hle, hcycle⟩
  have hfirst := (h.firstTypeCycle?_eq_some_iff.1 hreport).2
  rcases Nat.lt_or_eq_of_le hle with hlt | rfl
  · exact absurd hcycle.behind (hfirst k hlt)
  · exact hcycle

/-- A type that is an attributed form of itself, with an integer as its canonical form. -/
def selfAttributedUnit : TranslationUnit :=
  { filePath := "a.h"
    target := { triple := "x86_64-unknown-linux-gnu", pointerBits := 64 }
    cursors := #[
      { kind := .translationUnit, spelling := "a.h" },
      { kind := .noDeclFound }]
    types := #[
      { kind := .invalid },
      { kind := .int, spelling := "int", size := 4, align := 4 },
      { kind := .attributed, spelling := "T", modified := some 2, canonical := some 1 }] }

theorem selfAttributedUnit_reports : selfAttributedUnit.HandlesInRange ∧
    selfAttributedUnit.firstTypeCycle? = some 1 ∧ selfAttributedUnit.Behind 1 ∧
    selfAttributedUnit.OnCycle 2 ∧ ¬ selfAttributedUnit.OnCycle 1 := by
  have hrange : selfAttributedUnit.HandlesInRange := ⟨by decide, by decide⟩
  have hreport : selfAttributedUnit.firstTypeCycle? = some 1 := by decide +kernel
  have hcycle : selfAttributedUnit.OnCycle 2 := .single (.modified rfl rfl)
  have hreports := firstTypeCycle?_reports hrange 1
  refine ⟨hrange, hreport, (hreports.1.1 hreport).1, hcycle, fun hint => ?_⟩
  obtain ⟨j, hlink, -⟩ := TransGen.head'_iff.1 hint
  have hlinks : selfAttributedUnit.links 1 = [] := by decide
  have hj := TranslationUnit.mem_links_iff.2 hlink
  rw [hlinks] at hj
  cases hj

end HeaderSurvey
