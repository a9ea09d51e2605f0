import HeaderSurvey.Proofs.Validity

/-! The search for a cycle among type links is exact: it finds nothing exactly if no chain of links
comes back to its start. The search ends, and at any time its counters say how many links are left,
so none of them falls below zero. -/
namespace HeaderSurvey

namespace Elimination

variable {n : Nat} {links : TypeId → List TypeId} {s : Elimination}

/-- A moment of the search: the `pending` links of the type that was taken up last, and all the
rest. -/
structure Stage where
  pending : List TypeId
  rest : Elimination

/-- One step of the search: the `pending` links of the type at hand go away one by one, then the
next `ready` type is taken up. -/
inductive Step (links : TypeId → List TypeId) : Stage → Stage → Prop where
  | takeUp {counts i ready} : Step links ⟨[], ⟨counts, i :: ready⟩⟩ ⟨links i, ⟨counts, ready⟩⟩
  | release {target targets s} : Step links ⟨target :: targets, s⟩ ⟨targets, s.release target⟩

/-- No search goes on for ever: a type that is taken up makes the `weight` less, and a link that
goes away leaves fewer of them without adding to it. -/
theorem step_wellFounded (links : TypeId → List TypeId) :
    WellFounded fun after before => Step links before after := by
  have hwf : WellFounded (InvImage (Prod.Lex (· < ·) (· < ·))
      fun stage : Stage => (stage.rest.weight, stage.pending.length)) :=
    InvImage.wf _ (WellFounded.prod_lex Nat.lt_wfRel.wf Nat.lt_wfRel.wf)
  refine Subrelation.wf (fun {after before} hstep => ?_) hwf
  cases hstep with
  | takeUp =>
    refine Prod.Lex.left _ _ ?_
    simp only [weight, List.length_cons]
    omega
  | @release target targets s =>
    rcases Nat.lt_or_eq_of_le (release_weight_le s target) with hlt | heq
    · exact Prod.Lex.left _ _ hlt
    · exact Prod.Lex.right' _ (Nat.le_of_eq heq) (Nat.lt_succ_self _)

private theorem releaseAll_steps (targets : List TypeId) (s : Elimination) :
    Relation.ReflTransGen (Step links) ⟨targets, s⟩ ⟨[], targets.foldl release s⟩ := by
  induction targets generalizing s with
  | nil => exact .refl
  | cons target targets ih => exact .head .release (ih _)

/-- `Elimination.run` is where the `Step`s of the search lead to. -/
theorem run_steps (links : TypeId → List TypeId) (s : Elimination) :
    Relation.ReflTransGen (Step links) ⟨[], s⟩ ⟨[], s.run links⟩ := by
  induction s using run.induct links with
  | case1 counts => rw [run]
  | case2 counts i ready ih =>
    rw [run]
    exact .head .takeUp ((releaseAll_steps _ _).trans ih)

private theorem run_ready (links : TypeId → List TypeId) (s : Elimination) :
    (s.run links).ready = [] := by
  induction s using run.induct links with
  | case1 counts => rw [run]
  | case2 counts i ready ih =>
    rw [run]
    exact ih

def Balanced (n : Nat) (links : TypeId → List TypeId) (stage : Stage) : Prop :=
  ∃ removed, Accounts n removed (stage.pending ++ openTargets links n removed) stage.rest ∧
    Ordered links removed ∧ ∀ target ∈ stage.pending, target < n

theorem Balanced.step (hlinks : ∀ i < n, ∀ j ∈ links i, j < n) {before after : Stage}
    (h : Balanced n links before) (hstep : Step links before after) : Balanced n links after := by
  obtain ⟨removed, haccounts, hordered, hpending⟩ := h
  cases hstep with
  | @takeUp counts i ready =>
    obtain ⟨hi, haccounts', hordered'⟩ := haccounts.takeUp hordered
    exact ⟨removed ++ [i], haccounts', hordered', hlinks i hi⟩
  | @release target targets s =>
    refine ⟨removed, haccounts.release (hpending target List.mem_cons_self), hordered, ?_⟩
    exact fun t ht => hpending t (List.mem_cons_of_mem target ht)

theorem Balanced.steps (hlinks : ∀ i < n, ∀ j ∈ links i, j < n) {before after : Stage}
    (h : Balanced n links before) (hsteps : Relation.ReflTransGen (Step links) before after) :
    Balanced n links after := by
  induction hsteps with
  | refl => exact h
  | tail _ hlast ih => exact ih.step hlinks hlast

/-- The counters are natural numbers, and a link is only counted down where one is left. -/
structure Sound (n : Nat) (stage : Stage) : Prop where
  counters : ∀ i < n, ∃ left : Nat, stage.rest.counts[i]? = some (left : Int)
  positive : ∀ target ∈ stage.pending, ∃ left : Nat,
    stage.rest.counts[target]? = some (left + 1 : Int)

theorem Balanced.sound {stage : Stage} (h : Balanced n links stage) : Sound n stage := by
  obtain ⟨removed, haccounts, -, hpending⟩ := h
  refine ⟨fun i hi => ⟨_, haccounts.count i hi⟩, fun target htarget => ?_⟩
  have hpos : 0 < (stage.pending ++ openTargets links n removed).count target :=
    List.count_pos_iff.2 (List.mem_append_left _ htarget)
  obtain ⟨left, hleft⟩ := Nat.exists_eq_add_one_of_ne_zero (Nat.ne_of_gt hpos)
  refine ⟨left, ?_⟩
  rw [haccounts.count target (hpending target htarget), hleft]
  rfl

end Elimination

namespace TranslationUnit

variable {u : TranslationUnit}

/-- The links from type to type that the search looks at. A pointee, an element, a modified or a
named type may be `i` itself; a canonical type, the type of the declaration and what the declaration
is another name for only count if they are others. -/
inductive LinksTo (u : TranslationUnit) (i : TypeId) : TypeId → Prop where
  | pointee {t j} (entry : u.types[i]? = some t) (link : t.pointee = some j) : LinksTo u i j
  | element {t j} (entry : u.types[i]? = some t) (link : t.element = some j) : LinksTo u i j
  | modified {t j} (entry : u.types[i]? = some t) (link : t.modified = some j) : LinksTo u i j
  | named {t j} (entry : u.types[i]? = some t) (link : t.named = some j) : LinksTo u i j
  | canonical {t j} (entry : u.types[i]? = some t) (link : t.canonical = some j) (other : j ≠ i) :
      LinksTo u i j
  | declared {t id c} (entry : u.types[i]? = some t) (declaration : t.declaration = some id)
      (found : u.cursors[id]? = some c) (other : c.type ≠ i) : LinksTo u i c.type
  | underlying {t id c j} (entry : u.types[i]? = some t) (declaration : t.declaration = some id)
      (found : u.cursors[id]? = some c) (link : c.underlying = some j)
      (other : j ≠ i) : LinksTo u i j

theorem mem_links_iff {i j : TypeId} : j ∈ u.links i ↔ u.LinksTo i j := by
  constructor
  · intro hj
    unfold links at hj
    split at hj
    · cases hj
    · next t ht =>
      simp only [List.mem_append, Option.mem_toList, List.mem_filter, decide_eq_true_eq] at hj
      rcases hj with (((hj | hj) | hj) | hj) | ⟨hj | hj, hother⟩
      · exact .pointee ht hj
      · exact .element ht hj
      · exact .modified ht hj
      · exact .named ht hj
      · exact .canonical ht hj hother
      · unfold declaredLinks at hj
        split at hj
        · next c hc =>
          obtain ⟨id, hid, hc⟩ := Option.bind_eq_some_iff.1 hc
          rcases List.mem_cons.1 hj with rfl | hj
          · exact .declared ht hid hc hother
          · exact .underlying ht hid hc (by simpa using hj) hother
        · cases hj
  · intro hlink
    cases hlink with
    | pointee entry link | element entry link | modified entry link | named entry link =>
      simp [links, entry, link]
    | canonical entry link other => simp [links, entry, link, other]
    | declared entry declaration found other =>
      simp [links, declaredLinks, entry, declaration, found, other]
    | underlying entry declaration found link other =>
      simp [links, declaredLinks, entry, declaration, found, link, other]

theorem LinksTo.lt {i j : TypeId} (h : u.LinksTo i j) : i < u.types.size := by
  cases h <;> exact (Array.getElem?_eq_some_iff.1 (by assumption)).1

/-- No chain of `LinksTo` comes back to its start. -/
def Acyclic (u : TranslationUnit) : Prop := ∀ i, ¬ Relation.TransGen u.LinksTo i i

theorem acyclic_of_firstTypeCycle? (hu : u.HandlesInRange) (h : u.firstTypeCycle? = none) :
    u.Acyclic := by
  obtain ⟨rank, -, hfalls⟩ := exists_rank (fun i _ j hj => hu.links_lt hj) h
  have hchain : ∀ i j, Relation.TransGen u.LinksTo i j → rank j < rank i := by
    intro i j hij
    induction hij with
    | single hlink => exact hfalls i hlink.lt _ (mem_links_iff.2 hlink)
    | tail _ hlink ih => exact Nat.lt_trans (hfalls _ hlink.lt _ (mem_links_iff.2 hlink)) ih
  exact fun i hcycle => Nat.lt_irrefl _ (hchain i i hcycle)

theorem firstTypeCycle?_of_acyclic (hu : u.HandlesInRange) (h : u.Acyclic) :
    u.firstTypeCycle? = none := by
  classical
  let reached : TypeId → Finset TypeId :=
    fun i => (Finset.range u.types.size).filter (Relation.TransGen u.LinksTo i)
  have hfalls : ∀ i < u.types.size, ∀ j ∈ u.links i, (reached j).card < (reached i).card := by
    intro i hi j hj
    have hlink := mem_links_iff.1 hj
    have hsub : reached j ⊆ reached i := by
      intro k hk
      simp only [reached, Finset.mem_filter] at hk ⊢
      exact ⟨hk.1, .head hlink hk.2⟩
    refine Finset.card_lt_card ((Finset.ssubset_iff_of_subset hsub).2 ⟨j, ?_, ?_⟩)
    · simp only [reached, Finset.mem_filter, Finset.mem_range]
      exact ⟨hu.links_lt hj, .single hlink⟩
    · simp only [reached, Finset.mem_filter, not_and]
      exact fun _ => h j
  exact firstTypeCycle?_eq_none (fun i _ j hj => hu.links_lt hj) hfalls

/-- The `Stage` at which the search begins. -/
def search (u : TranslationUnit) : Elimination.Stage := ⟨[], u.elimination⟩

private theorem search_balanced (u : TranslationUnit) :
    Elimination.Balanced u.types.size u.links u.search :=
  ⟨[], u.elimination_accounts, ⟨List.Pairwise.nil, by simp⟩, by simp [search]⟩

end TranslationUnit

/-- If all handles are in range, `firstTypeCycle?` finds nothing exactly if the unit is `Acyclic`.
The `Step`s of the search are well-founded and lead to `Elimination.run`, from which the answer is
read off. On the way no counter falls below zero, however often one type links to another: a link is
only counted down where one is left. -/
theorem firstTypeCycle?_exact {u : TranslationUnit} (h : u.HandlesInRange) :
    (u.firstTypeCycle? = none ↔ u.Acyclic) ∧
    (WellFounded fun after before => Elimination.Step u.links before after) ∧
    Relation.ReflTransGen (Elimination.Step u.links) u.search ⟨[], u.elimination.run u.links⟩ ∧
    (∀ stage, ¬ Elimination.Step u.links ⟨[], u.elimination.run u.links⟩ stage) ∧
    ∀ stage, Relation.ReflTransGen (Elimination.Step u.links) u.search stage →
      Elimination.Sound u.types.size stage := by
  refine ⟨⟨u.acyclic_of_firstTypeCycle? h, u.firstTypeCycle?_of_acyclic h⟩,
    Elimination.step_wellFounded u.links, Elimination.run_steps u.links _, ?_, ?_⟩
  · intro stage hstep
    generalize hlast : (⟨[], u.elimination.run u.links⟩ : Elimination.Stage) = last at hstep
    cases hstep with
    | takeUp =>
      have hready := Elimination.run_ready u.links u.elimination
      rw [(Elimination.Stage.mk.inj hlast).2] at hready
      cases hready
    | release => cases hlast
  · intro stage hsteps
    exact (u.search_balanced.steps (fun i _ j hj => h.links_lt hj) hsteps).sound

/-- A typedef of a type that may link to it, with some of the links given twice and some to the type
itself. -/
def linkedUnit (target : TypeId) : TranslationUnit :=
  { filePath := "links.h"
    target := { triple := "x86_64-unknown-linux-gnu", pointerBits := 64 }
    cursors := #[
      { kind := .translationUnit, spelling := "links.h", children := [2] },
      { kind := .noDeclFound },
      { kind := .typedefDecl, spelling := "link", type := 3, underlying := some 2 }]
    types := #[
      { kind := .invalid },
      { kind := .int, spelling := "int", size := 4, align := 4 },
      { kind := .pointer, spelling := "int *", pointee := some target, element := some target,
        canonical := some 2 },
      { kind := .typedef, spelling := "link", declaration := some 2, named := some 2,
        canonical := some 2 }] }

theorem linkedUnit_exact :
    ((linkedUnit 1).HandlesInRange ∧ (linkedUnit 1).firstTypeCycle? = none ∧
      (linkedUnit 1).Acyclic) ∧
    (linkedUnit 3).HandlesInRange ∧ (linkedUnit 3).firstTypeCycle? ≠ none ∧
    ¬ (linkedUnit 3).Acyclic := by
  have hrange : (linkedUnit 1).HandlesInRange := ⟨by decide, by decide⟩
  have hrange' : (linkedUnit 3).HandlesInRange := ⟨by decide, by decide⟩
  have hnone : (linkedUnit 1).firstTypeCycle? = none := by decide +kernel
  have hsome : (linkedUnit 3).firstTypeCycle? ≠ none := by decide +kernel
  exact ⟨⟨hrange, hnone, (firstTypeCycle?_exact hrange).1.1 hnone⟩, hrange', hsome,
    fun hacyclic => hsome ((firstTypeCycle?_exact hrange').1.2 hacyclic)⟩

end HeaderSurvey
