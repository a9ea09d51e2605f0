import HeaderSurvey.Unit.Basic

/-! The links from type to type that a survey may follow, and the search for a cycle among them. The
search takes away, one after the other, types that no remaining type links to; whatever cannot be
taken away lies on a cycle or behind one. -/
namespace HeaderSurvey

/-- The counters `counts`, one for each type, and the types that are `ready` to be taken away. -/
structure Elimination where
  counts : List Int
  ready : List TypeId
deriving Repr

namespace Elimination

/-- A link to `target` goes away; the last one makes it ready. -/
def release (s : Elimination) (target : TypeId) : Elimination :=
  let counts := s.counts.modify target (· - 1)
  if counts[target]? = some 0 then ⟨counts, target :: s.ready⟩ else ⟨counts, s.ready⟩

/-- Number of links that the counters stand for. -/
def total : List Int → Nat
  | [] => 0
  | n :: counts => n.toNat + total counts

/-- Ready types and links that may still make a type ready. -/
def weight (s : Elimination) : Nat := s.ready.length + total s.counts

private theorem total_modify_le (counts : List Int) (i : Nat) :
    total (counts.modify i (· - 1)) ≤ total counts := by
  induction counts generalizing i with
  | nil => simp
  | cons n counts ih =>
    cases i with
    | zero =>
      simp only [List.modify_zero_cons, total]
      omega
    | succ i =>
      have := ih i
      simp only [List.modify_succ_cons, total]
      omega

private theorem total_modify_lt {counts : List Int} {i : Nat}
    (h : (counts.modify i (· - 1))[i]? = some 0) :
    total (counts.modify i (· - 1)) < total counts := by
  induction counts generalizing i with
  | nil => simp at h
  | cons n counts ih =>
    cases i with
    | zero =>
      simp only [List.modify_zero_cons, List.getElem?_cons_zero, Option.some.injEq] at h
      simp only [List.modify_zero_cons, total]
      omega
    | succ i =>
      simp only [List.modify_succ_cons, List.getElem?_cons_succ] at h
      have := ih h
      simp only [List.modify_succ_cons, total]
      omega

theorem release_weight_le (s : Elimination) (target : TypeId) :
    (s.release target).weight ≤ s.weight := by
  unfold release weight
  dsimp only
  split
  · next h =>
    have := total_modify_lt h
    simp only [List.length_cons]
    omega
  · have := total_modify_le s.counts target
    simp only
    omega

theorem foldl_release_weight_le (targets : List TypeId) (s : Elimination) :
    (targets.foldl release s).weight ≤ s.weight := by
  induction targets generalizing s with
  | nil => exact Nat.le_refl _
  | cons t targets ih => exact Nat.le_trans (ih _) (release_weight_le s t)

/-- Takes away `ready` types, latest first, until none is ready. -/
def run (links : TypeId → List TypeId) (s : Elimination) : Elimination :=
  match s with
  | ⟨counts, []⟩ => ⟨counts, []⟩
  | ⟨counts, i :: ready⟩ => run links ((links i).foldl release ⟨counts, ready⟩)
termination_by s.weight
decreasing_by
  have := foldl_release_weight_le (links i) ⟨counts, ready⟩
  simp only [weight, List.length_cons] at this ⊢
  omega

end Elimination

namespace TranslationUnit

/-- Links to other types through the declaration of `t`: what the declaration is of, and what it is
another name for. -/
def declaredLinks (u : TranslationUnit) (t : TypeEntry) : List TypeId :=
  match t.declaration.bind (u.cursors[·]?) with
  | some c => c.type :: c.underlying.toList
  | none => []

/-- The links of the type `i`, with repetitions. A type may be its own canonical type or the type of
its declaration; such a link is none. -/
def links (u : TranslationUnit) (i : TypeId) : List TypeId :=
  match u.types[i]? with
  | none => []
  | some t =>
    t.pointee.toList ++ t.element.toList ++ t.modified.toList ++ t.named.toList ++
      (t.canonical.toList ++ u.declaredLinks t).filter (· ≠ i)

/-- Number of `links` to `i` from all types. -/
def inDegree (u : TranslationUnit) (i : TypeId) : Nat :=
  ((List.range u.types.size).flatMap u.links).count i

/-- The counters before anything is taken away. -/
def elimination (u : TranslationUnit) : Elimination :=
  let numbers := List.range u.types.size
  { counts := numbers.map fun i => (u.inDegree i : Int)
    ready := (numbers.filter fun i => u.inDegree i = 0).reverse }

/-- The first type that `Elimination.run` does not take away. -/
def firstTypeCycle? (u : TranslationUnit) : Option TypeId :=
  let counts := (u.elimination.run u.links).counts
  (List.range u.types.size).find? fun i => 0 < counts[i]?.getD 0

end TranslationUnit
end HeaderSurvey
