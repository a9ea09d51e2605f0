import HeaderSurvey.Proofs.Building
import HeaderSurvey.Proofs.Termination

/-! The description of a reference does not depend on what a session has met before. A reference
offers a node on its way, and whether that one is new, a repetition or filtered has no say in the
use that describes the reference. -/
namespace HeaderSurvey

/-- `dangling` or `unending`: a look-up outside an arena, or a walk that was given up. -/
def SurveyError.Wild (e : SurveyError) : Prop := ¬ e.Tame True

theorem fst_lift_modify {σ α : Type} (r : Except SurveyError α) (g : α → σ → σ) (s : σ) :
    ((do let a ← (liftM r : StepM σ α); modify (g a); return a : StepM σ α) s).1 = r := by
  cases r with
  | error e => rfl
  | ok a => rfl

namespace TranslationUnit

variable {u : TranslationUnit}

theorem typeAt_wild (t : TypeId) : OnlyErrors SurveyError.Wild (u.typeAt t) := by
  unfold typeAt
  split
  · exact .ok _
  · exact .error fun h => h.1 _ rfl

theorem cursorAt_wild (c : CursorId) : OnlyErrors SurveyError.Wild (u.cursorAt c) := by
  unfold cursorAt
  split
  · exact .ok _
  · exact .error fun h => h.1 _ rfl

end TranslationUnit

namespace Context

open TranslationUnit

variable {x : Context} {node : VisitNode} {s s' : Session} {kind : Kind} {name : String}
  {t : TypeId}

/-! ## Offers -/

theorem acceptsTypeWithin_wild (layers : Nat) (c : Cursor) (entry : TypeEntry) :
    OnlyErrors SurveyError.Wild (x.acceptsTypeWithin layers c entry) := by
  induction layers generalizing c entry with
  | zero => exact .error fun h => h.2 trivial rfl
  | succ layers ih =>
    unfold acceptsTypeWithin
    dsimp only
    split
    · exact .ok _
    · refine (typeAt_wild _).bind fun inner _ => ?_
      refine (cursorAt_wild _).bind fun declaration _ => ?_
      split
      · exact .ok _
      · exact ih declaration inner

private theorem accepts_wild : OnlyErrors SurveyError.Wild (x.accepts node) := by
  refine (cursorAt_wild _).bind fun cursor _ => ?_
  split
  · exact (typeAt_wild _).bind fun entry _ => acceptsTypeWithin_wild _ _ _
  · exact .ok _

theorem offer_wild : OnlyFails SurveyError.Wild (x.offer node) s :=
  offer_onlyFails (cursorAt_wild _) accepts_wild

theorem offer_not_fails (hvalid : x.unit.Valid) (hn : node.InRange x.unit) {e : SurveyError} :
    ¬ Fails (x.offer node) s e s' := by
  intro h
  obtain ⟨rank, hranked⟩ := hvalid.exists_ranked
  exact offer_wild e s' h (offer_tame hranked hn e s' h)

/-! ## The description of a reference -/

/-- The `TypeUse` that `visit` gives for a reference, without a session. -/
def description (x : Context) (candidate : TypeId) (parent : Option String) (index : Nat) :
    Except SurveyError TypeUse := do
  let r ← x.resolve candidate parent index
  x.use r.1.kind r.1.typeName r.1.type r.2

variable {candidate : TypeId} {parent : Option String} {index : Nat}

/-- `visit` gives the `description`, unless the `offer` of the resolved node fails. -/
theorem visit_fst (candidate : TypeId) (parent : Option String) (index : Nat) (s : Session) :
    (x.visit candidate parent index s).1 = x.description candidate parent index ∨
      ∃ node container e t, x.resolve candidate parent index = .ok (node, container) ∧
        Fails (x.offer node) s e t ∧ (x.visit candidate parent index s).1 = .error e := by
  cases hresolve : x.resolve candidate parent index with
  | error e =>
    left
    simp only [visit, description, hresolve]
    rfl
  | ok r =>
    obtain ⟨node, container⟩ := r
    have hlift : Returns (liftM (x.resolve candidate parent index) : SurveyM (VisitNode × TypeId)) s
        (node, container) s := returns_lift.2 ⟨hresolve, rfl⟩
    have hdescribe := fst_lift_modify (x.use node.kind node.typeName node.type container)
      fun use => (Session.record · (.described use))
    have hdescription : x.description candidate parent index =
        x.use node.kind node.typeName node.type container := by
      rw [description, hresolve]
      rfl
    rw [visit, hlift.bind_eq, hdescription]
    dsimp only
    split
    · rcases returns_or_fails (x.offer node) s with ⟨verdict, t, hoffer⟩ | ⟨e, t, hoffer⟩
      · left
        rw [hoffer.bind_eq]
        exact hdescribe t
      · right
        refine ⟨node, container, e, t, rfl, hoffer, ?_⟩
        rw [hoffer.bind_eq]
    · exact Or.inl (hdescribe s)

private theorem visit_fst_of_tame (h : Tame True (x.visit candidate parent index s).1) :
    (x.visit candidate parent index s).1 = x.description candidate parent index := by
  rcases visit_fst candidate parent index s with heq | ⟨node, container, e, t, -, hoffer, heq⟩
  · exact heq
  · exact absurd (h e heq) (offer_wild e t hoffer)

private theorem visit_fst_of_valid (h : x.unit.Valid) :
    (x.visit candidate parent index s).1 = x.description candidate parent index := by
  rcases visit_fst candidate parent index s with heq | ⟨node, container, e, t, hresolve, hoffer, -⟩
  · exact heq
  · exact absurd hoffer (offer_not_fails h (resolve_sound hresolve).inRange)

/-! ## References to the same type -/

theorem layerOf_congr {holder holder' : TypeEntry} (hsize : holder.size = holder'.size)
    (halign : holder.align = holder'.align) (hcount : holder.arraySize = holder'.arraySize)
    (entry : TypeEntry) : x.layerOf kind name entry holder = x.layerOf kind name entry holder' := by
  simp only [layerOf, shownSize, hsize, halign, hcount]

/-- `use` reads of its container only `size`, `align` and `arraySize`. -/
theorem use_congr {container container' : TypeId} {holder holder' : TypeEntry}
    (h : x.unit.typeAt container = .ok holder) (h' : x.unit.typeAt container' = .ok holder')
    (hsize : holder.size = holder'.size) (halign : holder.align = holder'.align)
    (hcount : holder.arraySize = holder'.arraySize) :
    x.use kind name t container = x.use kind name t container' := by
  unfold use useWithin
  rw [h, h']
  refine bind_congr fun t' => bind_congr fun entry => ?_
  change (x.layerOf kind name entry holder).bind _ = (x.layerOf kind name entry holder').bind _
  rw [layerOf_congr hsize halign hcount]

/-- `visitNode` reads the parent for `typeName` only. -/
theorem visitNode_parent {parent' : Option String} {index' : Nat} (c : CursorId)
    (h : x.typeName kind t parent index = x.typeName kind t parent' index') :
    x.visitNode kind name c t parent index =
      (fun node => { node with parent }) <$> x.visitNode kind name c t parent' index' := by
  unfold visitNode
  rw [h]
  simp only [map_bind, map_pure]

/-- `resolve` of a reference that is not classified as `typeAlias` takes one step. -/
theorem resolve_of_ne_alias (hclass : x.unit.classify candidate = .ok (kind, t))
    (hk : kind ≠ .typeAlias) :
    x.resolve candidate parent index = (do
      let c := (← x.unit.typeAt t).declarationId
      let declaration ← x.unit.cursorAt c
      let node ← x.visitNode kind declaration.spelling c t parent index
      return (if x.isOverridden node then { node with kind := .opaqueType } else node,
        candidate)) := by
  unfold resolve resolveWithin
  rw [hclass]
  refine bind_congr (x := x.unit.typeAt t) fun entry => ?_
  refine bind_congr (x := x.unit.cursorAt entry.declarationId) fun declaration => ?_
  refine bind_congr (m := Except SurveyError) fun node => ?_
  have hnamed : x.namedBy none node = .ok node := by
    unfold namedBy
    split
    · contradiction
    · rfl
  rw [hnamed]
  change (if x.isOverridden node then _ else if kind = .typeAlias then _ else _) = _
  rw [if_neg hk]
  split <;> rfl

/-- A reference to the type `candidate` by the part number `index` of a `parent`. -/
structure Reference where
  candidate : TypeId
  parent : Option String
  index : Nat
deriving DecidableEq, Repr

/-- Two references that are classified as the same type, which is no alias and has a name that does
not depend on the parent, by types of the same layout. -/
structure Interchangeable (x : Context) (a b : Reference) : Prop where
  classified : ∃ kind t, x.unit.classify a.candidate = .ok (kind, t) ∧
    x.unit.classify b.candidate = .ok (kind, t) ∧ kind ≠ .typeAlias ∧
    x.typeName kind t a.parent a.index = x.typeName kind t b.parent b.index
  sameLayout : ∃ entry entry', x.unit.typeAt a.candidate = .ok entry ∧
    x.unit.typeAt b.candidate = .ok entry' ∧ entry.size = entry'.size ∧ entry.align = entry'.align ∧
    entry.arraySize = entry'.arraySize

private theorem Interchangeable.description_eq {a b : Reference} (h : x.Interchangeable a b) :
    x.description a.candidate a.parent a.index = x.description b.candidate b.parent b.index := by
  obtain ⟨kind, t, ha, hb, hk, hname⟩ := h.classified
  obtain ⟨entry, entry', hentry, hentry', hsize, halign, hcount⟩ := h.sameLayout
  unfold description
  rw [resolve_of_ne_alias ha hk, resolve_of_ne_alias hb hk]
  simp only [bind_assoc, pure_bind]
  refine bind_congr fun named => bind_congr fun declaration => ?_
  rw [visitNode_parent _ hname, bind_map_left]
  refine bind_congr fun node => ?_
  have hoverridden : x.isOverridden { node with parent := a.parent } = x.isOverridden node := rfl
  rw [hoverridden]
  split
  · exact use_congr hentry hentry' hsize halign hcount
  · exact use_congr hentry hentry' hsize halign hcount

/-- Whatever the sessions `s` and `s'` hold, `visit` describes a reference alike, and so it does two
references that are `Interchangeable`. In a unit with no `fault?` the results are the same, be they
uses or errors; in any other they are the same unless one of them is `SurveyError.dangling` or
`SurveyError.unending`. -/
theorem visit_stateless (x : Context) {a b : Reference} (h : a = b ∨ x.Interchangeable a b)
    (s s' : Session)
    (hends : x.unit.fault? = none ∨ Tame True (x.visit a.candidate a.parent a.index s).1 ∧
      Tame True (x.visit b.candidate b.parent b.index s').1) :
    (x.visit a.candidate a.parent a.index s).1 = (x.visit b.candidate b.parent b.index s').1 := by
  have hdescription : x.description a.candidate a.parent a.index =
      x.description b.candidate b.parent b.index := by
    rcases h with rfl | h
    · rfl
    · exact h.description_eq
  rcases hends with hvalid | ⟨ha, hb⟩
  · have hvalid := valid_of_fault? hvalid
    rw [visit_fst_of_valid hvalid, visit_fst_of_valid hvalid, hdescription]
  · rw [visit_fst_of_tame ha, visit_fst_of_tame hb, hdescription]

end Context

/-- A pointer to a type that is a pointer to nothing. Another type is spelled like it. -/
def looseUnit : TranslationUnit :=
  { filePath := "a.h"
    target := { triple := "x86_64-unknown-linux-gnu", pointerBits := 64 }
    cursors := #[
      { kind := .translationUnit, spelling := "a.h" },
      { kind := .noDeclFound },
      { kind := .typedefDecl, spelling := "T" }]
    types := #[
      { kind := .invalid },
      { kind := .pointer, spelling := "T *", size := 8, align := 8, pointee := some 2 },
      { kind := .pointer, spelling := "T", declaration := some 2, size := 8, align := 8,
        pointee := some 99 },
      { kind := .int, spelling := "T *", size := 4, align := 4 }] }

def looseContext : Context := .ofSettings looseUnit { switches := { opaqueTypes := ["T *"] } } 64

/-- What the pointer leads to is looked up in an empty session only, not once its name has been
offered. -/
theorem visit_looseContext_differs : ∃ node s,
    looseContext.visitNode .opaqueType "T *" 2 3 none 0 = .ok node ∧
    Returns (looseContext.offer node) {} .accepted s ∧
    (looseContext.visit 1 none 0 s).1.isOk = true ∧
    (looseContext.visit 1 none 0 {}).1 ≠ (looseContext.visit 1 none 0 s).1 := by
  exact ⟨_, _, rfl, rfl, by decide +kernel, by decide +kernel⟩

/-- A record, and a mention of it with its tag. -/
def mentionedSteps : List Builder.Step :=
  [.primitive .int, .record .struct "Foo" [("a", 1)], .elaborated 2]

def mentionedContext : Context :=
  .ofSettings (Builder.build "api.h" "x86_64-unknown-linux-gnu" 64 mentionedSteps) {} 64

/-- A function and a record refer to the same type, which is new to the first and known to the
second. -/
theorem visit_mentionedContext_stateless : mentionedContext.unit.fault? = none ∧
    mentionedContext.Interchangeable ⟨2, some "f", 0⟩ ⟨3, some "Bar", 3⟩ ∧
    ((mentionedContext.visit 2 (some "f") 0 {}).1.isOk = true ∧
      (mentionedContext.visit 2 (some "f") 0 {}).2 ≠ {}) ∧
    (mentionedContext.visit 2 (some "f") 0 {}).1 =
      (mentionedContext.visit 3 (some "Bar") 3 (mentionedContext.visit 2 (some "f") 0 {}).2).1 := by
  have hvalid : mentionedContext.unit.fault? = none := by decide +kernel
  have h : mentionedContext.Interchangeable ⟨2, some "f", 0⟩ ⟨3, some "Bar", 3⟩ := by
    refine ⟨⟨.struct, 2, by rfl, by rfl, by decide, by decide +kernel⟩, ?_⟩
    exact ⟨_, _, by rfl, by rfl, by decide +kernel, by decide +kernel, by decide +kernel⟩
  refine ⟨hvalid, h, ⟨by decide +kernel, by decide +kernel⟩, ?_⟩
  exact Context.visit_stateless mentionedContext (.inr h) {} _ (.inl hvalid)

end HeaderSurvey
