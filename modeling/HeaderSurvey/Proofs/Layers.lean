import HeaderSurvey.Proofs.Resolution
import HeaderSurvey.Proofs.Safety

/-! Which uses of types have no end. The layers of a use are found one inside the other by pointee
and element links, each of which is classified. A chain of layers that follows links comes to an end
in a valid unit. One that does not end comes round to a layer that a missing link leads to: the link
stands for the invalid type, and the declaration of that type leads back up. -/
namespace HeaderSurvey

open Relation

/-- A type that is to be described: as which `kind`, under which `name`, and by which `container` it
was referred to. -/
structure Occurrence where
  kind : Kind
  name : String
  type : TypeId
  container : TypeId

theorem Tame.ne_unending {α : Type} {r : Except SurveyError α} (h : Tame True r) :
    r ≠ .error .unending :=
  fun herror => (h _ herror).2 trivial rfl

namespace TranslationUnit

variable {u : TranslationUnit} {t r : TypeId} {kind : Kind}

/-- `LinksTo` leads from a reference to what it is classified as, unless `Follows` comes to
`TypeId.invalid` on the way. -/
theorem Valid.classifies_linked (h : u.Valid) (hc : u.Classifies t kind r) :
    ReflTransGen u.LinksTo t r ∨
      ReflTransGen u.Follows t TypeId.invalid ∧ u.Classifies TypeId.invalid kind r := by
  -- A wrapper is taken off by a link, or by a step to the invalid type.
  have hinner : ∀ {t t' : TypeId} {kind : Kind} {r : TypeId}, u.Follows t t' →
      u.Classifies t' kind r →
      (TransGen u.LinksTo t t' ∨ t' = TypeId.invalid) →
      (ReflTransGen u.LinksTo t' r ∨
        ReflTransGen u.Follows t' TypeId.invalid ∧ u.Classifies TypeId.invalid kind r) →
      ReflTransGen u.LinksTo t r ∨
        ReflTransGen u.Follows t TypeId.invalid ∧ u.Classifies TypeId.invalid kind r := by
    intro t t' kind r hfollows hclass hstep ih
    rcases hstep with hlinked | rfl
    · rcases ih with hlinked' | ⟨hreach, hinvalid⟩
      · exact Or.inl (hlinked.to_reflTransGen.trans hlinked')
      · exact Or.inr ⟨.head hfollows hreach, hinvalid⟩
    · exact Or.inr ⟨.single hfollows, hclass⟩
  induction hc with
  | primitive declared | enum declared | record declared | pointerTypedef declared
  | typedef declared | function declared | pointer declared | array declared =>
    exact Or.inl (h.declared_linked declared)
  | attributed declared sort inner ih =>
    obtain ⟨-, -, -, he, -⟩ := declaredType_ok declared
    refine hinner (.attributed declared sort) inner ?_ ih
    exact h.linked_or_missing declared fun j hj => .modified (typeAt_eq_ok.1 he) hj
  | elaborated declared sort inner ih =>
    obtain ⟨-, -, -, he, -⟩ := declaredType_ok declared
    refine hinner (.elaborated declared sort) inner ?_ ih
    exact h.linked_or_missing declared fun j hj => .named (typeAt_eq_ok.1 he) hj
  | unexposed declared sort wrapped inner ih =>
    refine hinner (.unexposed declared sort wrapped) inner ?_ ih
    exact Or.inl (h.canonical_linked declared wrapped)

theorem Rootless.not_classifies (h0 : u.Rootless) (h : u.Valid) :
    ¬ u.Classifies TypeId.invalid kind r := by
  intro hc
  have hinvalid : ∀ d, u.declaredType TypeId.invalid = .ok d → d.entry.kind = .invalid :=
    fun d hd => (h0.declaredType h hd).2
  cases hc with
  | primitive declared sort | enum declared sort | record declared sort
  | pointerTypedef declared sort | typedef declared sort | function declared sort
  | pointer declared sort | array declared sort
  | attributed declared sort | elaborated declared sort | unexposed declared sort =>
    simp [hinvalid _ declared, TypeKind.isPrimitive, TypeKind.isFunction] at sort

end TranslationUnit

namespace Context

variable {x : Context} {o o' : Occurrence} {n : Nat}

/-- To describe `o`, `use` describes the other occurrence as what it leads to or is made of. -/
inductive Encloses (x : Context) (o : Occurrence) : Occurrence → Prop where
  | intro {t entry holder layer candidate kind type target}
      (bare : x.unit.unwrapAttributed o.type = .ok t) (found : x.unit.typeAt t = .ok entry)
      (held : x.unit.typeAt o.container = .ok holder)
      (layered : x.layerOf o.kind o.name entry holder = .ok layer)
      (leads : innerId? o.kind entry = some candidate)
      (classified : x.unit.classify candidate = .ok (kind, type))
      (spelled : x.unit.typeAt type = .ok target) :
      Encloses x o ⟨kind, stripTags target.spelling, type, candidate⟩

/-- The `use` of an occurrence, over at most that many `layers`. -/
def describe (x : Context) (layers : Nat) (o : Occurrence) : Except SurveyError TypeUse :=
  x.useWithin layers o.kind o.name o.type o.container

theorem Encloses.eq_of_container {p p' : Occurrence} (h : x.Encloses o o') (h' : x.Encloses p p')
    (heq : o'.container = p'.container) : o' = p' := by
  cases h with
  | intro _ _ _ _ _ classified spelled =>
    cases h' with
    | intro _ _ _ _ _ classified' spelled' =>
      dsimp only at heq
      subst heq
      cases classified.symm.trans classified'
      cases spelled.symm.trans spelled'
      rfl

theorem Encloses.inRange (hv : x.unit.Valid) (h : x.Encloses o o') :
    o'.type < x.unit.types.size ∧ o'.container < x.unit.types.size := by
  cases h with
  | intro _ found _ _ leads classified _ =>
    exact ⟨TranslationUnit.classify_lt classified, innerId?_inRange (hv.entry_inRange found) leads⟩

theorem Encloses.covered (h : x.Encloses o o') :
    ∃ entry, x.unit.typeAt o'.type = .ok entry ∧ o'.kind.covers entry.kind = true := by
  cases h with
  | intro _ _ _ _ _ classified _ => exact (TranslationUnit.classify_sound classified).covered

/-! ## Going on without an end -/

theorem describe_unending_succ (hv : x.unit.Valid) (ht : o.type < x.unit.types.size)
    (hc : o.container < x.unit.types.size) :
    x.describe (n + 1) o = .error .unending ↔
      ∃ o', x.Encloses o o' ∧ x.describe n o' = .error .unending := by
  constructor
  · intro h
    simp only [describe, useWithin, bind_eq_error_iff] at h
    rcases h with h | ⟨t, ht', h | ⟨entry, hentry, h | ⟨holder, hholder, h | ⟨layer, hlayer, h⟩⟩⟩⟩
    · exact absurd h (Tame.ne_unending (TranslationUnit.unwrapAttributed_tame ht))
    · exact absurd h (Tame.ne_unending (TranslationUnit.typeAt_tame (hv.unwrapAttributed_lt ht')))
    · exact absurd h (Tame.ne_unending (TranslationUnit.typeAt_tame hc))
    · exact absurd h (Tame.ne_unending (layerOf_tame hv (hv.entry_inRange hentry) holder))
    · split at h
      · cases h
      · next candidate hinner =>
        have hcandidate := innerId?_inRange (hv.entry_inRange hentry) hinner
        rcases bind_eq_error_iff.1 h with h | ⟨⟨kind, type⟩, hclass, h⟩
        · exact absurd h (Tame.ne_unending (hv.classify_tame hcandidate))
        · have htype := TranslationUnit.classify_lt hclass
          rcases bind_eq_error_iff.1 h with h | ⟨target, htarget, h⟩
          · exact absurd h (Tame.ne_unending (TranslationUnit.typeAt_tame htype))
          · rcases bind_eq_error_iff.1 h with h | ⟨use, -, h⟩
            · exact ⟨_, .intro ht' hentry hholder hlayer hinner hclass htarget, h⟩
            · cases h
  · rintro ⟨o', hencloses, h⟩
    cases hencloses with
    | intro bare found held layered leads classified spelled =>
      simp only [describe] at h
      simp [describe, useWithin, bind, Except.bind, bare, found, held, layered, leads, classified,
        spelled, h]

private theorem describe_unending_iff_walks (hv : x.unit.Valid) (ht : o.type < x.unit.types.size)
    (hc : o.container < x.unit.types.size) :
    x.describe n o = .error .unending ↔ Walks x.Encloses n o := by
  induction n generalizing o with
  | zero => exact iff_of_true rfl trivial
  | succ n ih =>
    rw [describe_unending_succ hv ht hc]
    refine exists_congr fun o' => and_congr_right fun hencloses => ?_
    obtain ⟨ht', hc'⟩ := hencloses.inRange hv
    exact ih ht' hc'

/-- `describe` with more layers than there are types is `unending` exactly if `Encloses` comes
round. -/
theorem describe_unending_iff (hv : x.unit.Valid) (ht : o.type < x.unit.types.size)
    (hc : o.container < x.unit.types.size) (hn : x.unit.types.size < n) :
    x.describe n o = .error .unending ↔ Recurs x.Encloses o := by
  rw [describe_unending_iff_walks hv ht hc]
  refine ⟨fun hwalks => ?_, fun hrecurs => hrecurs.walks n⟩
  exact hwalks.recurs (f := Occurrence.container) (fun _ _ h => (h.inRange hv).2)
    (fun _ _ _ _ h h' heq => h.eq_of_container h' heq) hn

/-! ## Layers that no link leads to -/

theorem innerId?_linked {entry : TypeEntry} {t candidate : TypeId} {kind : Kind}
    (he : x.unit.typeAt t = .ok entry) (hinner : innerId? kind entry = some candidate) :
    x.unit.LinksTo t candidate ∨ candidate = TypeId.invalid := by
  unfold innerId? at hinner
  split at hinner
  · cases hinner
    exact TranslationUnit.linksTo_or_missing fun j hj =>
      .pointee (TranslationUnit.typeAt_eq_ok.1 he) hj
  · cases hinner
    exact TranslationUnit.linksTo_or_missing fun j hj =>
      .element (TranslationUnit.typeAt_eq_ok.1 he) hj
  · cases hinner

theorem Encloses.linked (hv : x.unit.Valid) {o'' : Occurrence} (houter : x.Encloses o o')
    (hinner : x.Encloses o' o'') :
    TransGen x.unit.LinksTo o'.type o''.type ∨
      ReflTransGen x.unit.Follows o''.container TypeId.invalid ∧
        x.unit.Classifies TypeId.invalid o''.kind o''.type := by
  obtain ⟨own, hown, hcovers⟩ := houter.covered
  cases hinner with
  | @intro t entry holder layer candidate kind type target bare found held layered leads classified
    spelled =>
    -- What was classified is no wrapper, so none is taken off.
    have hwrapper : own.kind ≠ .attributed := by
      intro hattributed
      rw [hattributed, Kind.covers_attributed] at hcovers
      cases hcovers
    obtain rfl : o'.type = t := by
      simpa [TranslationUnit.unwrapAttributed, hown, hwrapper, bind, Except.bind, pure,
        Except.pure] using bare
    have hclass := TranslationUnit.classify_sound classified
    rcases innerId?_linked found leads with hlink | rfl
    · rcases hv.classifies_linked hclass with hlinked | hmissing
      · exact Or.inl (.head' hlink hlinked)
      · exact Or.inr hmissing
    · exact Or.inr ⟨.refl, hclass⟩

/-- `Encloses` goes on without an end exactly if it comes round to an occurrence that a missing link
leads to. -/
theorem recurs_encloses_iff (hv : x.unit.Valid) :
    Recurs x.Encloses o ↔ ∃ inner, ReflTransGen x.Encloses o inner ∧
      TransGen x.Encloses inner inner ∧
      ReflTransGen x.unit.Follows inner.container TypeId.invalid ∧
      x.unit.Classifies TypeId.invalid inner.kind inner.type := by
  constructor
  · rintro ⟨p, hreach, hcycle⟩
    rcases transGen_or_gap (S := fun p p' => TransGen x.unit.LinksTo p.type p'.type) hcycle with
      hlinks | ⟨c, d, hpc, hcd, hno, hdp⟩
    · have hback : TransGen x.unit.LinksTo p.type p.type :=
        TransGen.lift' Occurrence.type (fun _ _ h => h) _ _ hlinks
      exact absurd hback (TranslationUnit.acyclic_of_firstTypeCycle? hv.handlesInRange hv.acyclic _)
    · obtain ⟨b, -, hbc⟩ := TransGen.tail'_iff.1 (hcycle.trans_left hpc)
      have hmissing := (hbc.linked hv hcd).resolve_left fun h => hno (.single h)
      exact ⟨d, (hreach.trans hpc).tail hcd, .tail' (hdp.trans hpc) hcd, hmissing⟩
  · rintro ⟨inner, hreach, hcycle, -⟩
    exact ⟨inner, hreach, hcycle⟩

end Context

/-- In a unit without a `fault?`, `use` ends with a `TypeUse` or an error unless the layers come
round: then, and only then, it goes on for any number of layers. The layer that they come round to
is one that a missing link leads to, by `TypeId.invalid` and its declaration; so in a `Rootless`
unit each description ends. -/
theorem use_unending_iff (x : Context) (hvalid : x.unit.fault? = none) (kind : Kind) (name : String)
    {t container : TypeId} (ht : t < x.unit.types.size)
    (hcontainer : container < x.unit.types.size) :
    (x.use kind name t container = .error .unending ↔
      ∃ inner, ReflTransGen x.Encloses ⟨kind, name, t, container⟩ inner ∧
        TransGen x.Encloses inner inner ∧
        ReflTransGen x.unit.Follows inner.container TypeId.invalid ∧
        x.unit.Classifies TypeId.invalid inner.kind inner.type) ∧
    (x.use kind name t container = .error .unending ↔
      ∀ layers, x.useWithin layers kind name t container = .error .unending) ∧
    (∀ handle, x.use kind name t container ≠ .error (.dangling handle)) ∧
    (x.unit.Rootless → x.use kind name t container ≠ .error .unending) := by
  have hv := TranslationUnit.valid_of_fault? hvalid
  have hrecurs : x.use kind name t container = .error .unending ↔
      Recurs x.Encloses ⟨kind, name, t, container⟩ :=
    Context.describe_unending_iff (o := ⟨kind, name, t, container⟩) hv ht hcontainer
      (Nat.lt_add_of_pos_right Nat.two_pos)
  have hiff := hrecurs.trans (Context.recurs_encloses_iff hv)
  refine ⟨hiff, ⟨fun h layers => ?_, fun h => h _⟩, ?_, fun h0 h => ?_⟩
  · exact (Context.describe_unending_iff_walks hv ht hcontainer).2 ((hrecurs.1 h).walks layers)
  · intro handle herror
    obtain ⟨rank, hranked⟩ := hv.exists_ranked
    have htame : Tame False (x.use kind name t container) :=
      Context.useWithin_tame hranked False.elim ht hcontainer False.elim False.elim
    exact (htame _ herror).1 handle rfl
  · obtain ⟨inner, -, -, -, hclass⟩ := hiff.1 h
    exact h0.not_classifies hv hclass

/-- A pointer without a pointee, and a typedef by which the invalid type is declared to be that
pointer. -/
def bottomlessUnit : TranslationUnit :=
  { filePath := "a.h"
    target := { triple := "x86_64-unknown-linux-gnu", pointerBits := 64 }
    cursors := #[
      { kind := .translationUnit, spelling := "a.h" },
      { kind := .noDeclFound },
      { kind := .typedefDecl, spelling := "T", type := 1 }]
    types := #[
      { kind := .invalid, declaration := some 2 },
      { kind := .pointer, spelling := "T" }] }

theorem use_bottomlessUnit_unending : bottomlessUnit.fault? = none ∧
    ∀ layers, (Context.ofSettings bottomlessUnit {} 64).useWithin layers .pointer "p" 1 1 =
      .error .unending := by
  have hvalid : bottomlessUnit.fault? = none := by decide +kernel
  have hunending : (Context.ofSettings bottomlessUnit {} 64).use .pointer "p" 1 1 =
      .error .unending := by
    decide +kernel
  exact ⟨hvalid, (use_unending_iff (Context.ofSettings bottomlessUnit {} 64) hvalid .pointer "p"
    (by decide) (by decide)).2.1.1 hunending⟩

end HeaderSurvey
