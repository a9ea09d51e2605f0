import HeaderSurvey.Proofs.References

/-! Types that are asked to stay opaque, where they are used. A use is made for the node that a
reference leads to, so the request counts for its outermost level. The levels inside are spelled out
from the types alone: there a type of that name has the kind it is classified as. -/
namespace HeaderSurvey

private theorem TypeUse.levels_cases {use level : TypeUse} (h : level ∈ use.levels) :
    level = use ∨ ∃ outer ∈ use.levels, outer.inner? = some level := by
  induction use with
  | leaf layer => exact Or.inl (List.mem_singleton.1 h)
  | layered layer inner ih =>
    rcases List.mem_cons.1 h with rfl | hinner
    · exact Or.inl rfl
    · rcases ih hinner with rfl | ⟨outer, houter, hnext⟩
      · exact Or.inr ⟨_, List.mem_cons_self, rfl⟩
      · exact Or.inr ⟨outer, List.mem_cons_of_mem _ houter, hnext⟩

namespace Context

variable {x : Context} {use : TypeUse}

/-- Whatever `opaqueTypes` asks for, `inner` has the kind and the name of the type that the type of
`outer` leads to. -/
def SpellsOut (x : Context) (outer inner : TypeUse) : Prop :=
  ∃ t container t' entry candidate r target, x.Describes outer.kind outer.name t container outer ∧
    x.unit.unwrapAttributed t = .ok t' ∧ x.unit.typeAt t' = .ok entry ∧
    innerId? outer.kind entry = some candidate ∧ x.unit.classify candidate = .ok (inner.kind, r) ∧
    x.unit.typeAt r = .ok target ∧ inner.name = stripTags target.spelling

private theorem Describes.spellsOut {kind : Kind} {name : String} {t container : TypeId}
    (h : x.Describes kind name t container use) {outer inner : TypeUse}
    (houter : outer ∈ use.levels) (hinner : outer.inner? = some inner) :
    x.SpellsOut outer inner := by
  obtain ⟨t', container', hlevel⟩ := h.level houter
  have hwhole := hlevel
  cases hlevel with
  | leaf => cases hinner
  | layered unwrapped entry_eq holder_eq layer_eq next classified target_eq rest =>
    cases hinner
    obtain ⟨hname, hkind⟩ := rest.name_kind
    exact ⟨_, _, _, _, _, _, _, hwhole, unwrapped, entry_eq, next, hkind ▸ classified,
      target_eq, hname⟩

theorem Pictures.kind_of_isOpaque {node : VisitNode} (h : x.Pictures node use)
    (hasked : x.switches.isOpaque use.name = true) : use.kind = .opaqueType := by
  obtain ⟨hname, hkind⟩ := h.name_kind
  obtain ⟨candidate, parent, index, container, hresolve, -⟩ := h
  obtain ⟨referrer, g, ⟨-, rfl⟩ | ⟨hfree, rfl, -⟩⟩ := (resolve_sound hresolve).sighting
  · exact hkind
  · rw [hname] at hasked
    simp [isOverridden, hasked] at hfree

end Context

/-- The uses in the functions, records, enumerations, aliases and function pointers of a snapshot. A
name in `opaqueTypes` is that of an `opaqueType` wherever it is outermost. Each level inside is one
that the level around it `SpellsOut`, so the only other uses of such a name are levels inside, of
types that are classified as something else. -/
theorem surveyFor_occurrences {rounds turns : Nat} {s : Settings} {u : TranslationUnit}
    {o : Outcome} {name : String} {kind : Kind} {declaration : Node} {use : TypeUse}
    (h : surveyFor rounds turns s u = .ok o)
    (hfound : o.snapshot.find? name kind = some declaration)
    (hkind : declaration.kind ≠ .globalVariable) (huse : use ∈ declaration.uses) :
    ∃ x start, beginSurvey s u = .ok (x, start) ∧
      (use.name ∈ s.switches.opaqueTypes → use.kind = .opaqueType) ∧
      (∀ outer ∈ use.levels, ∀ inner, outer.inner? = some inner → x.SpellsOut outer inner) ∧
      ∀ level ∈ use.levels, level.name ∈ s.switches.opaqueTypes → level.kind ≠ .opaqueType →
        ∃ outer ∈ use.levels, outer.inner? = some level ∧ x.SpellsOut outer level := by
  obtain ⟨x, start, p, hbegin, hrun, rfl⟩ := surveyFor_eq_ok h
  obtain ⟨requested, actual, -, -, hx, rfl⟩ := beginSurvey_eq_ok hbegin
  obtain ⟨t, -, hsteady, -⟩ := Context.runFor_steady hrun
  obtain ⟨node, hpictured, -⟩ := hsteady.ledger.known use (hsteady.mem_uses hfound hkind huse)
  have houtermost : use.name ∈ s.switches.opaqueTypes → use.kind = .opaqueType := by
    intro hasked
    refine hpictured.kind_of_isOpaque ?_
    rw [hx]
    exact List.contains_iff_mem.2 hasked
  have hinside : ∀ outer ∈ use.levels, ∀ inner, outer.inner? = some inner →
      x.SpellsOut outer inner := by
    intro outer houter inner hinner
    obtain ⟨candidate, parent, index, container, -, hdescribed⟩ := hpictured
    exact (Context.use_sound hdescribed).spellsOut houter hinner
  refine ⟨x, _, hbegin, houtermost, hinside, ?_⟩
  intro level hlevel hasked hother
  rcases TypeUse.levels_cases hlevel with rfl | ⟨outer, houter, hinner⟩
  · exact absurd (houtermost hasked) hother
  · exact ⟨outer, houter, hinner, hinside outer houter level hinner⟩

/-- A function that takes a handle, and a pointer to a pointer to one. -/
def nestedHandleUnit : TranslationUnit :=
  Builder.build "a.h" "x86_64-unknown-linux-gnu" 64
    [.primitive .int, .record .struct "Handle" [("fd", 1)], .pointer 2, .pointer 3,
      .function "f" 1 [("h", 2), ("p", 4)] false]

def handleSettings : Settings := { switches := { opaqueTypes := ["Handle"] } }

theorem surveyFor_nestedHandleUnit_occurrences :
    ∃ o f outermost use level, surveyFor 8 2 handleSettings nestedHandleUnit = .ok o ∧
      o.snapshot.functions.get? "f" = some f ∧ outermost ∈ (Node.function f).uses ∧
      outermost.name = "Handle" ∧ outermost.kind = .opaqueType ∧ use ∈ (Node.function f).uses ∧
      level ∈ use.levels ∧ level.name ∈ handleSettings.switches.opaqueTypes ∧ level.kind = .struct ∧
      ∃ x start, beginSurvey handleSettings nestedHandleUnit = .ok (x, start) ∧
        ∃ outer ∈ use.levels, outer.inner? = some level ∧ x.SpellsOut outer level := by
  have hok : (surveyFor 8 2 handleSettings nestedHandleUnit).toOption.any (fun o =>
      (o.snapshot.functions.get? "f").any fun f =>
        ((Node.function f).uses.any fun use => use.name = "Handle") ∧
        (Node.function f).uses.any fun use => use.levels.any fun level =>
          level.name = "Handle" ∧ level.kind = .struct) = true := by
    decide +kernel
  obtain ⟨o, ho, hok⟩ := toOption_any_iff.1 hok
  simp only [Option.any_eq_true, List.any_eq_true, decide_eq_true_eq] at hok
  obtain ⟨f, hf, ⟨outermost, houtermost, hname⟩, use, huse, level, hlevel, hlevelName,
      hlevelKind⟩ := hok
  have hfound : o.snapshot.find? "f" .function = some (.function f) :=
    congrArg (Option.map Node.function) hf
  have hasked : "Handle" ∈ handleSettings.switches.opaqueTypes := List.mem_cons_self
  obtain ⟨-, -, -, hmasked, -, -⟩ := surveyFor_occurrences ho hfound (by rintro ⟨⟩) houtermost
  obtain ⟨x, start, hbegin, -, -, hother⟩ := surveyFor_occurrences ho hfound (by rintro ⟨⟩) huse
  rw [← hlevelName] at hasked
  refine ⟨o, f, outermost, use, level, ho, hf, houtermost, hname, ?_, huse, hlevel, hasked,
    hlevelKind, x, start, hbegin, ?_⟩
  · exact hmasked (hname ▸ List.mem_cons_self)
  · exact hother level hlevel hasked (by rw [hlevelKind]; decide)

end HeaderSurvey
