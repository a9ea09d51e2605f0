import HeaderSurvey.Proofs.Signatures
import HeaderSurvey.Proofs.Spacing

/-! Types that are named after their parents. The name of such a type is that of the parent with a
marker and a number at the end, and the parent may have got its own name in the same way. Still no
two types share a name unless they are of the same sort and stand at the same number in the same
parent. -/
namespace HeaderSurvey

namespace Context

variable {x y : Context} {t u : TypeId} {m m' : Marker} {kind kind' : Kind}
  {parent parent' : String} {index index' : Nat}

/-- Why `t` is named after its parent: its declaration is anonymous, or that is not, but the
spelling says that the type is unnamed. -/
inductive Marked (x : Context) (t : TypeId) : Marker → Prop where
  | anonymous {entry : TypeEntry} {declaration : Cursor} (entry_eq : x.unit.typeAt t = .ok entry)
      (declaration_eq : x.unit.declarationOf entry = .ok declaration)
      (nameless : declaration.anonymous = true) :
      Marked x t .anonymous
  | unnamed {entry : TypeEntry} {declaration : Cursor} (entry_eq : x.unit.typeAt t = .ok entry)
      (declaration_eq : x.unit.declarationOf entry = .ok declaration)
      (named : declaration.anonymous = false)
      (spelled : "(unnamed at ".toList <:+: entry.spelling.toList) : Marked x t .unnamed

private theorem Marked.exists_marker (h : x.Marked t m) :
    ∃ entry declaration, x.unit.typeAt t = .ok entry ∧
    x.unit.declarationOf entry = .ok declaration ∧ Marker.of? entry declaration = some m := by
  cases h with
  | anonymous entry_eq declaration_eq nameless =>
    exact ⟨_, _, entry_eq, declaration_eq, if_pos nameless⟩
  | unnamed entry_eq declaration_eq named spelled =>
    refine ⟨_, _, entry_eq, declaration_eq, ?_⟩
    rw [Marker.of?, if_neg (by simp [named]), if_pos (Text.contains_iff.2 spelled)]

theorem Marked.typeName (h : x.Marked t m) (hkind : kind ≠ .macroObject ∧ kind ≠ .function)
    (hparent : parent ≠ "") (index : Nat) :
    x.typeName kind t (some parent) index = .ok (m.name parent index) := by
  obtain ⟨entry, declaration, hentry, hdeclaration, hm⟩ := h.exists_marker
  rw [typeName_of_marker (not_or.2 hkind) hentry hdeclaration hm, if_neg (by simp [hparent])]

/-- Two types that are `Marked`, and so named after their parents, have the same `typeName` exactly
if they have the same `Marker` and the same number under the same parent. The names of the parents
may be any texts. -/
theorem typeName_eq_iff (ht : x.Marked t m) (hu : y.Marked u m')
    (hkind : kind ≠ .macroObject ∧ kind ≠ .function)
    (hkind' : kind' ≠ .macroObject ∧ kind' ≠ .function) (hparent : parent ≠ "")
    (hparent' : parent' ≠ "") :
    (∃ name, x.typeName kind t (some parent) index = .ok name) ∧
    (∃ name, y.typeName kind' u (some parent') index' = .ok name) ∧
    (x.typeName kind t (some parent) index = y.typeName kind' u (some parent') index' ↔
      m = m' ∧ parent = parent' ∧ index = index') := by
  have hname := ht.typeName hkind hparent index
  have hname' := hu.typeName hkind' hparent' index'
  refine ⟨⟨_, hname⟩, ⟨_, hname'⟩, ?_⟩
  rw [hname, hname']
  constructor
  · intro h
    exact Marker.name_inj (Except.ok.inj h)
  · rintro ⟨rfl, rfl, rfl⟩
    rfl

end Context

/-- An anonymous struct and an unnamed one. -/
def namelessContext : Context :=
  .ofSettings (Builder.build "a.h" "x86_64-unknown-linux-gnu" 64
    [.primitive .int, .anonymousRecord .struct [("x", 1)], .unnamedStruct [("y", 1)]]) {} 64

/-- The parent `A_ANONYMOUS_FIELD1` of the first name is named after `A` itself. -/
theorem typeName_namelessContext :
    namelessContext.Marked 2 .anonymous ∧ namelessContext.Marked 3 .unnamed ∧
    namelessContext.typeName .struct 2 (some "A_ANONYMOUS_FIELD1") 1 ≠
      namelessContext.typeName .union 2 (some "A") 11 ∧
    namelessContext.typeName .struct 2 (some "A_UNNAMED_FIELD1") 1 ≠
      namelessContext.typeName .struct 3 (some "A_UNNAMED_FIELD1") 1 := by
  have hanonymous : namelessContext.Marked 2 .anonymous := .anonymous rfl rfl rfl
  have hunnamed : namelessContext.Marked 3 .unnamed :=
    .unnamed rfl rfl rfl (Text.contains_iff.1 (by decide +kernel))
  refine ⟨hanonymous, hunnamed, fun heq => ?_, fun heq => ?_⟩
  · have hsame := (Context.typeName_eq_iff hanonymous hanonymous (by decide) (by decide) (by decide)
      (by decide)).2.2.1 heq
    exact absurd hsame.2.1 (by decide)
  · have hsame := (Context.typeName_eq_iff hanonymous hunnamed (by decide) (by decide) (by decide)
      (by decide)).2.2.1 heq
    exact absurd hsame.1 (by decide)

end HeaderSurvey
