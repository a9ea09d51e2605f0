import HeaderSurvey.Proofs.Steps
import Mathlib.Tactic.SplitIfs

/-! Classification as a relation: one rule for each sort of type, without a limit on the wrappers
and typedefs that are followed. Whatever the classifying function finds, it finds by these rules. -/
namespace HeaderSurvey

/-- The kinds of types that `classify` gives a `Kind` to. -/
def Kind.covers : Kind → TypeKind → Bool
  | .primitive, t => t.isPrimitive
  | .enum, t => t = .enum
  | .struct, t | .union, t => t = .record
  | .typeAlias, t => t = .typedef
  | .opaqueType, t => t = .record ∨ t = .typedef
  | .pointer, t | .functionPointer, t => t = .pointer
  | .array, t => t.isArray
  | .function, t => t.isFunction
  | .macroObject, _ | .globalVariable, _ => false

theorem Kind.covers_attributed (kind : Kind) : kind.covers .attributed = false := by
  cases kind <;> rfl

namespace TranslationUnit

def Declared.recordKind (d : Declared) : Kind :=
  if d.entry.size = Layout.incomplete then .opaqueType
  else if d.declaration.kind = .unionDecl then .union else .struct

/-- The kind of a typedef whose `target` was classified as `kind`: opaque if that has no layout. -/
def aliasKind (kind : Kind) (target : TypeEntry) : Kind :=
  if kind = .opaqueType ∨ target.size = Layout.incomplete then .opaqueType else .typeAlias

/-- A reference to `t` is of that kind and stands for that type. -/
inductive Classifies (u : TranslationUnit) : TypeId → Kind → TypeId → Prop where
  | primitive {t d} (declared : u.declaredType t = .ok d) (sort : d.entry.kind.isPrimitive = true) :
      Classifies u t .primitive d.type
  | enum {t d} (declared : u.declaredType t = .ok d) (sort : d.entry.kind = .enum) :
      Classifies u t .enum d.type
  | record {t d} (declared : u.declaredType t = .ok d) (sort : d.entry.kind = .record) :
      Classifies u t d.recordKind d.type
  | pointerTypedef {t d underlying} (declared : u.declaredType t = .ok d)
      (sort : d.entry.kind = .typedef)
      (found : u.typeAt d.declaration.underlyingId = .ok underlying)
      (pointer : underlying.kind = .pointer) :
      Classifies u t .typeAlias d.type
  | typedef {t d underlying kind r target} (declared : u.declaredType t = .ok d)
      (sort : d.entry.kind = .typedef)
      (found : u.typeAt d.declaration.underlyingId = .ok underlying)
      (noPointer : underlying.kind ≠ .pointer)
      (inner : Classifies u d.declaration.underlyingId kind r)
      (resolved : u.typeAt r = .ok target) :
      Classifies u t (aliasKind kind target) d.type
  | function {t d} (declared : u.declaredType t = .ok d) (sort : d.entry.kind.isFunction = true) :
      Classifies u t .function d.type
  | pointer {t d toFunction} (declared : u.declaredType t = .ok d) (sort : d.entry.kind = .pointer)
      (pointee : u.pointsToFunction d.entry = .ok toFunction) :
      Classifies u t (if toFunction then .functionPointer else .pointer) d.type
  | array {t d} (declared : u.declaredType t = .ok d)
      (sort : d.entry.kind = .constantArray ∨ d.entry.kind = .incompleteArray) :
      Classifies u t .array d.type
  | attributed {t d kind r} (declared : u.declaredType t = .ok d)
      (sort : d.entry.kind = .attributed)
      (inner : Classifies u d.entry.modifiedId kind r) : Classifies u t kind r
  | elaborated {t d kind r} (declared : u.declaredType t = .ok d)
      (sort : d.entry.kind = .elaborated)
      (inner : Classifies u d.entry.namedId kind r) : Classifies u t kind r
  | unexposed {t d kind r} (declared : u.declaredType t = .ok d) (sort : d.entry.kind = .unexposed)
      (wrapped : d.entry.canonicalId d.type ≠ d.type)
      (inner : Classifies u (d.entry.canonicalId d.type) kind r) : Classifies u t kind r

variable {u : TranslationUnit} {t r : TypeId} {kind : Kind}

theorem classifyWithin_sound {n : Nat} (h : u.classifyWithin n t = .ok (kind, r)) :
    u.Classifies t kind r := by
  induction n generalizing t kind r with
  | zero => simp [classifyWithin, bind_eq_ok_iff] at h
  | succ n ih =>
    simp only [classifyWithin, bind_eq_ok_iff] at h
    obtain ⟨d, hd, h⟩ := h
    split at h
    · next hp =>
      cases h
      exact .primitive hd hp
    · split at h
      case h_1 hk =>
        cases h
        exact .enum hd hk
      case h_2 hk =>
        cases h
        exact .record hd hk
      case h_3 hk =>
        simp only [bind_eq_ok_iff] at h
        obtain ⟨underlying, hu, h⟩ := h
        split_ifs at h with hptr
        · cases h
          exact .pointerTypedef hd hk hu hptr
        · simp only [bind_eq_ok_iff] at h
          obtain ⟨⟨kind', r'⟩, hc, target, ht, h⟩ := h
          cases h
          exact .typedef hd hk hu hptr (ih hc) ht
      case h_4 hk =>
        cases h
        exact .function hd (by rw [hk]; rfl)
      case h_5 hk =>
        cases h
        exact .function hd (by rw [hk]; rfl)
      case h_6 hk =>
        simp only [bind_eq_ok_iff] at h
        obtain ⟨toFunction, hf, h⟩ := h
        cases h
        exact .pointer hd hk hf
      case h_7 hk => exact .attributed hd hk (ih h)
      case h_8 hk => exact .elaborated hd hk (ih h)
      case h_9 hk =>
        cases h
        exact .array hd (Or.inl hk)
      case h_10 hk =>
        cases h
        exact .array hd (Or.inr hk)
      case h_11 hk =>
        split_ifs at h with hw
        exact .unexposed hd hk hw (ih h)
      case h_12 => cases h

theorem classify_sound (h : u.classify t = .ok (kind, r)) : u.Classifies t kind r :=
  classifyWithin_sound h

theorem declaredType_ok {d : Declared} (h : u.declaredType t = .ok d) :
    ∃ entry, u.typeAt t = .ok entry ∧ u.declarationOf entry = .ok d.declaration ∧
      u.typeAt d.type = .ok d.entry ∧
      (d.type = t ∨ d.declaration.kind ≠ .noDeclFound ∧ d.type = d.declaration.type) := by
  simp only [declaredType, bind_eq_ok_iff] at h
  obtain ⟨entry, hentry, declaration, hdecl, h⟩ := h
  split at h
  · cases h
    exact ⟨entry, hentry, hdecl, hentry, Or.inl rfl⟩
  · next hk =>
    simp only [bind_eq_ok_iff] at h
    obtain ⟨declared, hdeclared, h⟩ := h
    split at h
    · cases h
      exact ⟨entry, hentry, hdecl, hentry, Or.inl rfl⟩
    · cases h
      exact ⟨entry, hentry, hdecl, hdeclared, Or.inr ⟨hk, rfl⟩⟩

theorem Classifies.declared_last (h : u.Classifies t kind r) :
    ∃ t' d, u.declaredType t' = .ok d ∧ d.type = r := by
  induction h with
  | primitive declared | enum declared | record declared | pointerTypedef declared
  | typedef declared | function declared | pointer declared | array declared =>
    exact ⟨_, _, declared, rfl⟩
  | attributed _ _ _ ih | elaborated _ _ _ ih | unexposed _ _ _ _ ih => exact ih

theorem Classifies.pointsToFunction (h : u.Classifies t .functionPointer r) :
    ∃ entry, u.typeAt r = .ok entry ∧ entry.kind = .pointer ∧
      u.pointsToFunction entry = .ok true := by
  generalize hk : Kind.functionPointer = kind at h
  induction h with
  | primitive | enum | function | pointerTypedef | array => cases hk
  | record =>
    unfold Declared.recordKind at hk
    split_ifs at hk
  | typedef =>
    unfold aliasKind at hk
    split_ifs at hk
  | pointer declared sort pointee =>
    obtain ⟨-, -, -, hr, -⟩ := declaredType_ok declared
    split_ifs at hk with hfunction
    exact ⟨_, hr, sort, hfunction ▸ pointee⟩
  | attributed _ _ _ ih | elaborated _ _ _ ih | unexposed _ _ _ _ ih => exact ih hk

/-- `kind` `covers` the kind of the type `r` that a reference is classified as, so `r` is no
wrapper. -/
theorem Classifies.covered (h : u.Classifies t kind r) :
    ∃ entry, u.typeAt r = .ok entry ∧ kind.covers entry.kind = true := by
  induction h with
  | primitive declared sort | function declared sort =>
    obtain ⟨-, -, -, hr, -⟩ := declaredType_ok declared
    exact ⟨_, hr, sort⟩
  | enum declared sort =>
    obtain ⟨-, -, -, hr, -⟩ := declaredType_ok declared
    exact ⟨_, hr, decide_eq_true sort⟩
  | @record _ d declared sort =>
    obtain ⟨-, -, -, hr, -⟩ := declaredType_ok declared
    refine ⟨_, hr, ?_⟩
    unfold Declared.recordKind
    split_ifs <;> simp [Kind.covers, sort]
  | pointerTypedef declared sort =>
    obtain ⟨-, -, -, hr, -⟩ := declaredType_ok declared
    exact ⟨_, hr, decide_eq_true sort⟩
  | typedef declared sort =>
    obtain ⟨-, -, -, hr, -⟩ := declaredType_ok declared
    refine ⟨_, hr, ?_⟩
    unfold aliasKind
    split_ifs <;> simp [Kind.covers, sort]
  | pointer declared sort =>
    obtain ⟨-, -, -, hr, -⟩ := declaredType_ok declared
    refine ⟨_, hr, ?_⟩
    split_ifs <;> simp [Kind.covers, sort]
  | array declared sort =>
    obtain ⟨-, -, -, hr, -⟩ := declaredType_ok declared
    refine ⟨_, hr, ?_⟩
    rcases sort with sort | sort <;> simp [Kind.covers, TypeKind.isArray, sort]
  | attributed _ _ _ ih | elaborated _ _ _ ih | unexposed _ _ _ _ ih => exact ih

theorem Classifies.kind_isType (h : u.Classifies t kind r) :
    kind = .function ∨ kind.isType = true := by
  obtain ⟨entry, -, hcovers⟩ := h.covered
  cases kind <;> simp_all [Kind.covers, Kind.isType]

end TranslationUnit
end HeaderSurvey
