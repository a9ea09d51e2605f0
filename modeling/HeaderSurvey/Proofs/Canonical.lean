import HeaderSurvey.Proofs.Ownership

/-! Classification of a canonical type. In a unit that was built step by step, what a reference
stands for is no wrapper and stands for itself, under the same kind. -/
namespace HeaderSurvey

private theorem Kind.covers_wrapper {t : TypeKind} (kind : Kind)
    (h : t ∈ [.attributed, .elaborated, .unexposed, .invalid]) : kind.covers t = false := by
  simp only [List.mem_cons, List.not_mem_nil, or_false] at h
  rcases h with rfl | rfl | rfl | rfl <;> cases kind <;> rfl

namespace TranslationUnit

variable {u : TranslationUnit} {t t' r : TypeId} {kind : Kind} {n : Nat}
  {N : String → String → Bool → Prop}

/-- `classifyWithin` reads a type through its `declaredType` only. -/
theorem classifyWithin_congr (h : u.declaredType t = u.declaredType t') (n : Nat) :
    u.classifyWithin (n + 1) t = u.classifyWithin (n + 1) t' := by
  simp only [classifyWithin, h]

theorem classifyWithin_last (h : u.classifyWithin (n + 1) t = .ok (kind, r)) :
    (∃ d, u.declaredType t = .ok d ∧ d.type = r) ∨ ∃ t', u.classifyWithin n t' = .ok (kind, r) := by
  simp only [classifyWithin, bind_eq_ok_iff] at h
  obtain ⟨d, hd, h⟩ := h
  split at h
  · cases h
    exact Or.inl ⟨d, hd, rfl⟩
  · split at h
    case h_3 =>
      simp only [bind_eq_ok_iff] at h
      obtain ⟨underlying, -, h⟩ := h
      split_ifs at h
      · cases h
        exact Or.inl ⟨d, hd, rfl⟩
      · simp only [bind_eq_ok_iff] at h
        obtain ⟨inner, -, target, -, h⟩ := h
        cases h
        exact Or.inl ⟨d, hd, rfl⟩
    case h_6 =>
      simp only [bind_eq_ok_iff] at h
      obtain ⟨toFunction, -, h⟩ := h
      cases h
      exact Or.inl ⟨d, hd, rfl⟩
    case h_7 | h_8 => exact Or.inr ⟨_, h⟩
    case h_11 =>
      split_ifs at h
      exact Or.inr ⟨_, h⟩
    all_goals
      cases h
      try exact Or.inl ⟨d, hd, rfl⟩

theorem classifyWithin_succ {a : Kind × TypeId} (h : u.classifyWithin n t = .ok a) :
    u.classifyWithin (n + 1) t = .ok a := by
  induction n generalizing t a with
  | zero => simp [classifyWithin, bind_eq_ok_iff] at h
  | succ n ih =>
    rw [classifyWithin, bind_eq_ok_iff] at h ⊢
    obtain ⟨d, hd, h⟩ := h
    refine ⟨d, hd, ?_⟩
    dsimp only at h ⊢
    split at h
    · next hp => rw [if_pos hp, h]
    · next hp =>
      rw [if_neg hp]
      split at h
      case h_3 =>
        simp only [bind_eq_ok_iff] at h ⊢
        obtain ⟨underlying, hunderlying, h⟩ := h
        refine ⟨underlying, hunderlying, ?_⟩
        split_ifs at h ⊢
        · exact h
        · simp only [bind_eq_ok_iff] at h ⊢
          obtain ⟨inner, hinner, h⟩ := h
          exact ⟨inner, ih hinner, h⟩
      case h_7 hk | h_8 hk => simpa only [hk] using ih h
      case h_11 hk =>
        simp only [hk]
        split_ifs at h ⊢
        exact ih h
      case h_1 hk | h_2 hk | h_4 hk | h_5 hk | h_6 hk | h_9 hk | h_10 hk => simpa only [hk] using h
      case h_12 => cases h

theorem Paired.declaredType_idem (hu : u.Paired N) {d : Declared} (hd : u.declaredType t = .ok d) :
    u.declaredType d.type = .ok d := by
  rcases hu.declared_own hd with ⟨-, hself⟩ | ⟨c, howns, htype⟩
  · rw [hself, hd]
  · have hown := howns.declaredType howns.type_eq howns.declaration
    rwa [htype] at hown

/-- What a type is classified as is classified as itself, within the same limit. -/
theorem Paired.classifyWithin_self (hu : u.Paired N) (h : u.classifyWithin n t = .ok (kind, r)) :
    u.classifyWithin n r = .ok (kind, r) := by
  induction n generalizing t with
  | zero => simp [classifyWithin, bind_eq_ok_iff] at h
  | succ n ih =>
    rcases classifyWithin_last h with ⟨d, hd, rfl⟩ | ⟨t', ht'⟩
    · rw [classifyWithin_congr ((hu.declaredType_idem hd).trans hd.symm), h]
    · exact classifyWithin_succ (ih ht')

theorem Paired.classify_self (hu : u.Paired N) (h : u.classify t = .ok (kind, r)) :
    u.classify r = .ok (kind, r) := hu.classifyWithin_self h

end TranslationUnit

/-- In any unit that `build` makes, `classify` gives a type that is no wrapper, that is of the sort
that its `Kind` belongs to, and that is classified as itself. -/
theorem classify_canonical (file triple : String) (pointerBits : Nat) (steps : List Builder.Step)
    {t r : TypeId} {kind : Kind}
    (h : (Builder.build file triple pointerBits steps).classify t = .ok (kind, r)) :
    ∃ entry, (Builder.build file triple pointerBits steps).typeAt r = .ok entry ∧
      entry.kind ∉ [.attributed, .elaborated, .unexposed, .invalid] ∧
      kind.covers entry.kind = true ∧
      (Builder.build file triple pointerBits steps).classify r = .ok (kind, r) := by
  obtain ⟨entry, hentry, hcovers⟩ := (TranslationUnit.classify_sound h).covered
  refine ⟨entry, hentry, ?_, hcovers, ?_⟩
  · intro hwrapper
    rw [kind.covers_wrapper hwrapper] at hcovers
    cases hcovers
  · exact (Builder.build_paired_any file triple pointerBits steps).classify_self h

def wrappedName : String := "T"

/-- A record under a qualifier and three wrappers, and a typedef of that, wrapped again. -/
def wrappedSteps : List Builder.Step :=
  [.record .struct "S" [], .constQualified 1, .elaborated 2, .attributed 3, .unexposed 4,
    .typedef wrappedName 5, .constQualified 6, .elaborated 7, .unexposed 8]

def wrappedUnit : TranslationUnit := Builder.build "a.h" "x86_64-unknown-linux-gnu" 64 wrappedSteps

theorem classify_wrappedUnit_canonical : wrappedUnit.classify 5 = .ok (.struct, 1) ∧
    wrappedUnit.classify 9 = .ok (.typeAlias, 6) ∧
    ∃ entry, wrappedUnit.typeAt 6 = .ok entry ∧
      entry.kind ∉ [.attributed, .elaborated, .unexposed, .invalid] ∧
      Kind.typeAlias.covers entry.kind = true ∧ wrappedUnit.classify 6 = .ok (.typeAlias, 6) := by
  have h : wrappedUnit.classify 9 = .ok (.typeAlias, 6) := by rfl
  exact ⟨by rfl, h, classify_canonical "a.h" "x86_64-unknown-linux-gnu" 64 wrappedSteps h⟩

end HeaderSurvey
