import HeaderSurvey.Proofs.Cycles
import Mathlib.Data.List.Chain

/-! Which references are given up. Classification goes from type to type, and on most of its way it
follows links, which have no cycle in a valid unit. Some of its steps are no links: a missing link
leads to the invalid type, a typedef that is declared nowhere to whatever the cursor for missing
declarations names, and a type may be declared as another name for itself. A walk with a limit above
the number of types is given up exactly if it comes round to such a step again. -/
namespace HeaderSurvey

open Relation

section Walks

variable {α : Type} {R : α → α → Prop} {a b : α} {n : Nat}

/-- From `a` one can take that many steps. -/
def Walks (R : α → α → Prop) : Nat → α → Prop
  | 0, _ => True
  | n + 1, a => ∃ b, R a b ∧ Walks R n b

/-- From `a` one comes to where one can go round in a circle. -/
def Recurs (R : α → α → Prop) (a : α) : Prop := ∃ b, ReflTransGen R a b ∧ TransGen R b b

theorem Recurs.step (h : Recurs R a) : ∃ b, R a b ∧ Recurs R b := by
  obtain ⟨c, hreach, hcycle⟩ := h
  rcases hreach.cases_head with rfl | ⟨b, hab, hbc⟩
  · obtain ⟨b, hab, hba⟩ := TransGen.head'_iff.1 hcycle
    exact ⟨b, hab, a, hba, hcycle⟩
  · exact ⟨b, hab, c, hbc, hcycle⟩

theorem Recurs.walks (h : Recurs R a) (n : Nat) : Walks R n a := by
  induction n generalizing a with
  | zero => trivial
  | succ n ih =>
    obtain ⟨b, hab, hb⟩ := h.step
    exact ⟨b, hab, ih hb⟩

theorem Walks.of_succ (h : Walks R (n + 1) a) : Walks R n a := by
  induction n generalizing a with
  | zero => trivial
  | succ n ih =>
    obtain ⟨b, hab, hb⟩ := h
    exact ⟨b, hab, ih hb⟩

private theorem Walks.exists_path (h : Walks R n a) :
    ∃ path : List α, path.length = n ∧ (a :: path).IsChain R := by
  induction n generalizing a with
  | zero => exact ⟨[], rfl, .singleton a⟩
  | succ n ih =>
    obtain ⟨b, hab, hb⟩ := h
    obtain ⟨path, hlength, hpath⟩ := ih hb
    exact ⟨b :: path, by simp [hlength], .cons_cons hab hpath⟩

/-- If the places that steps lead to are told apart by numbers below `size`, a walk of more steps
than that goes round in a circle. -/
theorem Walks.recurs {f : α → Nat} {size : Nat} (hbound : ∀ a b, R a b → f b < size)
    (hinj : ∀ a b a' b', R a b → R a' b' → f b = f b' → b = b') (h : Walks R n a) (hn : size < n) :
    Recurs R a := by
  obtain ⟨path, hlength, hchain⟩ := h.exists_path
  have hpairs : (a :: path).Pairwise (TransGen R) :=
    List.isChain_iff_pairwise.1 (hchain.imp fun _ _ => .single)
  obtain ⟨hreach, hlater⟩ := List.pairwise_cons.1 hpairs
  have hsource : ∀ b ∈ path, ∃ a', R a' b := fun b hb =>
    (TransGen.tail'_iff.1 (hreach b hb)).imp fun _ h => h.2
  by_contra hnone
  have hnodup : path.Nodup := by
    refine hlater.imp_of_mem fun {b c} hb _ hbc heq => hnone ⟨b, (hreach b hb).to_reflTransGen, ?_⟩
    exact heq ▸ hbc
  have hnumbers : (path.map f).Nodup := by
    refine List.Nodup.map_on (fun b hb c hc heq => ?_) hnodup
    obtain ⟨b', hb'⟩ := hsource b hb
    obtain ⟨c', hc'⟩ := hsource c hc
    exact hinj b' b c' c hb' hc' heq
  have hsub : path.map f ⊆ List.range size := by
    intro k hk
    obtain ⟨b, hb, rfl⟩ := List.mem_map.1 hk
    obtain ⟨b', hb'⟩ := hsource b hb
    exact List.mem_range.2 (hbound b' b hb')
  have hle := (List.subperm_of_subset hnumbers hsub).length_le
  rw [List.length_map, List.length_range] at hle
  omega

/-- A way by steps of `R` is a way by steps of `S`, or has a step that no way by `S` stands for. -/
theorem transGen_or_gap {S : α → α → Prop} (h : TransGen R a b) :
    TransGen S a b ∨
      ∃ c d, ReflTransGen R a c ∧ R c d ∧ ¬ TransGen S c d ∧ ReflTransGen R d b := by
  by_contra hcontra
  obtain ⟨hno, hgap⟩ := not_or.1 hcontra
  refine hno ?_
  have hsteps : ∀ c d, ReflTransGen R a c → R c d → ReflTransGen R d b → TransGen S c d := by
    intro c d hac hcd hdb
    by_contra hcd'
    exact hgap ⟨c, d, hac, hcd, hcd', hdb⟩
  clear hcontra hno hgap
  induction h using TransGen.head_induction_on with
  | single hab => exact hsteps _ _ .refl hab .refl
  | head hac hcb ih =>
    refine (hsteps _ _ .refl hac hcb.to_reflTransGen).trans (ih fun c' d hc' => ?_)
    exact hsteps c' d (.head hac hc')

end Walks

namespace TranslationUnit

variable {u : TranslationUnit} {t t' : TypeId} {n : Nat}

/-- To classify `t`, `classify` goes on to the other type. -/
inductive Follows (u : TranslationUnit) (t : TypeId) : TypeId → Prop where
  | typedef {d underlying} (declared : u.declaredType t = .ok d) (sort : d.entry.kind = .typedef)
      (found : u.typeAt d.declaration.underlyingId = .ok underlying)
      (noPointer : underlying.kind ≠ .pointer) :
      Follows u t d.declaration.underlyingId
  | attributed {d} (declared : u.declaredType t = .ok d) (sort : d.entry.kind = .attributed) :
      Follows u t d.entry.modifiedId
  | elaborated {d} (declared : u.declaredType t = .ok d) (sort : d.entry.kind = .elaborated) :
      Follows u t d.entry.namedId
  | unexposed {d} (declared : u.declaredType t = .ok d) (sort : d.entry.kind = .unexposed)
      (wrapped : d.entry.canonicalId d.type ≠ d.type) : Follows u t (d.entry.canonicalId d.type)

/-- The reference to `t` is given up after that many `levels`. -/
def Unresolved (u : TranslationUnit) (levels : Nat) (t : TypeId) : Prop :=
  ∃ spelling, u.classifyWithin levels t = .error (.invalidUnit (.unresolved spelling))

/-! ## Giving up -/

theorem typeAt_ne_unresolved {spelling : String} :
    u.typeAt t ≠ .error (.invalidUnit (.unresolved spelling)) := by
  unfold typeAt
  split <;> simp

private theorem cursorAt_ne_unresolved {c : CursorId} {spelling : String} :
    u.cursorAt c ≠ .error (.invalidUnit (.unresolved spelling)) := by
  unfold cursorAt
  split <;> simp

private theorem declaredType_ne_unresolved {spelling : String} :
    u.declaredType t ≠ .error (.invalidUnit (.unresolved spelling)) := by
  intro h
  simp only [declaredType, bind_eq_error_iff] at h
  rcases h with h | ⟨entry, -, h | ⟨declaration, -, h⟩⟩
  · exact typeAt_ne_unresolved h
  · exact cursorAt_ne_unresolved h
  · split at h
    · cases h
    · rcases bind_eq_error_iff.1 h with h | ⟨declared, -, h⟩
      · exact typeAt_ne_unresolved h
      · cases h

private theorem pointsToFunction_ne_unresolved {entry : TypeEntry} {spelling : String} :
    u.pointsToFunction entry ≠ .error (.invalidUnit (.unresolved spelling)) := by
  intro h
  simp only [pointsToFunction, unwrapAttributed, bind_eq_error_iff] at h
  rcases h with (h | ⟨_, -, h⟩) | ⟨t, -, h | ⟨pointee, -, h | ⟨_, -, h⟩⟩⟩
  · exact typeAt_ne_unresolved h
  · cases h
  · exact typeAt_ne_unresolved h
  · exact typeAt_ne_unresolved h
  · cases h

theorem unresolved_succ_iff :
    u.Unresolved (n + 1) t ↔ ∃ t', u.Follows t t' ∧ u.Unresolved n t' := by
  constructor
  · rintro ⟨spelling, h⟩
    simp only [classifyWithin, bind_eq_error_iff] at h
    rcases h with h | ⟨d, hd, h⟩
    · exact absurd h declaredType_ne_unresolved
    · split at h
      · cases h
      · split at h
        case h_3 hk =>
          rcases bind_eq_error_iff.1 h with h | ⟨underlying, hu, h⟩
          · exact absurd h typeAt_ne_unresolved
          · split at h
            · cases h
            · next hptr =>
              rcases bind_eq_error_iff.1 h with h | ⟨inner, -, h⟩
              · exact ⟨_, .typedef hd hk hu hptr, spelling, h⟩
              · rcases bind_eq_error_iff.1 h with h | ⟨target, -, h⟩
                · exact absurd h typeAt_ne_unresolved
                · cases h
        case h_6 =>
          rcases bind_eq_error_iff.1 h with h | ⟨toFunction, -, h⟩
          · exact absurd h pointsToFunction_ne_unresolved
          · cases h
        case h_7 hk => exact ⟨_, .attributed hd hk, spelling, h⟩
        case h_8 hk => exact ⟨_, .elaborated hd hk, spelling, h⟩
        case h_11 hk =>
          split at h
          · cases h
          · next hw => exact ⟨_, .unexposed hd hk hw, spelling, h⟩
        all_goals cases h
  · rintro ⟨t', hfollows, spelling, h⟩
    refine ⟨spelling, ?_⟩
    cases hfollows with
    | typedef declared sort found noPointer =>
      simp [classifyWithin, bind, Except.bind, declared, sort, found, noPointer, h,
        TypeKind.isPrimitive]
    | attributed declared sort | elaborated declared sort =>
      simpa [classifyWithin, bind, Except.bind, declared, sort, TypeKind.isPrimitive] using h
    | unexposed declared sort wrapped =>
      simpa [classifyWithin, bind, Except.bind, declared, sort, wrapped,
        TypeKind.isPrimitive] using h

private theorem Valid.follows_lt (h : u.Valid) (hf : u.Follows t t') : t' < u.types.size := by
  have hdeclared : ∀ d, u.declaredType t = .ok d →
      d.type < u.types.size ∧ d.entry.InRange u ∧ d.declaration.InRange u := by
    intro d hd
    obtain ⟨entry, -, hdecl, he, -⟩ := declaredType_ok hd
    exact ⟨lt_of_typeAt he, h.entry_inRange he, h.cursor_inRange hdecl⟩
  cases hf with
  | typedef declared => exact (hdeclared _ declared).2.2.underlying
  | attributed declared => exact (hdeclared _ declared).2.1.modified
  | elaborated declared => exact (hdeclared _ declared).2.1.named
  | unexposed declared => exact (hdeclared _ declared).2.1.canonical _ (hdeclared _ declared).1

theorem Valid.unresolved_iff_walks (h : u.Valid) :
    u.Unresolved (n + 1) t ↔ Walks u.Follows (n + 1) t := by
  rw [unresolved_succ_iff]
  refine exists_congr fun t' => and_congr_right fun hf => ?_
  induction n generalizing t t' with
  | zero =>
    refine iff_of_true ?_ trivial
    obtain ⟨entry, hentry⟩ : ∃ entry, u.typeAt t' = .ok entry :=
      ⟨_, typeAt_eq_ok.2 (Array.getElem?_eq_getElem (h.follows_lt hf))⟩
    exact ⟨entry.spelling, by simp [classifyWithin, bind, Except.bind, hentry]⟩
  | succ n ih =>
    rw [unresolved_succ_iff]
    exact exists_congr fun t'' => and_congr_right fun hf' => ih t'' hf'

/-! ## Steps that are no links -/

/-- Classification goes from `t` to `t'` where no chain of `LinksTo` does. -/
def Overlooks (u : TranslationUnit) (t t' : TypeId) : Prop :=
  u.Follows t t' ∧ ¬ TransGen u.LinksTo t t'

/-- `t` is declared as another name for itself. -/
def NamesItself (u : TranslationUnit) (t : TypeId) : Prop :=
  ∃ d, u.declaredType t = .ok d ∧ d.entry.kind = .typedef ∧ d.declaration.underlyingId = t

/-- `t` is a typedef that is declared nowhere. -/
def Unfounded (u : TranslationUnit) (t : TypeId) : Prop :=
  ∃ entry, u.typeAt t = .ok entry ∧ entry.kind = .typedef ∧ entry.declaration = none

theorem Valid.declared_linked (h : u.Valid) {d : Declared} (hd : u.declaredType t = .ok d) :
    ReflTransGen u.LinksTo t d.type := by
  obtain ⟨entry, he, hdecl, -, heq | ⟨hk, heq⟩⟩ := declaredType_ok hd
  · rw [heq]
  · by_cases hne : d.declaration.type = t
    · rw [heq, hne]
    · obtain ⟨id, hid, hcursor⟩ := h.declarationOf_some hdecl hk
      rw [heq]
      exact .single (.declared (typeAt_eq_ok.1 he) hid hcursor hne)

theorem linksTo_or_missing {o : Option TypeId} (ho : ∀ j, o = some j → u.LinksTo t j) :
    u.LinksTo t (o.getD TypeId.invalid) ∨ o.getD TypeId.invalid = TypeId.invalid := by
  cases o with
  | none => exact Or.inr rfl
  | some j => exact Or.inl (ho j rfl)

theorem Valid.linked_or_missing (h : u.Valid) {d : Declared} (hd : u.declaredType t = .ok d)
    {o : Option TypeId} (ho : ∀ j, o = some j → u.LinksTo d.type j) :
    TransGen u.LinksTo t (o.getD TypeId.invalid) ∨ o.getD TypeId.invalid = TypeId.invalid := by
  rcases linksTo_or_missing ho with hlink | hmissing
  · exact Or.inl (.tail' (h.declared_linked hd) hlink)
  · exact Or.inr hmissing

theorem Valid.canonical_linked (h : u.Valid) {d : Declared} (hd : u.declaredType t = .ok d)
    (hne : d.entry.canonicalId d.type ≠ d.type) :
    TransGen u.LinksTo t (d.entry.canonicalId d.type) := by
  obtain ⟨-, -, -, he, -⟩ := declaredType_ok hd
  refine .tail' (h.declared_linked hd) ?_
  unfold TypeEntry.canonicalId at hne ⊢
  cases hc : d.entry.canonical with
  | none => simp [hc] at hne
  | some j => exact .canonical (typeAt_eq_ok.1 he) hc (by simpa [hc] using hne)

private theorem Valid.underlying_linked (h : u.Valid) {d : Declared} (hd : u.declaredType t = .ok d)
    (hk : d.entry.kind = .typedef) :
    TransGen u.LinksTo t d.declaration.underlyingId ∨ d.declaration.underlyingId = TypeId.invalid ∨
      d.declaration.underlyingId = t ∨ u.Unfounded t := by
  obtain ⟨entry, he, hdecl, hdeclared, hcase⟩ := declaredType_ok hd
  cases hu : d.declaration.underlying with
  | none => simp [Cursor.underlyingId, hu]
  | some j =>
    have hid : d.declaration.underlyingId = j := by simp [Cursor.underlyingId, hu]
    rw [hid]
    by_cases hj : j = t
    · exact Or.inr (Or.inr (Or.inl hj))
    cases hdeclaration : entry.declaration with
    | none =>
      -- Then no declared type is looked for, and the typedef is the type itself.
      refine Or.inr (Or.inr (Or.inr ⟨entry, he, ?_, hdeclaration⟩))
      rcases hcase with heq | ⟨hkind, -⟩
      · rw [heq, he] at hdeclared
        cases hdeclared
        exact hk
      · obtain ⟨id, hid, -⟩ := h.declarationOf_some hdecl hkind
        rw [hid] at hdeclaration
        cases hdeclaration
    | some id =>
      have hcursor : u.cursors[id]? = some d.declaration := by
        rw [declarationOf, TypeEntry.declarationId, hdeclaration] at hdecl
        exact cursorAt_eq_ok.1 hdecl
      exact Or.inl (.single (.underlying (typeAt_eq_ok.1 he) hdeclaration hcursor hu hj))

/-- A step that `Overlooks` links leads to `TypeId.invalid` or back to the type itself, or starts at
a typedef that is `Unfounded`. -/
theorem Valid.overlooked (h : u.Valid) (ho : u.Overlooks t t') :
    t' = TypeId.invalid ∨ t' = t ∧ u.NamesItself t ∨ u.Unfounded t := by
  obtain ⟨hfollows, hno⟩ := ho
  cases hfollows with
  | @typedef d underlying declared sort found noPointer =>
    rcases h.underlying_linked declared sort with hlinked | hinvalid | heq | hunfounded
    · exact absurd hlinked hno
    · exact Or.inl hinvalid
    · exact Or.inr (Or.inl ⟨heq, d, declared, sort, heq⟩)
    · exact Or.inr (Or.inr hunfounded)
  | @attributed d declared sort =>
    obtain ⟨-, -, -, he, -⟩ := declaredType_ok declared
    have hlink := h.linked_or_missing declared fun j hj => .modified (typeAt_eq_ok.1 he) hj
    exact Or.inl (hlink.resolve_left hno)
  | @elaborated d declared sort =>
    obtain ⟨-, -, -, he, -⟩ := declaredType_ok declared
    have hlink := h.linked_or_missing declared fun j hj => .named (typeAt_eq_ok.1 he) hj
    exact Or.inl (hlink.resolve_left hno)
  | unexposed declared sort wrapped => exact absurd (h.canonical_linked declared wrapped) hno

private theorem Rootless.not_follows (h0 : u.Rootless) (h : u.Valid) :
    ¬ u.Follows TypeId.invalid t := by
  intro hf
  have hinvalid : ∀ d, u.declaredType TypeId.invalid = .ok d → d.entry.kind = .invalid :=
    fun d hd => (h0.declaredType h hd).2
  cases hf with
  | typedef declared sort | attributed declared sort | elaborated declared sort
  | unexposed declared sort =>
    rw [hinvalid _ declared] at sort
    cases sort

/-- `Follows` comes round exactly through a step that `Overlooks` links, since those have no
cycle. -/
theorem Valid.recurs_iff (h : u.Valid) :
    Recurs u.Follows t ↔ ∃ a b, ReflTransGen u.Follows t a ∧ u.Overlooks a b ∧
    ReflTransGen u.Follows b a := by
  constructor
  · rintro ⟨c, hreach, hcycle⟩
    rcases transGen_or_gap (S := u.LinksTo) hcycle with hlinks | ⟨a, b, hca, hab, hno, hbc⟩
    · exact absurd hlinks (acyclic_of_firstTypeCycle? h.handlesInRange h.acyclic c)
    · exact ⟨a, b, hreach.trans hca, ⟨hab, hno⟩, hbc.trans hca⟩
  · rintro ⟨a, b, hreach, ⟨hab, -⟩, hba⟩
    exact ⟨a, hreach, .head' hab hba⟩

private theorem Valid.unresolved_iff (h : u.Valid) {limit : Nat} (hlimit : u.types.size ≤ limit) :
    u.Unresolved (limit + 1) t ↔ Recurs u.Follows t := by
  rw [h.unresolved_iff_walks]
  refine ⟨fun hwalks => ?_, fun hrecurs => hrecurs.walks _⟩
  exact hwalks.recurs (f := id) (fun _ _ hf => h.follows_lt hf) (fun _ _ _ _ _ _ heq => heq)
    (Nat.lt_succ_of_le hlimit)

end TranslationUnit

/-- In a unit without a `fault?` and with a `limit` that is no less than the number of types, a
reference is `Unresolved` exactly if its classification comes round to a step that `Overlooks`
links. Such a step leads to `TypeId.invalid`, or from a type that `NamesItself` back to it, or
starts at a typedef that is `Unfounded`. So no reference is given up if the unit is `Rootless` and
has no types of these two sorts. -/
theorem classify_unresolved_iff {u : TranslationUnit} (hvalid : u.fault? = none) {limit : Nat}
    (hlimit : u.types.size ≤ limit) (t : TypeId) :
    (u.Unresolved (limit + 1) t ↔
      ∃ a b, ReflTransGen u.Follows t a ∧ u.Overlooks a b ∧ ReflTransGen u.Follows b a) ∧
    (∀ a b, u.Overlooks a b → b = TypeId.invalid ∨ b = a ∧ u.NamesItself a ∨ u.Unfounded a) ∧
    (u.Rootless → (∀ a, ¬ u.Unfounded a) → (∀ a, ¬ u.NamesItself a) →
      ¬ u.Unresolved (limit + 1) t) := by
  have h := TranslationUnit.valid_of_fault? hvalid
  have hiff := (h.unresolved_iff hlimit (t := t)).trans h.recurs_iff
  refine ⟨hiff, fun a b => h.overlooked, fun h0 hfounded hnamed hunresolved => ?_⟩
  obtain ⟨a, b, -, hover, hback⟩ := hiff.1 hunresolved
  rcases h.overlooked hover with rfl | ⟨-, hitself⟩ | hunfounded
  · -- Nothing follows the invalid type, so the walk does not come back from it.
    rcases hback.cases_head with rfl | ⟨c, hfollows, -⟩
    · exact h0.not_follows h hover.1
    · exact h0.not_follows h hfollows
  · exact hnamed a hitself
  · exact hfounded a hunfounded

/-- A typedef of itself, a wrapper without a link whose missing type it declares, and a typedef
without a declaration that comes back through the cursor for missing ones. -/
def circularUnit : TranslationUnit :=
  { filePath := "a.h"
    target := { triple := "x86_64-unknown-linux-gnu", pointerBits := 64 }
    cursors := #[
      { kind := .translationUnit, spelling := "a.h", children := [2, 3] },
      { kind := .noDeclFound, underlying := some 4 },
      { kind := .typedefDecl, spelling := "T", type := 1, underlying := some 1 },
      { kind := .structDecl, spelling := "S", type := 2 }]
    types := #[
      { kind := .invalid, declaration := some 3 },
      { kind := .typedef, spelling := "T", declaration := some 2 },
      { kind := .elaborated, spelling := "struct S" },
      { kind := .typedef, spelling := "U" },
      { kind := .elaborated, spelling := "U", named := some 3 }] }

theorem classify_circularUnit_unresolved :
    circularUnit.fault? = none ∧ circularUnit.types.size ≤ 64 ∧
    ∀ t ∈ [1, 2, 3], circularUnit.Unresolved 65 t ∧
      ∃ a b, ReflTransGen circularUnit.Follows t a ∧ circularUnit.Overlooks a b ∧
        ReflTransGen circularUnit.Follows b a := by
  have hvalid : circularUnit.fault? = none := by decide +kernel
  have hsize : circularUnit.types.size ≤ 64 := by decide
  have hunresolved : ∀ t ∈ [1, 2, 3], circularUnit.Unresolved 65 t := by
    have hT : circularUnit.classify 1 = .error (.invalidUnit (.unresolved "T")) := by decide +kernel
    have hS : circularUnit.classify 2 = .error (.invalidUnit (.unresolved "")) := by decide +kernel
    have hU : circularUnit.classify 3 = .error (.invalidUnit (.unresolved "U")) := by decide +kernel
    simp only [List.mem_cons, List.not_mem_nil, or_false]
    rintro t (rfl | rfl | rfl)
    · exact ⟨"T", hT⟩
    · exact ⟨"", hS⟩
    · exact ⟨"U", hU⟩
  exact ⟨hvalid, hsize, fun t ht =>
    ⟨hunresolved t ht, (classify_unresolved_iff hvalid hsize t).1.1 (hunresolved t ht)⟩⟩

end HeaderSurvey
