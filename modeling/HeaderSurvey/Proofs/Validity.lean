import HeaderSurvey.Proofs.Classification
import HeaderSurvey.Proofs.Elimination
import HeaderSurvey.Unit.Validation

/-! What validation makes sure of: every handle that can be read from a unit is in range, a missing
one included, and types are ranked downwards along their links. -/
namespace HeaderSurvey

variable {u : TranslationUnit}

/-- All that the handles of `t` lead to is in the arenas of `u`. -/
structure TypeEntry.InRange (u : TranslationUnit) (t : TypeEntry) : Prop where
  pointee : t.pointeeId < u.types.size
  element : t.elementId < u.types.size
  modified : t.modifiedId < u.types.size
  named : t.namedId < u.types.size
  result : t.resultId < u.types.size
  canonical : ∀ self < u.types.size, t.canonicalId self < u.types.size
  arguments : ∀ a ∈ t.arguments, a < u.types.size
  declaration : t.declarationId < u.cursors.size
  fields : ∀ c ∈ t.fields, c < u.cursors.size

structure Cursor.InRange (u : TranslationUnit) (c : Cursor) : Prop where
  type : c.type < u.types.size
  underlying : c.underlyingId < u.types.size
  integerType : c.integerTypeId < u.types.size
  children : ∀ id ∈ c.children, id < u.cursors.size

namespace TranslationUnit

/-- `u` passes `validate`. -/
structure Valid (u : TranslationUnit) : Prop where
  root : ∃ c, u.cursorAt CursorId.root = .ok c ∧ c.kind = .translationUnit
  noDeclaration : ∃ c, u.cursorAt CursorId.noDeclaration = .ok c ∧ c.kind = .noDeclFound
  invalid : ∃ t, u.typeAt TypeId.invalid = .ok t ∧ t.kind = .invalid
  cursors : ∀ id c, u.cursorAt id = .ok c → u.hasCursorHandles c = true
  types : ∀ id t, u.typeAt id = .ok t → u.hasTypeHandles t = true
  acyclic : u.firstTypeCycle? = none

theorem typeAt_eq_ok {t : TypeId} {entry : TypeEntry} :
    u.typeAt t = .ok entry ↔ u.types[t]? = some entry := by
  unfold typeAt
  cases u.types[t]? <;> simp

theorem cursorAt_eq_ok {c : CursorId} {cursor : Cursor} :
    u.cursorAt c = .ok cursor ↔ u.cursors[c]? = some cursor := by
  unfold cursorAt
  cases u.cursors[c]? <;> simp

theorem lt_of_typeAt {t : TypeId} {entry : TypeEntry} (h : u.typeAt t = .ok entry) :
    t < u.types.size := (Array.getElem?_eq_some_iff.1 (typeAt_eq_ok.1 h)).1

theorem lt_of_cursorAt {c : CursorId} {cursor : Cursor} (h : u.cursorAt c = .ok cursor) :
    c < u.cursors.size := (Array.getElem?_eq_some_iff.1 (cursorAt_eq_ok.1 h)).1

theorem valid_of_fault? (h : u.fault? = none) : u.Valid := by
  unfold fault? at h
  split_ifs at h with hroot hno hinvalid
  split at h
  · cases h
  · next hcursors =>
    split at h
    · cases h
    · next htypes =>
      rw [List.findIdx?_eq_none_iff] at hcursors htypes
      have hkind : ∀ {α β : Type} {o : Option α} {f : α → β} {b : β}, ¬ o.map f ≠ some b →
          ∃ a, o = some a ∧ f a = b := by
        intro α β o f b ho
        simpa [Option.map_eq_some_iff] using ho
      obtain ⟨root, hroot, hroot'⟩ := hkind hroot
      obtain ⟨no, hno, hno'⟩ := hkind hno
      obtain ⟨invalid, hinvalid, hinvalid'⟩ := hkind hinvalid
      refine ⟨⟨root, cursorAt_eq_ok.2 hroot, hroot'⟩, ⟨no, cursorAt_eq_ok.2 hno, hno'⟩,
        ⟨invalid, typeAt_eq_ok.2 hinvalid, hinvalid'⟩, ?_, ?_, by simpa using h⟩
      · intro id c hc
        have hmem := Array.mem_of_getElem? (cursorAt_eq_ok.1 hc)
        simpa using hcursors c (by simpa using hmem)
      · intro id t ht
        have hmem := Array.mem_of_getElem? (typeAt_eq_ok.1 ht)
        simpa using htypes t (by simpa using hmem)

theorem fault?_of_valid (h : u.Valid) : u.fault? = none := by
  obtain ⟨root, hroot, hroot'⟩ := h.root
  obtain ⟨no, hno, hno'⟩ := h.noDeclaration
  obtain ⟨invalid, hinvalid, hinvalid'⟩ := h.invalid
  have hcursors : u.cursors.toList.findIdx? (fun c => !u.hasCursorHandles c) = none := by
    refine List.findIdx?_eq_none_iff.2 fun c hc => ?_
    obtain ⟨id, hid⟩ := Array.mem_iff_getElem?.1 (Array.mem_toList_iff.1 hc)
    rw [h.cursors id c (cursorAt_eq_ok.2 hid)]
    rfl
  have htypes : u.types.toList.findIdx? (fun t => !u.hasTypeHandles t) = none := by
    refine List.findIdx?_eq_none_iff.2 fun t ht => ?_
    obtain ⟨id, hid⟩ := Array.mem_iff_getElem?.1 (Array.mem_toList_iff.1 ht)
    rw [h.types id t (typeAt_eq_ok.2 hid)]
    rfl
  unfold fault?
  rw [if_neg (by simpa using ⟨root, cursorAt_eq_ok.1 hroot, hroot'⟩),
    if_neg (by simpa using ⟨no, cursorAt_eq_ok.1 hno, hno'⟩),
    if_neg (by simpa using ⟨invalid, typeAt_eq_ok.1 hinvalid, hinvalid'⟩), hcursors, htypes,
    h.acyclic]
  rfl

/-- All handles of `u` are in range, whether or not its types can be ranked. -/
structure HandlesInRange (u : TranslationUnit) : Prop where
  cursors : ∀ c ∈ u.cursors, u.hasCursorHandles c = true
  types : ∀ t ∈ u.types, u.hasTypeHandles t = true

theorem HandlesInRange.links_lt (h : u.HandlesInRange) {t j : TypeId} (hj : j ∈ u.links t) :
    j < u.types.size := by
  unfold links at hj
  split at hj
  · cases hj
  · next entry hentry =>
    have hrange := h.types entry (Array.mem_of_getElem? hentry)
    simp only [hasTypeHandles, hasType, hasCursor, Bool.and_eq_true, Option.all_eq_true,
      decide_eq_true_eq] at hrange
    obtain ⟨⟨⟨⟨⟨⟨⟨⟨hpointee, helement⟩, hmodified⟩, hnamed⟩, hcanonical⟩, -⟩, -⟩, -⟩, -⟩ := hrange
    simp only [List.mem_append, Option.mem_toList, List.mem_filter] at hj
    rcases hj with (((hj | hj) | hj) | hj) | ⟨hj | hj, -⟩
    · exact hpointee j hj
    · exact helement j hj
    · exact hmodified j hj
    · exact hnamed j hj
    · exact hcanonical j hj
    · unfold declaredLinks at hj
      split at hj
      · next c hc =>
        obtain ⟨id, -, hc⟩ := Option.bind_eq_some_iff.1 hc
        have hcursor := h.cursors c (Array.mem_of_getElem? hc)
        simp only [hasCursorHandles, hasType, Bool.and_eq_true, Option.all_eq_true,
          decide_eq_true_eq] at hcursor
        rcases List.mem_cons.1 hj with rfl | hj
        · exact hcursor.1.1.1
        · exact hcursor.1.1.2 j (by simpa using hj)
      · cases hj

namespace Valid

variable {t : TypeId} {c : CursorId} {entry : TypeEntry} {cursor : Cursor}

theorem zero_lt_types (h : u.Valid) : TypeId.invalid < u.types.size := by
  obtain ⟨entry, hentry, -⟩ := h.invalid
  exact lt_of_typeAt hentry

private theorem one_lt_cursors (h : u.Valid) : CursorId.noDeclaration < u.cursors.size := by
  obtain ⟨cursor, hcursor, -⟩ := h.noDeclaration
  exact lt_of_cursorAt hcursor

theorem getD_lt {n default : Nat} {o : Option Nat} (hdefault : default < n)
    (h : ∀ a ∈ o, a < n) : o.getD default < n := by
  cases o with
  | none => exact hdefault
  | some a => exact h a rfl

theorem entry_inRange (h : u.Valid) (ht : u.typeAt t = .ok entry) : entry.InRange u := by
  have hrange := h.types t entry ht
  simp only [hasTypeHandles, hasType, hasCursor, Bool.and_eq_true, Option.all_eq_true,
    List.all_eq_true, decide_eq_true_eq] at hrange
  obtain ⟨⟨⟨⟨⟨⟨⟨⟨hpointee, helement⟩, hmodified⟩, hnamed⟩, hcanonical⟩, hresult⟩, harguments⟩,
    hdecl⟩, hfields⟩ := hrange
  exact ⟨getD_lt h.zero_lt_types hpointee, getD_lt h.zero_lt_types helement,
    getD_lt h.zero_lt_types hmodified, getD_lt h.zero_lt_types hnamed,
    getD_lt h.zero_lt_types hresult,
    fun self hself => getD_lt hself hcanonical, harguments, getD_lt h.one_lt_cursors hdecl, hfields⟩

theorem cursor_inRange (h : u.Valid) (hc : u.cursorAt c = .ok cursor) : cursor.InRange u := by
  have hrange := h.cursors c cursor hc
  simp only [hasCursorHandles, hasType, hasCursor, Bool.and_eq_true, Option.all_eq_true,
    List.all_eq_true, decide_eq_true_eq] at hrange
  obtain ⟨⟨⟨htype, hunderlying⟩, hinteger⟩, hchildren⟩ := hrange
  exact ⟨htype, getD_lt h.zero_lt_types hunderlying, getD_lt h.zero_lt_types hinteger, hchildren⟩

theorem handlesInRange (h : u.Valid) : u.HandlesInRange where
  cursors c hc := by
    obtain ⟨id, hid⟩ := Array.mem_iff_getElem?.1 hc
    exact h.cursors id c (cursorAt_eq_ok.2 hid)
  types t ht := by
    obtain ⟨id, hid⟩ := Array.mem_iff_getElem?.1 ht
    exact h.types id t (typeAt_eq_ok.2 hid)

theorem links_lt (h : u.Valid) {j : TypeId} (hj : j ∈ u.links t) : j < u.types.size :=
  h.handlesInRange.links_lt hj

end Valid

/-- A valid unit with a `rank` of its types: every link leads downwards, and a missing link to the
bottom. -/
structure Ranked (u : TranslationUnit) (rank : TypeId → Nat) : Prop extends u.Valid where
  bounded : ∀ i, rank i ≤ u.types.size + 1
  bottom : rank TypeId.invalid = 0
  positive : ∀ i, i ≠ TypeId.invalid → 0 < rank i
  falls : ∀ i j, i ≠ TypeId.invalid → j ∈ u.links i → rank j < rank i

theorem Valid.exists_ranked (h : u.Valid) : ∃ rank, u.Ranked rank := by
  obtain ⟨rank, hle, hfalls⟩ := exists_rank (fun i _ j hj => h.links_lt hj) h.acyclic
  refine ⟨fun i => if i = TypeId.invalid then 0 else rank i + 1, h, ?_, by simp, ?_, ?_⟩
  · intro i
    have := hle i
    split <;> omega
  · intro i hi
    simp [hi]
  · intro i j hi hj
    have hlt : i < u.types.size := by
      by_contra hge
      simp [links, Array.getElem?_eq_none (Nat.le_of_not_lt hge)] at hj
    have := hfalls i hlt j hj
    simp only [hi, if_false]
    split <;> omega

theorem mem_links {t j : TypeId} {entry : TypeEntry} (h : u.typeAt t = .ok entry) :
    j ∈ u.links t ↔ j ∈ entry.pointee ∨ j ∈ entry.element ∨ j ∈ entry.modified ∨ j ∈ entry.named ∨
      (j ∈ entry.canonical ∨ j ∈ u.declaredLinks entry) ∧ j ≠ t := by
  simp [links, typeAt_eq_ok.1 h, or_and_right]

theorem Valid.declarationOf_some (h : u.Valid) {entry : TypeEntry} {c : Cursor}
    (hc : u.declarationOf entry = .ok c) (hk : c.kind ≠ .noDeclFound) :
    ∃ id, entry.declaration = some id ∧ u.cursors[id]? = some c := by
  unfold declarationOf TypeEntry.declarationId at hc
  cases hd : entry.declaration with
  | none =>
    rw [hd] at hc
    obtain ⟨no, hno, hkind⟩ := h.noDeclaration
    cases hno.symm.trans hc
    exact absurd hkind hk
  | some id =>
    rw [hd] at hc
    exact ⟨id, rfl, cursorAt_eq_ok.1 hc⟩

/-- `declaredLinks` are the declared type and the `underlying` one of the declaration. -/
theorem mem_declaredLinks {entry : TypeEntry} {c : Cursor} (h : u.Valid)
    (hc : u.declarationOf entry = .ok c) (hk : c.kind ≠ .noDeclFound) {j : TypeId} :
    j ∈ u.declaredLinks entry ↔ j = c.type ∨ j ∈ c.underlying := by
  obtain ⟨id, hid, hcursor⟩ := h.declarationOf_some hc hk
  simp [declaredLinks, hid, hcursor]

namespace Ranked

variable {rank : TypeId → Nat} {t : TypeId} {entry : TypeEntry}

theorem getD_falls (h : u.Ranked rank) {o : Option TypeId} (ht : t ≠ TypeId.invalid)
    (ho : ∀ j ∈ o, j ∈ u.links t) : rank (o.getD TypeId.invalid) < rank t := by
  cases o with
  | none => simpa [h.bottom] using h.positive t ht
  | some j => exact h.falls t j ht (ho j rfl)

theorem pointee_falls (h : u.Ranked rank) (he : u.typeAt t = .ok entry) (ht : t ≠ TypeId.invalid) :
    rank entry.pointeeId < rank t := h.getD_falls ht fun _ hj => (mem_links he).2 (Or.inl hj)

theorem element_falls (h : u.Ranked rank) (he : u.typeAt t = .ok entry) (ht : t ≠ TypeId.invalid) :
    rank entry.elementId < rank t := h.getD_falls ht fun _ hj => (mem_links he).2 (by simp [hj])

private theorem modified_falls (h : u.Ranked rank) (he : u.typeAt t = .ok entry)
    (ht : t ≠ TypeId.invalid) :
    rank entry.modifiedId < rank t := h.getD_falls ht fun _ hj => (mem_links he).2 (by simp [hj])

private theorem named_falls (h : u.Ranked rank) (he : u.typeAt t = .ok entry)
    (ht : t ≠ TypeId.invalid) :
    rank entry.namedId < rank t := h.getD_falls ht fun _ hj => (mem_links he).2 (by simp [hj])

private theorem canonical_falls (h : u.Ranked rank) (he : u.typeAt t = .ok entry)
    (ht : t ≠ TypeId.invalid) (hne : entry.canonicalId t ≠ t) :
    rank (entry.canonicalId t) < rank t := by
  refine h.falls t _ ht ((mem_links he).2 ?_)
  unfold TypeEntry.canonicalId at hne ⊢
  cases hc : entry.canonical with
  | none => simp [hc] at hne
  | some j => simp_all

theorem underlying_falls (h : u.Ranked rank) (he : u.typeAt t = .ok entry) (ht : t ≠ TypeId.invalid)
    {c : Cursor} (hc : u.declarationOf entry = .ok c) (hk : c.kind ≠ .noDeclFound) :
    c.underlyingId = t ∨ rank c.underlyingId < rank t := by
  unfold Cursor.underlyingId
  cases hu : c.underlying with
  | none => exact Or.inr (by simpa [h.bottom] using h.positive t ht)
  | some j =>
    by_cases hj : j = t
    · exact Or.inl hj
    · refine Or.inr (h.falls t j ht ((mem_links he).2 ?_))
      simp [mem_declaredLinks h.toValid hc hk, hu, hj]

private theorem declared_falls (h : u.Ranked rank) {d : Declared} (hd : u.declaredType t = .ok d)
    (ht : t ≠ TypeId.invalid) : d.type = t ∨ rank d.type < rank t := by
  obtain ⟨entry, he, hdecl, -, heq | ⟨hk, heq⟩⟩ := declaredType_ok hd
  · exact Or.inl heq
  · by_cases hne : d.type = t
    · exact Or.inl hne
    · refine Or.inr (h.falls t _ ht ((mem_links he).2 ?_))
      simp [mem_declaredLinks h.toValid hdecl hk, heq, heq ▸ hne]

end Ranked

theorem Classifies.lt {t r : TypeId} {kind : Kind} (h : u.Classifies t kind r) :
    t < u.types.size := by
  obtain ⟨d, hd⟩ : ∃ d, u.declaredType t = .ok d := by
    cases h <;> exact ⟨_, by assumption⟩
  obtain ⟨entry, he, -⟩ := declaredType_ok hd
  exact lt_of_typeAt he

/-- `TypeId.invalid` is declared nowhere. -/
def Rootless (u : TranslationUnit) : Prop :=
  ∀ entry, u.typeAt TypeId.invalid = .ok entry → entry.declaration = none

theorem Rootless.declaredType {d : Declared} (h0 : u.Rootless) (h : u.Valid)
    (hd : u.declaredType TypeId.invalid = .ok d) :
    d.type = TypeId.invalid ∧ d.entry.kind = .invalid := by
  obtain ⟨entry, he, hdecl, hr, hcase⟩ := declaredType_ok hd
  obtain ⟨invalid, hinvalid, hkind⟩ := h.invalid
  rcases hcase with heq | ⟨hk, -⟩
  · rw [heq, hinvalid] at hr
    cases hr
    exact ⟨heq, hkind⟩
  · obtain ⟨no, hno, hkind'⟩ := h.noDeclaration
    rw [declarationOf, TypeEntry.declarationId, h0 entry he, Option.getD_none, hno] at hdecl
    cases hdecl
    exact absurd hkind' hk

theorem Valid.ne_invalid {t : TypeId} {entry : TypeEntry} (h : u.Valid)
    (he : u.typeAt t = .ok entry) (hk : entry.kind ≠ .invalid) : t ≠ TypeId.invalid := by
  rintro rfl
  obtain ⟨invalid, hinvalid, hkind⟩ := h.invalid
  rw [hinvalid] at he
  cases he
  exact hk hkind

/-- What `t` is classified as is `t` itself or of lower `rank`. -/
theorem Classifies.falls {rank : TypeId → Nat} {t r : TypeId} {kind : Kind} (h : u.Ranked rank)
    (h0 : u.Rootless) (hc : u.Classifies t kind r) : r = t ∨ rank r < rank t := by
  have hdeclared : ∀ {t : TypeId} {d : Declared}, u.declaredType t = .ok d →
      d.type = t ∨ rank d.type < rank t := by
    intro t d hd
    by_cases ht : t = TypeId.invalid
    · subst ht
      exact Or.inl (h0.declaredType h.toValid hd).1
    · exact h.declared_falls hd ht
  have hinner : ∀ {t r r' : TypeId} {d : Declared}, u.declaredType t = .ok d →
      rank r < rank d.type →
      (r' = r ∨ rank r' < rank r) → r' = t ∨ rank r' < rank t := by
    intro t r r' d hd hr hr'
    right
    rcases hdeclared hd with heq | hlt
    · rw [heq] at hr
      rcases hr' with rfl | hlt' <;> omega
    · rcases hr' with rfl | hlt' <;> omega
  induction hc with
  | primitive declared | enum declared | record declared | pointerTypedef declared
  | typedef declared | function declared | pointer declared | array declared =>
    exact hdeclared declared
  | attributed declared sort _ ih =>
    obtain ⟨-, -, -, he, -⟩ := declaredType_ok declared
    exact hinner declared (h.modified_falls he (h.ne_invalid he (by simp [sort]))) ih
  | elaborated declared sort _ ih =>
    obtain ⟨-, -, -, he, -⟩ := declaredType_ok declared
    exact hinner declared (h.named_falls he (h.ne_invalid he (by simp [sort]))) ih
  | unexposed declared sort wrapped _ ih =>
    obtain ⟨-, -, -, he, -⟩ := declaredType_ok declared
    exact hinner declared (h.canonical_falls he (h.ne_invalid he (by simp [sort])) wrapped) ih

end TranslationUnit
end HeaderSurvey
