import HeaderSurvey.Proofs.Ownership

/-! Units that are built of types that earlier steps returned are valid. All that a type refers to
was there before it, its own declaration apart, so the numbers of the types rank them downwards
along their links. -/
namespace HeaderSurvey

/-- The types that `t` refers to. -/
def TypeEntry.handles (t : TypeEntry) : List TypeId :=
  t.pointee.toList ++ t.element.toList ++ t.modified.toList ++ t.named.toList ++
    t.canonical.toList ++
    t.result.toList ++ t.arguments

/-- The types that `c` refers to. -/
def Cursor.handles (c : Cursor) : List TypeId :=
  c.type :: (c.underlying.toList ++ c.integerType.toList)

/-- All that the type with number `i` refers to was there before it; its declaration may declare
it. -/
structure TypeEntry.Descends (cs : List Cursor) (i : TypeId) (t : TypeEntry) : Prop where
  handles : ∀ j ∈ t.handles, j < i
  declaration : ∀ c ∈ t.declaration, ∃ cursor, cs[c]? = some cursor ∧ cursor.type ≤ i ∧
    ∀ j ∈ cursor.underlying, j < i

theorem TypeEntry.Descends.mono {cs cs' : List Cursor} {i : TypeId} {t : TypeEntry}
    (h : t.Descends cs i) (hcs : cs <+: cs') : t.Descends cs' i := by
  refine ⟨h.handles, fun c hc => ?_⟩
  obtain ⟨cursor, hcursor, hbelow⟩ := h.declaration c hc
  exact ⟨cursor, getElem?_extended hcs hcursor, hbelow⟩

/-- Types refer to earlier ones of `ts`, and the cursors `cs` to types that are there. -/
structure Grounded (cs : List Cursor) (ts : List TypeEntry) : Prop where
  types : ∀ (i : TypeId) t, ts[i]? = some t → t.Descends cs i
  cursors : ∀ c ∈ cs, ∀ j ∈ c.handles, j < ts.length

/-- `Grounded` over longer lists has to be shown of the `new` cursors and the `news` types only. -/
theorem Grounded.extend {cs new : List Cursor} {ts news : List TypeEntry} (h : Grounded cs ts)
    (htypes : ∀ (k : Nat) t, news[k]? = some t → t.Descends (cs ++ new) (ts.length + k))
    (hcursors : ∀ c ∈ new, ∀ j ∈ c.handles, j < (ts ++ news).length) :
    Grounded (cs ++ new) (ts ++ news) := by
  constructor
  · intro i t ht
    rw [List.getElem?_append] at ht
    split at ht
    · exact (h.types i t ht).mono (List.prefix_append _ _)
    · next hge =>
      have hdescends := htypes _ t ht
      rwa [Nat.add_sub_cancel' (Nat.le_of_not_lt hge)] at hdescends
  · intro c hc j hj
    rcases List.mem_append.1 hc with hold | hnew
    · exact Nat.lt_of_lt_of_le (h.cursors c hold j hj) (by simp)
    · exact hcursors c hnew j hj

namespace Builder

variable {step : Step} {b b' : Builder} {cs : List Cursor} {ts : List TypeEntry} {t : TypeId}

/-- A `Builder` whose unit is valid so far. -/
structure Sound (b : Builder) : Prop where
  grounded : Grounded b.unit.fixedCursors b.unit.fixedTypes
  children : ∀ c ∈ b.unit.cursors.toList, ∀ id ∈ c.children, id < b.nextCursor
  fields : ∀ t ∈ b.unit.types.toList, ∀ id ∈ t.fields, id < b.nextCursor
  primitives : ∀ e ∈ b.primitives, e.2 < b.nextType
  invalid : TypeId.invalid < b.nextType

theorem Sound.typeAt_descends (h : b.Sound) (t : TypeId) :
    (b.typeAt t).Descends b.unit.fixedCursors b.nextType := by
  rcases b.typeAt_cases t with hfound | hmissing
  · have hlt : t ≤ b.nextType := Nat.le_of_lt (Array.getElem?_eq_some_iff.1 hfound).1
    have hdescends := h.grounded.types t _ (TranslationUnit.fixedTypes_getElem? hfound)
    refine ⟨fun j hj => Nat.lt_of_lt_of_le (hdescends.handles j hj) hlt, fun c hc => ?_⟩
    obtain ⟨cursor, hcursor, htype, hunderlying⟩ := hdescends.declaration c hc
    exact ⟨cursor, hcursor, Nat.le_trans htype hlt,
      fun j hj => Nat.lt_of_lt_of_le (hunderlying j hj) hlt⟩
  · rw [hmissing]
    exact ⟨by simp [TypeEntry.handles], by simp⟩

theorem Step.MayUse.lt (h : b.Sound) (hgiven : ∀ t ∈ step.references, t < b.nextType)
    (huse : step.MayUse b t) : t < b.nextType := by
  cases huse with
  | given ht => exact hgiven t ht
  | present ht => exact ht
  | invalid => exact h.invalid
  | @argument _ f ht => exact (h.typeAt_descends f).handles t (by simp [TypeEntry.handles, ht])
  | @canonical _ s ht => exact (h.typeAt_descends s).handles t (by simp_all [TypeEntry.handles])
  | primitive ht => exact h.primitives _ ht

private theorem Step.Composes.descends (h : b.Sound)
    (hgiven : ∀ t ∈ step.references, t < b.nextType) {entry : TypeEntry}
    (hc : step.Composes b entry) :
    entry.Descends b.unit.fixedCursors b.nextType := by
  cases hc with
  | primitive => exact ⟨by simp [TypeEntry.handles], by simp⟩
  | constQualified s =>
    have hs := h.typeAt_descends s
    refine ⟨fun j hj => hs.handles j ?_, hs.declaration⟩
    simp only [TypeEntry.handles, List.mem_append] at hj ⊢
    tauto
  | pointer use => exact ⟨by simpa [TypeEntry.handles] using use.lt h hgiven, by simp⟩
  | array _ use => exact ⟨by simpa [TypeEntry.handles] using use.lt h hgiven, by simp⟩
  | function use uses =>
    refine ⟨?_, by simp⟩
    simpa [TypeEntry.handles] using ⟨use.lt h hgiven, fun t ht => (uses t ht).lt h hgiven⟩
  | @elaborated s canonical use canonical_use =>
    refine ⟨?_, (h.typeAt_descends s).declaration⟩
    simpa [TypeEntry.handles] using ⟨use.lt h hgiven, canonical_use.lt h hgiven⟩
  | attributed use canonical_use =>
    refine ⟨?_, by simp⟩
    simpa [TypeEntry.handles] using ⟨use.lt h hgiven, canonical_use.lt h hgiven⟩
  | unexposed use => exact ⟨by simpa [TypeEntry.handles] using use.lt h hgiven, by simp⟩

theorem Step.Extends.grounded (e : step.Extends b cs ts) (h : b.Sound)
    (hgiven : ∀ t ∈ step.references, t < b.nextType) : Grounded cs ts := by
  cases e with
  | nothing => exact h.grounded
  | @compose entry composed =>
    rw [← List.append_nil b.unit.fixedCursors]
    refine h.grounded.extend ?_ (by simp)
    intro k t ht
    obtain ⟨rfl, rfl⟩ : k = 0 ∧ entry.fixed = t := by simpa [List.getElem?_singleton] using ht
    rw [length_fixedTypes, List.append_nil]
    have hdescends := composed.descends h hgiven
    exact ⟨hdescends.handles, hdescends.declaration⟩
  | @declare cursor parts own declaration =>
    obtain ⟨hpointee, helement, hmodified, hnamed, hresult, harguments, -⟩ := declaration.leaf
    refine h.grounded.extend ?_ ?_
    · intro k t ht
      obtain ⟨rfl, rfl⟩ : k = 0 ∧ own.fixed = t := by simpa [List.getElem?_singleton] using ht
      rw [length_fixedTypes]
      constructor
      · intro j hj
        refine (declaration.canonical j ?_).lt h hgiven
        simpa [TypeEntry.handles, TypeEntry.fixed, hpointee, helement, hmodified, hnamed, hresult,
          harguments] using hj
      · intro c hc
        obtain rfl : b.nextCursor = c := Option.some.inj (declaration.declaration.symm.trans hc)
        refine ⟨cursor.fixed, by simp [← length_fixedCursors], Nat.le_of_eq declaration.type, ?_⟩
        exact fun j hj => (declaration.underlying j hj).lt h hgiven
    · intro c hc j hj
      rw [List.length_append, length_fixedTypes, List.length_singleton]
      rcases List.mem_cons.1 hc with rfl | hc
      · simp only [Cursor.handles, Cursor.fixed, List.mem_cons, List.mem_append,
          Option.mem_toList] at hj
        rcases hj with rfl | hj | hj
        · exact Nat.lt_succ_of_le (Nat.le_of_eq declaration.type)
        · exact Nat.lt_succ_of_lt ((declaration.underlying j hj).lt h hgiven)
        · exact Nat.lt_succ_of_lt ((declaration.integerType j hj).lt h hgiven)
      · obtain ⟨part, hpart, rfl⟩ := List.mem_map.1 hc
        have hplain := declaration.parts part hpart
        have hself : j = b.nextType := by
          simpa [Cursor.handles, Cursor.fixed, hplain.underlying, hplain.integerType,
            hplain.type] using hj
        exact Nat.lt_succ_of_le (Nat.le_of_eq hself)
  | @cursors new plain =>
    rw [← List.append_nil b.unit.fixedTypes]
    refine h.grounded.extend (by simp) ?_
    intro c hc j hj
    obtain ⟨cursor, hcursor, rfl⟩ := List.mem_map.1 hc
    have hplain := plain cursor hcursor
    have hself : j = cursor.type := by
      simpa [Cursor.handles, Cursor.fixed, hplain.underlying, hplain.integerType] using hj
    rw [hself, List.append_nil, length_fixedTypes]
    exact hplain.type.lt h hgiven

theorem Step.Edit.nextCursor_le (e : step.Edit b b') : b.nextCursor ≤ b'.nextCursor := by
  have hle := e.extends.prefixes.1.length_le
  rwa [length_fixedCursors, length_fixedCursors] at hle

theorem Step.Edit.nextType_le (e : step.Edit b b') : b.nextType ≤ b'.nextType := by
  have hle := e.extends.prefixes.2.length_le
  rwa [length_fixedTypes, length_fixedTypes] at hle

theorem forall_mem_modify {α : Type} {P : α → Prop} {f : α → α} {l : List α} (h : ∀ a ∈ l, P a)
    (hf : ∀ a, P a → P (f a)) (i : Nat) : ∀ a ∈ l.modify i f, P a := by
  intro a ha
  obtain ⟨j, hj⟩ := List.mem_iff_getElem?.1 ha
  rw [List.getElem?_modify] at hj
  obtain ⟨a', ha', rfl⟩ := Option.map_eq_some_iff.1 hj
  have hold := h a' (List.mem_of_getElem? ha')
  split
  · exact hf a' hold
  · exact hold

private theorem toList_addCursors (b : Builder) (cursors : List Cursor) :
    (b.addCursors cursors).unit.cursors.toList = b.unit.cursors.toList ++ cursors := by
  simp [addCursors]

private theorem toList_addType (b : Builder) (t : TypeEntry) :
    (b.addType t).unit.types.toList = b.unit.types.toList ++ [t] := by
  simp [addType]

theorem Step.Edit.children (e : step.Edit b b') (h : b.Sound) :
    ∀ c ∈ b'.unit.cursors.toList, ∀ id ∈ c.children, id < b'.nextCursor := by
  have hold : ∀ c ∈ b.unit.cursors.toList, ∀ id ∈ c.children, id < b'.nextCursor :=
    fun c hc id hid => Nat.lt_of_lt_of_le (h.children c hc id hid) e.nextCursor_le
  cases e with
  | move unit =>
    rw [unit]
    exact hold
  | compose => exact hold
  | @declare cursor parts own declaration =>
    intro c hc id hid
    change c ∈ (b.addCursors (cursor :: parts)).unit.cursors.toList at hc
    rw [toList_addCursors, List.mem_append, List.mem_cons] at hc
    rcases hc with hc | rfl | hc
    · exact hold c hc id hid
    · simpa using declaration.children id hid
    · exact absurd ((declaration.parts c hc).children id hid) (Nat.not_lt_zero id)
  | @cursors new plain =>
    intro c hc id hid
    rw [toList_addCursors, List.mem_append] at hc
    rcases hc with hc | hc
    · exact hold c hc id hid
    · have hlt := (plain c hc).children id hid
      rw [nextCursor_addCursors]
      exact Nat.lt_of_lt_of_le hlt (Nat.le_add_right ..)
  | define fields =>
    simp only [modifyType, modifyCursor, Array.toList_modify]
    refine forall_mem_modify hold (fun c _ id hid => ?_) _
    have hlt : id < b.nextCursor := (fields id hid).lt
    simpa using hlt
  | @topLevel top there =>
    simp only [addTopLevel, modifyCursor, Array.toList_modify]
    refine forall_mem_modify hold (fun c hc id hid => ?_) _
    rcases List.mem_append.1 hid with hid | hid
    · exact hc id hid
    · rw [List.mem_singleton.1 hid]
      simpa [addTopLevel] using there

theorem Step.Composes.fields {entry : TypeEntry} (hc : step.Composes b entry) {id : CursorId}
    (hid : id ∈ entry.fields) : ∃ t ∈ b.unit.types.toList, id ∈ t.fields := by
  cases hc with
  | constQualified s =>
    rcases b.typeAt_cases s with hfound | hmissing
    · exact ⟨b.typeAt s, Array.mem_toList_iff.2 (Array.mem_of_getElem? hfound), hid⟩
    · simp [hmissing] at hid
  | primitive | pointer | array | function | elaborated | attributed | unexposed => cases hid

theorem Step.Edit.fields (e : step.Edit b b') {K : CursorId → Prop}
    (hold : ∀ t ∈ b.unit.types.toList, ∀ id ∈ t.fields, K id)
    (hfield : ∀ id, b.unit.IsField id → K id) :
    ∀ t ∈ b'.unit.types.toList, ∀ id ∈ t.fields, K id := by
  cases e with
  | move unit =>
    rw [unit]
    exact hold
  | @compose entry _ composed =>
    intro t ht id hid
    change t ∈ (b.addType entry).unit.types.toList at ht
    rw [toList_addType, List.mem_append, List.mem_singleton] at ht
    rcases ht with ht | rfl
    · exact hold t ht id hid
    · obtain ⟨t', ht', hid'⟩ := composed.fields hid
      exact hold t' ht' id hid'
  | @declare cursor parts own declaration =>
    intro t ht id hid
    rw [toList_addType, List.mem_append, List.mem_singleton] at ht
    rcases ht with ht | rfl
    · exact hold t ht id hid
    · simp [declaration.leaf] at hid
  | cursors => exact hold
  | define fields =>
    simp only [modifyType, modifyCursor, Array.toList_modify]
    exact forall_mem_modify hold (fun t _ id hid => hfield id (fields id hid)) _
  | topLevel => exact hold

private theorem Step.Edit.fields_lt (e : step.Edit b b') (h : b.Sound) :
    ∀ t ∈ b'.unit.types.toList, ∀ id ∈ t.fields, id < b'.nextCursor :=
  e.fields (fun t ht id hid => Nat.lt_of_lt_of_le (h.fields t ht id hid) e.nextCursor_le)
    fun _ hid => Nat.lt_of_lt_of_le hid.lt e.nextCursor_le

theorem Step.Edit.primitives (e : step.Edit b b') (h : b.Sound) :
    ∀ p ∈ b'.primitives, p.2 < b'.nextType := by
  have hold : ∀ p ∈ b.primitives, p.2 < b'.nextType :=
    fun p hp => Nat.lt_of_lt_of_le (h.primitives p hp) e.nextType_le
  cases e with
  | move _ primitives =>
    rw [primitives]
    exact hold
  | @compose entry known composed primitives =>
    intro p hp
    rcases primitives p hp with hp | hp
    · exact hold p hp
    · rw [hp]
      change b.nextType < (b.addType entry).nextType
      simp
  | declare | cursors | define | topLevel => exact hold

theorem Step.Edit.sound (e : step.Edit b b') (h : b.Sound)
    (hgiven : ∀ t ∈ step.references, t < b.nextType) : b'.Sound :=
  ⟨e.extends.grounded h hgiven, e.children h, e.fields_lt h, e.primitives h,
    Nat.lt_of_lt_of_le h.invalid e.nextType_le⟩

theorem Step.run_sound (step : Step) (h : b.Sound)
    (hgiven : ∀ t ∈ step.references, t < b.nextType) :
    (step.run b).1.Sound ∧ b.nextType ≤ (step.run b).1.nextType := by
  refine keeps_run (Q := fun b' => b'.Sound ∧ b.nextType ≤ b'.nextType) ?_ (step.run_edits b)
    ⟨h, Nat.le_refl _⟩
  rintro b₁ b₂ e ⟨h₁, hle⟩
  exact ⟨e.sound h₁ fun t ht => Nat.lt_of_lt_of_le (hgiven t ht) hle,
    Nat.le_trans hle e.nextType_le⟩

/-! ## Types that steps return -/

/-- The types that `Step.run` has returned. -/
def Made.types : Made → List TypeId
  | .type t => [t]
  | .nothing | .cursor _ => []

/-- Each step is given types that earlier steps have `returned`, or `TypeId.invalid`. -/
def Connected (b : Builder) (returned : List TypeId) : List Step → Prop
  | [] => True
  | step :: steps => (∀ t ∈ step.references, t = TypeId.invalid ∨ t ∈ returned) ∧
      Connected (step.run b).1 ((step.run b).2.types ++ returned) steps

instance Connected.decidable (b : Builder) (returned : List TypeId) (steps : List Step) :
    Decidable (Connected b returned steps) :=
  match steps with
  | [] => .isTrue trivial
  | step :: steps =>
    have := Connected.decidable (step.run b).1 ((step.run b).2.types ++ returned) steps
    inferInstanceAs (Decidable (_ ∧ _))

theorem Step.made_mayUse (step : Step) (b : Builder) :
    ∀ t ∈ (step.run b).2.types, step.MayUse (step.run b).1 t := by
  have hadded : ∀ t : TypeEntry, step.MayUse (b.addType t) b.nextType := fun t => .present (by simp)
  intro t ht
  cases step with
  | inFile | systemHeader | defineRecord => cases ht
  | function | functionOfType | staticFunction | globalVariable | macroDefinition => cases ht
  | primitive kind =>
    obtain rfl := List.mem_singleton.1 ht
    exact primitive_mayUse _ b kind
  | constQualified | pointer | constantArray | incompleteArray | functionType | elaborated
  | attributed | unexposed =>
    obtain rfl := List.mem_singleton.1 ht
    exact hadded _
  | record | forwardRecord =>
    obtain rfl := List.mem_singleton.1 ht
    exact .present (namedRecord_lt ..)
  | anonymousRecord | unnamedStruct =>
    obtain rfl := List.mem_singleton.1 ht
    exact .present (addRecord_lt ..)
  | typedef | typedefStruct =>
    obtain rfl := List.mem_singleton.1 ht
    exact .present (typedef_lt ..)
  | enum =>
    obtain rfl := List.mem_singleton.1 ht
    exact .present (addEnum_lt ..)
  | anonymousEnum =>
    obtain rfl := List.mem_singleton.1 ht
    exact .present (anonymousEnum_lt ..)

theorem start_sound (file triple : String) (bits : Nat) : (start file triple bits).Sound := by
  refine ⟨⟨?_, ?_⟩, ?_, ?_, ?_, ?_⟩
  · intro i t ht
    obtain ⟨rfl, rfl⟩ : i = 0 ∧ TypeEntry.fixed { kind := .invalid } = t := by
      simpa [TranslationUnit.fixedTypes, start, List.getElem?_singleton] using ht
    exact ⟨by simp [TypeEntry.handles, TypeEntry.fixed], by simp [TypeEntry.fixed]⟩
  · simp [TranslationUnit.fixedCursors, TranslationUnit.fixedTypes, start, Cursor.handles,
      Cursor.fixed, TypeId.invalid]
  · simp [start]
  · simp [start]
  · simp [start]
  · exact Nat.zero_lt_one

/-- A step of `Connected` steps finds its `references`, and keeps the builder `Sound`. -/
theorem Connected.run {step : Step} {steps : List Step} {returned : List TypeId}
    (h : Connected b returned (step :: steps)) (hb : b.Sound)
    (hreturned : ∀ t ∈ returned, t < b.nextType) :
    (∀ t ∈ step.references, t < b.nextType) ∧ (step.run b).1.Sound ∧
      ∀ t ∈ (step.run b).2.types ++ returned, t < (step.run b).1.nextType := by
  have hgiven : ∀ t ∈ step.references, t < b.nextType := by
    intro t ht
    rcases h.1 t ht with rfl | hmem
    · exact hb.invalid
    · exact hreturned t hmem
  obtain ⟨hsound, hle⟩ := step.run_sound hb hgiven
  have hgiven' : ∀ t ∈ step.references, t < (step.run b).1.nextType :=
    fun t ht => Nat.lt_of_lt_of_le (hgiven t ht) hle
  refine ⟨hgiven, hsound, fun t ht => ?_⟩
  rcases List.mem_append.1 ht with hmade | hold
  · exact (step.made_mayUse b t hmade).lt hsound hgiven'
  · exact Nat.lt_of_lt_of_le (hreturned t hold) hle

/-- `Connected` steps keep the builder `Sound` and all that they `returned` in its range. -/
theorem Connected.suffix {steps more : List Step} {returned : List TypeId}
    (h : Connected b returned (steps ++ more)) (hb : b.Sound)
    (hreturned : ∀ t ∈ returned, t < b.nextType) :
    ∃ returned', Connected (b.after steps) returned' more ∧ (b.after steps).Sound ∧
      ∀ t ∈ returned', t < (b.after steps).nextType := by
  induction steps generalizing b returned with
  | nil => exact ⟨returned, h, hb, hreturned⟩
  | cons step steps ih =>
    obtain ⟨-, hsound, hmade⟩ := h.run hb hreturned
    exact ih h.2 hsound hmade

theorem Connected.sound {steps : List Step} {returned : List TypeId}
    (h : Connected b returned steps) (hb : b.Sound) (hreturned : ∀ t ∈ returned, t < b.nextType) :
    (b.after steps).Sound := by
  have happend : Connected b returned (steps ++ []) := (List.append_nil steps).symm ▸ h
  obtain ⟨-, -, hsound, -⟩ := happend.suffix hb hreturned
  exact hsound

/-! ## Validity -/

theorem Sound.declaredLinks_le (h : b.Sound) {i j : TypeId} {entry : TypeEntry}
    (hentry : b.unit.types[i]? = some entry) (hj : j ∈ b.unit.declaredLinks entry) : j ≤ i := by
  unfold TranslationUnit.declaredLinks at hj
  split at hj
  · next cursor hcursor =>
    obtain ⟨c, hc, hcursor⟩ := Option.bind_eq_some_iff.1 hcursor
    have hfixed := TranslationUnit.fixedCursors_getElem? hcursor
    obtain ⟨_, hfound, htype, hunderlying⟩ :=
      (h.grounded.types i _ (TranslationUnit.fixedTypes_getElem? hentry)).declaration c hc
    cases hfixed.symm.trans hfound
    rcases List.mem_cons.1 hj with rfl | hj
    · exact htype
    · exact Nat.le_of_lt (hunderlying j (Option.mem_toList.1 hj))
  · cases hj

/-- In a `Sound` builder, `links` lead to earlier types. -/
theorem Sound.links_lt (h : b.Sound) {i j : TypeId} (hj : j ∈ b.unit.links i) : j < i := by
  unfold TranslationUnit.links at hj
  split at hj
  · cases hj
  · next entry hentry =>
    have hhandles : ∀ j ∈ entry.handles, j < i :=
      (h.grounded.types i _ (TranslationUnit.fixedTypes_getElem? hentry)).handles
    simp only [TypeEntry.handles, List.mem_append] at hhandles
    simp only [List.mem_append, List.mem_filter, decide_eq_true_eq] at hj
    rcases hj with hj | ⟨hj | hj, hne⟩
    · exact hhandles j (by tauto)
    · exact hhandles j (by tauto)
    · exact Nat.lt_of_le_of_ne (h.declaredLinks_le hentry hj) hne

theorem Sound.hasCursorHandles (h : b.Sound) {c : Cursor} (hc : c ∈ b.unit.cursors.toList) :
    b.unit.hasCursorHandles c = true := by
  have hfixed : c.fixed ∈ b.unit.fixedCursors := List.mem_map_of_mem hc
  have hhandles : ∀ j ∈ c.handles, j < b.unit.types.size := by
    have hlt := h.grounded.cursors c.fixed hfixed
    rwa [length_fixedTypes] at hlt
  have hchildren : ∀ id ∈ c.children, id < b.unit.cursors.size := h.children c hc
  simp only [Cursor.handles, List.mem_cons, List.mem_append, Option.mem_toList] at hhandles
  simp only [TranslationUnit.hasCursorHandles, TranslationUnit.hasType, TranslationUnit.hasCursor,
    Bool.and_eq_true, Option.all_eq_true, List.all_eq_true, decide_eq_true_eq]
  exact ⟨⟨⟨hhandles _ (by simp), fun j hj => hhandles j (by simp [hj])⟩,
    fun j hj => hhandles j (by simp [hj])⟩, hchildren⟩

theorem Sound.hasTypeHandles (h : b.Sound) {i : TypeId} {entry : TypeEntry}
    (hentry : b.unit.types[i]? = some entry) : b.unit.hasTypeHandles entry = true := by
  have hi : i < b.unit.types.size := (Array.getElem?_eq_some_iff.1 hentry).1
  have hdescends := h.grounded.types i _ (TranslationUnit.fixedTypes_getElem? hentry)
  have hhandles : ∀ j ∈ entry.handles, j < b.unit.types.size :=
    fun j hj => Nat.lt_trans (hdescends.handles j hj) hi
  have hfields : ∀ id ∈ entry.fields, id < b.unit.cursors.size :=
    h.fields entry (Array.mem_toList_iff.2 (Array.mem_of_getElem? hentry))
  have hdeclaration : ∀ c ∈ entry.declaration, c < b.unit.cursors.size := by
    intro c hc
    obtain ⟨cursor, hcursor, -⟩ := hdescends.declaration c hc
    have hlt := (List.getElem?_eq_some_iff.1 hcursor).1
    rwa [length_fixedCursors] at hlt
  simp only [TypeEntry.handles, List.mem_append, Option.mem_toList] at hhandles
  simp only [TranslationUnit.hasTypeHandles, TranslationUnit.hasType, TranslationUnit.hasCursor,
    Bool.and_eq_true, Option.all_eq_true, List.all_eq_true, decide_eq_true_eq]
  refine ⟨⟨⟨⟨⟨⟨⟨⟨?_, ?_⟩, ?_⟩, ?_⟩, ?_⟩, ?_⟩, ?_⟩, hdeclaration⟩, hfields⟩
  all_goals exact fun j hj => hhandles j (by tauto)

theorem Sound.valid (h : b.Sound) {file triple : String} {bits : Nat}
    (hcursors : (start file triple bits).unit.fixedCursors <+: b.unit.fixedCursors)
    (htypes : (start file triple bits).unit.fixedTypes <+: b.unit.fixedTypes) : b.unit.Valid := by
  have hlt : ∀ i < b.unit.types.size, ∀ j ∈ b.unit.links i, j < i := fun i _ j hj => h.links_lt hj
  refine ⟨?_, ?_, ?_, ?_, ?_, ?_⟩
  · obtain ⟨root, hroot, hfixed⟩ := TranslationUnit.cursorAt_of_fixedCursors
      (getElem?_extended hcursors rfl : b.unit.fixedCursors[CursorId.root]? = _)
    exact ⟨root, hroot, congrArg Cursor.kind hfixed⟩
  · obtain ⟨no, hno, hfixed⟩ := TranslationUnit.cursorAt_of_fixedCursors
      (getElem?_extended hcursors rfl : b.unit.fixedCursors[CursorId.noDeclaration]? = _)
    exact ⟨no, hno, congrArg Cursor.kind hfixed⟩
  · obtain ⟨invalid, hinvalid, hfixed⟩ := TranslationUnit.typeAt_of_fixedTypes
      (getElem?_extended htypes rfl : b.unit.fixedTypes[TypeId.invalid]? = _)
    exact ⟨invalid, hinvalid, congrArg TypeEntry.kind hfixed⟩
  · intro id c hc
    have hmem := Array.mem_of_getElem? (TranslationUnit.cursorAt_eq_ok.1 hc)
    exact h.hasCursorHandles (Array.mem_toList_iff.2 hmem)
  · intro id t ht
    exact h.hasTypeHandles (TranslationUnit.typeAt_eq_ok.1 ht)
  · exact TranslationUnit.firstTypeCycle?_eq_none
      (fun i hi j hj => Nat.lt_trans (hlt i hi j hj) hi) hlt

theorem Connected.valid {file triple : String} {pointerBits : Nat} {steps : List Step}
    (h : Connected (start file triple pointerBits) [] steps) :
    (build file triple pointerBits steps).Valid := by
  obtain ⟨hcursors, htypes⟩ := (start file triple pointerBits).prefixes_after steps
  exact (h.sound (start_sound file triple pointerBits) (by simp)).valid hcursors htypes

end Builder

/-- A unit that `build` makes of `Connected` steps, each given only types that earlier ones
returned, passes `validate`. -/
theorem build_validates {file triple : String} {pointerBits : Nat} {steps : List Builder.Step}
    (h : Builder.Connected (Builder.start file triple pointerBits) [] steps) :
    (Builder.build file triple pointerBits steps).validate =
      .ok (Builder.build file triple pointerBits steps) := by
  have hsound := h.sound (Builder.start_sound file triple pointerBits) (by simp)
  -- What a unit starts with stays in its place.
  obtain ⟨hcursors, htypes⟩ := (Builder.start file triple pointerBits).prefixes_after steps
  have hvalid : (Builder.build file triple pointerBits steps).Valid := hsound.valid hcursors htypes
  rw [TranslationUnit.validate, TranslationUnit.fault?_of_valid hvalid]

def cyclicName : String := "Node"

/-- A record that holds a pointer to itself by way of a typedef, defined twice, and attempts to give
fields to types without a declaration. -/
def cyclicSteps : List Builder.Step :=
  [.forwardRecord .struct cyclicName, .constQualified 1, .elaborated 2, .typedef cyclicName 3,
    .pointer 4, .primitive .int, .defineRecord 1 [("next", 5), ("count", 6)],
    .defineRecord 4 [("value", 6)],
    .defineRecord 1 [("next", 5)], .defineRecord 0 [("lost", 0)], .defineRecord 5 [("lost", 1)],
    .enum "Mode" [("A", -1), ("B", 2)], .function "visit" 0 [("node", 5), ("mode", 7)] true]

theorem build_cyclicSteps_validates :
    Builder.Connected (Builder.start "a.h" "x86_64-unknown-linux-gnu" 64) [] cyclicSteps ∧
      (Builder.build "a.h" "x86_64-unknown-linux-gnu" 64 cyclicSteps).validate =
        .ok (Builder.build "a.h" "x86_64-unknown-linux-gnu" 64 cyclicSteps) := by
  have h : Builder.Connected (Builder.start "a.h" "x86_64-unknown-linux-gnu" 64) []
      cyclicSteps := by
    decide
  exact ⟨h, build_validates h⟩

end HeaderSurvey
