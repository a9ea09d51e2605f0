import HeaderSurvey.Proofs.Edits
import HeaderSurvey.Proofs.Steps

/-! What every unit has in common that is built step by step: a type with a declaration shares it
with the type that was declared by it, and the two go by one name if the names of types are
plain. -/
namespace HeaderSurvey

/-- What never changes about a cursor: all but its `children`. -/
def Cursor.fixed (c : Cursor) : Cursor := { c with children := [] }

/-- What never changes about a type: all but its layout and its `fields`. -/
def TypeEntry.fixed (t : TypeEntry) : TypeEntry := { t with size := 0, align := 0, fields := [] }

/-- The cursor at a handle declares the type, which has this declaration; `N` says what the name,
the spelling of the type and anonymity have to do with each other. -/
structure Owns (N : String → String → Bool → Prop) (cs : List Cursor) (ts : List TypeEntry)
    (c : CursorId) (cursor : Cursor) (own : TypeEntry) : Prop where
  cursor_eq : cs[c]? = some cursor
  type_eq : ts[cursor.type]? = some own
  declaration : own.declaration = some c
  sort : cursor.kind.declares? = some own.kind
  named : N cursor.spelling own.spelling cursor.anonymous

/-- The kinds of types that may have a `declaration`: those that are declared, and `elaborated`. -/
def TypeKind.isDeclarable (k : TypeKind) : Bool :=
  k = .record ∨ k = .enum ∨ k = .typedef ∨ k = .elaborated

theorem CursorKind.isDeclarable_of_declares? {k : CursorKind} {sort : TypeKind}
    (h : k.declares? = some sort) : sort.isDeclarable = true := by
  unfold CursorKind.declares? at h
  split at h <;> cases h <;> rfl

/-- Declarations and declared types are paired off. -/
structure Paired (N : String → String → Bool → Prop) (cs : List Cursor) (ts : List TypeEntry) :
    Prop where
  noDeclaration : cs[CursorId.noDeclaration]? = some { kind := .noDeclFound }
  shared : ∀ t ∈ ts, ∀ c ∈ t.declaration,
    t.kind.isDeclarable = true ∧ ∃ cursor own, Owns N cs ts c cursor own
  declared : ∀ (c : CursorId) cursor, cs[c]? = some cursor → cursor.kind.declares? ≠ none →
    ∃ own, Owns N cs ts c cursor own

theorem getElem?_extended {α : Type} {l l' : List α} (h : l <+: l') {i : Nat} {a : α}
    (ha : l[i]? = some a) : l'[i]? = some a := by
  obtain ⟨rest, rfl⟩ := h
  rwa [List.getElem?_append_left (List.getElem?_eq_some_iff.1 ha).1]

theorem Owns.mono {N : String → String → Bool → Prop} {cs cs' : List Cursor}
    {ts ts' : List TypeEntry} {c : CursorId} {cursor : Cursor} {own : TypeEntry}
    (h : Owns N cs ts c cursor own) (hcs : cs <+: cs') (hts : ts <+: ts') :
    Owns N cs' ts' c cursor own :=
  ⟨getElem?_extended hcs h.cursor_eq, getElem?_extended hts h.type_eq, h.declaration, h.sort,
    h.named⟩

/-- `Paired` over longer lists has to be shown of the `new` cursors and the `news` types only. -/
theorem Paired.extend {N : String → String → Bool → Prop} {cs new : List Cursor}
    {ts news : List TypeEntry} (h : Paired N cs ts)
    (hshared : ∀ t ∈ news, ∀ c ∈ t.declaration, t.kind.isDeclarable = true ∧
      ∃ cursor own, Owns N (cs ++ new) (ts ++ news) c cursor own)
    (hdeclared : ∀ (i : Nat) cursor, new[i]? = some cursor → cursor.kind.declares? ≠ none →
      ∃ own, Owns N (cs ++ new) (ts ++ news) (cs.length + i) cursor own) :
    Paired N (cs ++ new) (ts ++ news) := by
  have hcs : cs <+: cs ++ new := List.prefix_append _ _
  have hts : ts <+: ts ++ news := List.prefix_append _ _
  refine ⟨getElem?_extended hcs h.noDeclaration, ?_, ?_⟩
  · intro t ht c hc
    rcases List.mem_append.1 ht with hold | hnew
    · obtain ⟨hkind, cursor, own, howns⟩ := h.shared t hold c hc
      exact ⟨hkind, cursor, own, howns.mono hcs hts⟩
    · exact hshared t hnew c hc
  · intro c cursor hc hk
    rw [List.getElem?_append] at hc
    split at hc
    · obtain ⟨own, howns⟩ := h.declared c cursor hc hk
      exact ⟨own, howns.mono hcs hts⟩
    · next hge =>
      obtain ⟨own, howns⟩ := hdeclared _ cursor hc hk
      exact ⟨own, by rwa [Nat.add_sub_cancel' (Nat.le_of_not_lt hge)] at howns⟩

namespace TranslationUnit

def fixedCursors (u : TranslationUnit) : List Cursor := u.cursors.toList.map Cursor.fixed

def fixedTypes (u : TranslationUnit) : List TypeEntry := u.types.toList.map TypeEntry.fixed

theorem fixedCursors_getElem? {u : TranslationUnit} {c : CursorId} {cursor : Cursor}
    (h : u.cursors[c]? = some cursor) : u.fixedCursors[c]? = some cursor.fixed := by
  simp [fixedCursors, h]

theorem fixedTypes_getElem? {u : TranslationUnit} {t : TypeId} {entry : TypeEntry}
    (h : u.types[t]? = some entry) : u.fixedTypes[t]? = some entry.fixed := by
  simp [fixedTypes, h]

/-- Each type with a declaration shares it with the type that was declared by it. -/
def Paired (N : String → String → Bool → Prop) (u : TranslationUnit) : Prop :=
  HeaderSurvey.Paired N u.fixedCursors u.fixedTypes

/-- `Paired` by `Builder.Fits`: a declaration and the declared type go by one name. -/
abbrev Consistent (u : TranslationUnit) : Prop := u.Paired Builder.Fits

end TranslationUnit

namespace Builder

variable {step : Step} {b b' : Builder} {cs : List Cursor} {ts : List TypeEntry}

/-! ## Edits extend what is fixed -/

theorem length_fixedCursors (b : Builder) : b.unit.fixedCursors.length = b.nextCursor := by
  simp [TranslationUnit.fixedCursors, nextCursor]

theorem length_fixedTypes (b : Builder) : b.unit.fixedTypes.length = b.nextType := by
  simp [TranslationUnit.fixedTypes, nextType]

@[simp] theorem fixedCursors_addCursors (b : Builder) (cursors : List Cursor) :
    (b.addCursors cursors).unit.fixedCursors = b.unit.fixedCursors ++ cursors.map Cursor.fixed := by
  simp [TranslationUnit.fixedCursors, addCursors]

@[simp] theorem fixedTypes_addCursors (b : Builder) (cursors : List Cursor) :
    (b.addCursors cursors).unit.fixedTypes = b.unit.fixedTypes := rfl

@[simp] theorem fixedCursors_addType (b : Builder) (t : TypeEntry) :
    (b.addType t).unit.fixedCursors = b.unit.fixedCursors := rfl

@[simp] theorem fixedTypes_addType (b : Builder) (t : TypeEntry) :
    (b.addType t).unit.fixedTypes = b.unit.fixedTypes ++ [t.fixed] := by
  simp [TranslationUnit.fixedTypes, addType]

theorem map_modify {α β : Type} {f : α → α} {g : α → β} (h : ∀ a, g (f a) = g a) (l : List α)
    (i : Nat) :
    (l.modify i f).map g = l.map g := by
  refine List.ext_getElem? fun j => ?_
  simp only [List.getElem?_map, List.getElem?_modify]
  cases l[j]? with
  | none => rfl
  | some a => by_cases hij : i = j <;> simp [hij, h]

theorem fixedCursors_modifyCursor {f : Cursor → Cursor} (hf : ∀ c, (f c).fixed = c.fixed)
    (b : Builder) (c : CursorId) :
    (b.modifyCursor c f).unit.fixedCursors = b.unit.fixedCursors := by
  simp [TranslationUnit.fixedCursors, modifyCursor, map_modify hf]

theorem fixedTypes_modifyType {f : TypeEntry → TypeEntry} (hf : ∀ t, (f t).fixed = t.fixed)
    (b : Builder) (t : TypeId) : (b.modifyType t f).unit.fixedTypes = b.unit.fixedTypes := by
  simp [TranslationUnit.fixedTypes, modifyType, map_modify hf]

/-- What an `Edit` of the step may append to `fixedCursors` and `fixedTypes`. -/
inductive Step.Extends (step : Step) (b : Builder) : List Cursor → List TypeEntry → Prop where
  | nothing : Extends step b b.unit.fixedCursors b.unit.fixedTypes
  | compose {t : TypeEntry} (composed : step.Composes b t) :
      Extends step b b.unit.fixedCursors (b.unit.fixedTypes ++ [t.fixed])
  | declare {cursor : Cursor} {parts : List Cursor} {own : TypeEntry}
      (declaration : step.Declaration b cursor parts own) :
      Extends step b (b.unit.fixedCursors ++ (cursor :: parts).map Cursor.fixed)
        (b.unit.fixedTypes ++ [own.fixed])
  | cursors {new : List Cursor} (plain : ∀ c ∈ new, c.Plain (step.MayUse b) b.nextCursor) :
      Extends step b (b.unit.fixedCursors ++ new.map Cursor.fixed) b.unit.fixedTypes

theorem Step.Edit.extends (e : step.Edit b b') :
    step.Extends b b'.unit.fixedCursors b'.unit.fixedTypes := by
  cases e with
  | move unit =>
    rw [unit]
    exact .nothing
  | compose composed =>
    change step.Extends b (b.addType _).unit.fixedCursors (b.addType _).unit.fixedTypes
    rw [fixedCursors_addType, fixedTypes_addType]
    exact .compose composed
  | declare declaration =>
    rw [fixedCursors_addType, fixedTypes_addType, fixedCursors_addCursors, fixedTypes_addCursors]
    exact .declare declaration
  | cursors plain =>
    rw [fixedCursors_addCursors, fixedTypes_addCursors]
    exact .cursors plain
  | @define t c ids size align =>
    have hcursors := fixedCursors_modifyCursor (f := fun cursor => { cursor with children := ids })
      (fun _ => rfl) b c
    have htypes := fixedTypes_modifyType
      (f := fun entry => { entry with size, align, fields := ids })
      (fun _ => rfl) (b.modifyCursor c fun cursor => { cursor with children := ids }) t
    rw [htypes]
    exact hcursors ▸ .nothing
  | @topLevel c =>
    have hcursors := fixedCursors_modifyCursor
      (f := fun root => { root with children := root.children ++ [c] })
      (fun _ => rfl) b CursorId.root
    exact hcursors ▸ .nothing

theorem Step.Extends.prefixes (e : step.Extends b cs ts) :
    b.unit.fixedCursors <+: cs ∧ b.unit.fixedTypes <+: ts := by
  cases e with
  | nothing => exact ⟨List.prefix_rfl, List.prefix_rfl⟩
  | compose => exact ⟨List.prefix_rfl, List.prefix_append _ _⟩
  | declare => exact ⟨List.prefix_append _ _, List.prefix_append _ _⟩
  | cursors => exact ⟨List.prefix_append _ _, List.prefix_rfl⟩

/-! ## Declarations and their types -/

variable {N : String → String → Bool → Prop}

theorem typeAt_cases (b : Builder) (t : TypeId) :
    b.unit.types[t]? = some (b.typeAt t) ∨ b.typeAt t = { kind := .invalid } := by
  by_cases ht : t < b.unit.types.size
  · simp [typeAt, ht]
  · simp [typeAt, ht]

/-- A composed type has no declaration but that of a type of its own kind, or, as `elaborated`, of
any. -/
theorem Step.Composes.declaration {t : TypeEntry} (h : step.Composes b t) {c : CursorId}
    (hc : c ∈ t.declaration) :
    ∃ t' ∈ b.unit.fixedTypes, c ∈ t'.declaration ∧ (t.kind = t'.kind ∨ t.kind = .elaborated) := by
  have hcopied : ∀ s, c ∈ (b.typeAt s).declaration →
      ∃ t' ∈ b.unit.fixedTypes, c ∈ t'.declaration ∧ (b.typeAt s).kind = t'.kind := by
    intro s hs
    rcases b.typeAt_cases s with hfound | hmissing
    · exact ⟨_, List.mem_of_getElem? (TranslationUnit.fixedTypes_getElem? hfound), hs, rfl⟩
    · rw [hmissing] at hs
      cases hs
  cases h with
  | constQualified s =>
    obtain ⟨t', ht', hc', hkind⟩ := hcopied s hc
    exact ⟨t', ht', hc', Or.inl hkind⟩
  | @elaborated s =>
    obtain ⟨t', ht', hc', -⟩ := hcopied s hc
    exact ⟨t', ht', hc', Or.inr rfl⟩
  | primitive | pointer | array | function | attributed | unexposed => cases hc

theorem Step.Extends.paired (e : step.Extends b cs ts) (h : b.unit.Paired N)
    (hN : ∀ cursor parts own, step.Declaration b cursor parts own →
      N cursor.spelling own.spelling cursor.anonymous) : Paired N cs ts := by
  cases e with
  | nothing => exact h
  | compose composed =>
    rw [← List.append_nil b.unit.fixedCursors]
    refine h.extend ?_ (by simp)
    intro t ht c hc
    obtain rfl := List.mem_singleton.1 ht
    obtain ⟨t', ht', hc', hkind⟩ := composed.declaration hc
    obtain ⟨hkind', cursor, own, howns⟩ := h.shared t' ht' c hc'
    refine ⟨?_, cursor, own, howns.mono (List.prefix_append _ _) (List.prefix_append _ _)⟩
    rcases hkind with hkind | hkind
    · exact (congrArg TypeKind.isDeclarable hkind).trans hkind'
    · exact congrArg TypeKind.isDeclarable hkind
  | @declare cursor parts own declaration =>
    have howns : Owns N (b.unit.fixedCursors ++ (cursor :: parts).map Cursor.fixed)
        (b.unit.fixedTypes ++ [own.fixed]) b.nextCursor cursor.fixed own.fixed := by
      refine ⟨?_, ?_, declaration.declaration, declaration.sort, hN cursor parts own declaration⟩
      · simp [← length_fixedCursors]
      · simp [Cursor.fixed, declaration.type, ← length_fixedTypes]
    refine h.extend ?_ ?_
    · intro t ht c hc
      obtain rfl := List.mem_singleton.1 ht
      obtain rfl : b.nextCursor = c := Option.some.inj (declaration.declaration.symm.trans hc)
      exact ⟨CursorKind.isDeclarable_of_declares? declaration.sort, _, _, howns⟩
    · intro i c hc hk
      cases i with
      | zero =>
        obtain rfl : cursor.fixed = c := by simpa using hc
        rw [Nat.add_zero, length_fixedCursors]
        exact ⟨_, howns⟩
      | succ i =>
        obtain ⟨part, hpart, rfl⟩ : ∃ part, parts[i]? = some part ∧ part.fixed = c := by
          simpa using hc
        exact absurd (declaration.parts part (List.mem_of_getElem? hpart)).kind hk
  | @cursors new plain =>
    rw [← List.append_nil b.unit.fixedTypes]
    refine h.extend (by simp) ?_
    intro i c hc hk
    obtain ⟨cursor, hcursor, rfl⟩ : ∃ cursor, new[i]? = some cursor ∧ cursor.fixed = c := by
      simpa using hc
    exact absurd (plain cursor (List.mem_of_getElem? hcursor)).kind hk

private theorem start_paired (file triple : String) (bits : Nat) :
    (start file triple bits).unit.Paired N := by
  refine ⟨rfl, ?_, ?_⟩
  · intro t ht c hc
    rw [List.mem_singleton.1 ht] at hc
    cases hc
  · intro c cursor hc hk
    have hmem := List.mem_of_getElem? hc
    simp only [TranslationUnit.fixedCursors, start, List.map_cons, List.map_nil, List.mem_cons,
      List.not_mem_nil, or_false] at hmem
    rcases hmem with rfl | rfl <;> exact absurd rfl hk

/-! ## Units that are built -/

/-- The unit that `steps` make, one after the other, from `start`. -/
def build (file triple : String) (pointerBits : Nat) (steps : List Step) : TranslationUnit :=
  (steps.foldl (fun b step => (step.run b).1) (start file triple pointerBits)).unit

/-- The builder after more `steps`. -/
def after (b : Builder) (steps : List Step) : Builder :=
  steps.foldl (fun b step => (step.run b).1) b

theorem after_append (b : Builder) (steps more : List Step) :
    b.after (steps ++ more) = (b.after steps).after more := List.foldl_append

/-- A `Q` that each `Step.Edit` keeps holds of the unit after all `steps`. -/
theorem foldl_run_keeps {Q : TranslationUnit → Prop} {steps : List Step} (hb : Q b.unit)
    (keeps : ∀ step ∈ steps, ∀ b b', step.Edit b b' → Q b.unit → Q b'.unit) :
    Q (steps.foldl (fun b step => (step.run b).1) b).unit := by
  induction steps generalizing b with
  | nil => exact hb
  | cons step steps ih =>
    refine ih ?_ fun step' hstep => keeps step' (List.mem_cons_of_mem step hstep)
    exact keeps_run (Q := (Q ·.unit)) (keeps step List.mem_cons_self) (step.run_edits b) hb

/-- Steps only append to `fixedCursors` and `fixedTypes`. -/
theorem prefixes_after (b : Builder) (steps : List Step) :
    b.unit.fixedCursors <+: (b.after steps).unit.fixedCursors ∧
      b.unit.fixedTypes <+: (b.after steps).unit.fixedTypes := by
  refine foldl_run_keeps (Q := fun u => b.unit.fixedCursors <+: u.fixedCursors ∧
    b.unit.fixedTypes <+: u.fixedTypes) ⟨List.prefix_rfl, List.prefix_rfl⟩ ?_
  rintro step - b₁ b₂ e ⟨hcursors, htypes⟩
  obtain ⟨hcursors', htypes'⟩ := e.extends.prefixes
  exact ⟨hcursors.trans hcursors', htypes.trans htypes'⟩

theorem nextType_le_after (b : Builder) (steps : List Step) :
    b.nextType ≤ (b.after steps).nextType := by
  have hle := (b.prefixes_after steps).2.length_le
  rwa [length_fixedTypes, length_fixedTypes] at hle

private theorem build_paired (file triple : String) (pointerBits : Nat) {steps : List Step}
    (hN : ∀ step ∈ steps, ∀ b cursor parts own, step.Declaration b cursor parts own →
      N cursor.spelling own.spelling cursor.anonymous) :
    (build file triple pointerBits steps).Paired N :=
  foldl_run_keeps (start_paired file triple pointerBits)
    fun step hstep b _ e h => e.extends.paired h (hN step hstep b)

theorem build_paired_any (file triple : String) (pointerBits : Nat) (steps : List Step) :
    (build file triple pointerBits steps).Paired fun _ _ _ => True :=
  build_paired file triple pointerBits fun _ _ _ _ _ _ _ => trivial

/-- A unit that `build` makes of types with `isPlainName` names is `Consistent`. -/
theorem build_consistent (file triple : String) (pointerBits : Nat) {steps : List Step}
    (hnames : ∀ step ∈ steps, ∀ name ∈ step.typeName?, isPlainName name = true) :
    (build file triple pointerBits steps).Consistent := by
  refine build_paired file triple pointerBits ?_
  intro step hstep b cursor parts own declaration
  rcases declaration.named with hempty | ⟨hname, hfits⟩
  · exact Or.inl hempty
  · exact hfits (hnames step hstep cursor.spelling hname)

end Builder
end HeaderSurvey
