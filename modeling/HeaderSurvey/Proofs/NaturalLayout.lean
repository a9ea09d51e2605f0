import HeaderSurvey.Proofs.Descriptions
import HeaderSurvey.Proofs.Persistence
import Mathlib.Order.Bounds.Defs
import Mathlib.Order.Lattice

/-! The layout of records. Each field of a struct stands at the least multiple of its alignment from
the end of the one before, those of a union at its start, and the whole is padded to the strictest
alignment. A record that is completed has this layout in the unit, and it is what a survey reports
for it. -/
namespace HeaderSurvey

/-! ## Rounding -/

/-- The multiples of `align` from `start` on. -/
def multiplesFrom (align start : Int) : Set Int := {n | align ∣ n ∧ start ≤ n}

theorem alignUp_isLeast {align : Int} (h : 1 ≤ align) (n : Int) :
    IsLeast (multiplesFrom align n) (alignUp n align) := by
  unfold alignUp
  split
  · next hle =>
    obtain rfl : align = 1 := Int.le_antisymm hle h
    exact ⟨⟨Int.one_dvd n, le_refl n⟩, fun m hm => hm.2⟩
  · have hpos : 0 < align := Int.lt_of_lt_of_le Int.zero_lt_one h
    refine ⟨⟨Int.dvd_mul_left .., ?_⟩, ?_⟩
    · have hsplit := Int.mul_ediv_add_emod (n + align - 1) align
      have hrest := Int.emod_lt_of_pos (n + align - 1) hpos
      rw [Int.mul_comm]
      omega
    · rintro _ ⟨⟨k, rfl⟩, hk⟩
      have hlt : (n + align - 1) / align < k + 1 := by
        refine Int.ediv_lt_of_lt_mul hpos ?_
        rw [Int.add_mul, Int.one_mul, Int.mul_comm k align]
        omega
      rw [Int.mul_comm align k]
      exact Int.mul_le_mul_of_nonneg_right (Int.le_of_lt_add_one hlt) (Int.le_of_lt hpos)

theorem foldl_max_isGreatest {α : Type} (measure : α → Int) (as : List α) (n : Int) :
    IsGreatest {m | m = n ∨ ∃ a ∈ as, measure a = m}
      (as.foldl (fun m a => max m (measure a)) n) := by
  induction as generalizing n with
  | nil =>
    exact ⟨Or.inl rfl, by rintro m (rfl | ⟨a, ha, -⟩); exacts [le_refl m, absurd ha (by simp)]⟩
  | cons a as ih =>
    obtain ⟨hmem, hupper⟩ := ih (max n (measure a))
    constructor
    · rcases hmem with heq | ⟨a', ha', heq⟩
      · rw [List.foldl_cons, heq]
        rcases max_choice n (measure a) with hmax | hmax
        · exact Or.inl hmax
        · exact Or.inr ⟨a, List.mem_cons_self, hmax.symm⟩
      · exact Or.inr ⟨a', List.mem_cons_of_mem a ha', heq⟩
    · rintro m (rfl | ⟨a', ha', rfl⟩)
      · exact le_trans (le_max_left m (measure a)) (hupper (Or.inl rfl))
      · rcases List.mem_cons.1 ha' with rfl | ha'
        · exact le_trans (le_max_right n (measure a')) (hupper (Or.inl rfl))
        · exact hupper (Or.inr ⟨a', ha', rfl⟩)

/-! ## Layouts -/

/-- The room that a field may take: no less than nothing, and aligned to bytes at least. -/
structure Extent.Proper (e : Extent) : Prop where
  size : 0 ≤ e.size
  align : 1 ≤ e.align

/-- Fields one after the other from `start` on, each at the least multiple of its alignment from the
end of the one before; the last of them ends at `stop`. -/
inductive InSequence : Int → List Extent → List Int → Int → Prop where
  | nil (start : Int) : InSequence start [] [] start
  | cons {start stop offset : Int} {field : Extent} {fields : List Extent} {offsets : List Int}
      (least : IsLeast (multiplesFrom field.align start) offset)
      (rest : InSequence (offset + field.size) fields offsets stop) :
      InSequence start (field :: fields) (offset :: offsets) stop

/-- `layout` is the natural one of a struct or union with those `fields`. -/
structure RecordLayout.Natural (tag : RecordTag) (fields : List Extent) (layout : RecordLayout) :
    Prop where
  align : IsGreatest {n | n = 1 ∨ ∃ field ∈ fields, field.align = n} layout.align
  struct : tag = .struct → ∃ stop, InSequence 0 fields layout.offsets stop ∧
    (layout.offsets.zip fields).Pairwise (fun f g => f.1 + f.2.size ≤ g.1) ∧
    IsLeast (multiplesFrom layout.align stop) layout.size
  union : tag = .union → layout.offsets = fields.map (fun _ => 0) ∧
    ∃ largest, IsGreatest {n | n = 0 ∨ ∃ field ∈ fields, field.size = n} largest ∧
      IsLeast (multiplesFrom layout.align largest) layout.size

theorem InSequence.start_le {start stop : Int} {fields : List Extent} {offsets : List Int}
    (h : InSequence start fields offsets stop) (hfields : ∀ f ∈ fields, f.Proper) :
    start ≤ stop ∧ ∀ offset ∈ offsets, start ≤ offset := by
  induction h with
  | nil => simp
  | @cons start stop offset field fields offsets least rest ih =>
    obtain ⟨hstop, hoffsets⟩ := ih fun f hf => hfields f (List.mem_cons_of_mem field hf)
    have hsize := (hfields field List.mem_cons_self).size
    have hstart := least.1.2
    refine ⟨by omega, fun o ho => ?_⟩
    rcases List.mem_cons.1 ho with rfl | ho
    · exact hstart
    · have hnext := hoffsets o ho
      omega

/-- Fields `InSequence` are in order and do not overlap. -/
theorem InSequence.pairwise {start stop : Int} {fields : List Extent} {offsets : List Int}
    (h : InSequence start fields offsets stop) (hfields : ∀ f ∈ fields, f.Proper) :
    (offsets.zip fields).Pairwise fun f g => f.1 + f.2.size ≤ g.1 := by
  induction h with
  | nil => exact .nil
  | @cons start stop offset field fields offsets least rest ih =>
    have hrest : ∀ f ∈ fields, f.Proper := fun f hf => hfields f (List.mem_cons_of_mem field hf)
    rw [List.zip_cons_cons]
    exact .cons (fun g hg => (rest.start_le hrest).2 g.1 (List.of_mem_zip hg).1) (ih hrest)

theorem RecordLayout.Natural.nonneg {tag : RecordTag} {fields : List Extent} {layout : RecordLayout}
    (h : layout.Natural tag fields) (hfields : ∀ f ∈ fields, f.Proper) :
    0 ≤ layout.size ∧ 1 ≤ layout.align ∧ ∀ offset ∈ layout.offsets, 0 ≤ offset := by
  have halign : 1 ≤ layout.align := h.align.2 (Or.inl rfl)
  cases tag with
  | struct =>
    obtain ⟨stop, hsequence, -, hsize⟩ := h.struct rfl
    obtain ⟨hstop, hoffsets⟩ := hsequence.start_le hfields
    exact ⟨le_trans hstop hsize.1.2, halign, hoffsets⟩
  | union =>
    obtain ⟨hoffsets, largest, hlargest, hsize⟩ := h.union rfl
    refine ⟨le_trans (hlargest.2 (Or.inl rfl)) hsize.1.2, halign, fun offset hoffset => ?_⟩
    rw [hoffsets] at hoffset
    obtain ⟨field, -, rfl⟩ := List.mem_map.1 hoffset
    exact le_refl 0

namespace RecordLayout

/-- `offsetsFrom` puts the fields of a struct `InSequence`, up to the greatest end among them. -/
theorem offsetsFrom_inSequence {fields : List Extent} (hfields : ∀ f ∈ fields, f.Proper)
    (start : Int) :
    InSequence start fields (offsetsFrom false start fields)
      (((offsetsFrom false start fields).zip fields).foldl (fun n f => max n (f.1 + f.2.size))
        start) := by
  induction fields generalizing start with
  | nil => exact .nil start
  | cons field fields ih =>
    have hfield := hfields field List.mem_cons_self
    have hleast := alignUp_isLeast hfield.align start
    have hend : max start (alignUp start field.align + field.size) = alignUp start field.align +
        field.size := by
      have hstart := hleast.1.2
      have hsize := hfield.size
      omega
    simp only [offsetsFrom, Bool.false_eq_true, if_false, List.zip_cons_cons, List.foldl_cons, hend]
    exact .cons hleast (ih (fun f hf => hfields f (List.mem_cons_of_mem field hf)) _)

private theorem offsetsFrom_union (start : Int) (fields : List Extent) :
    offsetsFrom true start fields = fields.map (fun _ => 0) := by
  induction fields generalizing start with
  | nil => rfl
  | cons field fields ih =>
    rw [offsetsFrom, ih]
    rfl

theorem foldl_union (fields : List Extent) (n : Int) :
    ((fields.map fun _ => (0 : Int)).zip fields).foldl (fun n f => max n (f.1 + f.2.size)) n =
      fields.foldl (fun n f => max n f.size) n := by
  induction fields generalizing n with
  | nil => rfl
  | cons field fields ih =>
    rw [List.map_cons, List.zip_cons_cons, List.foldl_cons, Int.zero_add, ih, List.foldl_cons]

private theorem ofFields_natural {tag : RecordTag} {fields : List Extent}
    (hfields : ∀ f ∈ fields, f.Proper) :
    (ofFields (tag = .union) fields).Natural tag fields := by
  have halign : IsGreatest {n | n = 1 ∨ ∃ field ∈ fields, field.align = n} (strictest fields) :=
    foldl_max_isGreatest _ _ _
  have hstrictest : 1 ≤ strictest fields := halign.2 (Or.inl rfl)
  refine ⟨halign, ?_, ?_⟩
  · rintro rfl
    have hsequence := offsetsFrom_inSequence hfields 0
    exact ⟨_, hsequence, hsequence.pairwise hfields, alignUp_isLeast hstrictest _⟩
  · rintro rfl
    have hoffsets : offsetsFrom true 0 fields = fields.map (fun _ => 0) :=
      offsetsFrom_union 0 fields
    refine ⟨hoffsets, _, foldl_max_isGreatest _ _ _, ?_⟩
    change IsLeast _ (alignUp (reach (offsetsFrom true 0 fields) fields) (strictest fields))
    rw [hoffsets, reach, foldl_union]
    exact alignUp_isLeast hstrictest _

end RecordLayout

/-! ## Records that are completed -/

namespace Builder

variable {b : Builder} {t : TypeId} {tag : RecordTag}

/-- The layout that `defineRecord` gives a record with such `fields`. -/
def recordLayout (b : Builder) (tag : RecordTag) (fields : NamedTypes) : RecordLayout :=
  .ofFields (tag = .union) (fields.map (b.fieldExtent ·.2))

theorem fieldExtents_proper (b : Builder) (fields : NamedTypes) :
    ∀ e ∈ fields.map (b.fieldExtent ·.2), e.Proper := by
  intro e he
  obtain ⟨field, -, rfl⟩ := List.mem_map.1 he
  exact ⟨le_max_right .., le_max_right ..⟩

theorem recordLayout_natural (b : Builder) (tag : RecordTag) (fields : NamedTypes) :
    (b.recordLayout tag fields).Natural tag (fields.map (b.fieldExtent ·.2)) :=
  RecordLayout.ofFields_natural (b.fieldExtents_proper fields)

/-- The declaration of `t` is that of a struct or of a union, by `tag`. -/
def DeclaredAs (b : Builder) (t : TypeId) (tag : RecordTag) : Prop :=
  ∃ c, (b.typeAt t).declaration = some c ∧ (b.cursorAt c).kind = recordCursorKind tag

def fieldCursor (b : Builder) (i : Nat) (field : String × TypeId) (offset : Int) : Cursor :=
  { kind := .fieldDecl, spelling := field.1, type := field.2, position := b.positionAfter i,
    offsetBits := offset * 8 }

theorem defineRecord_eq (h : b.DeclaredAs t tag) (fields : NamedTypes) :
    ∃ c, b.defineRecord t fields =
      (((b.addCursors ((fields.zip (b.recordLayout tag fields).offsets).mapIdx fun i f =>
          b.fieldCursor i f.1 f.2)).skipLines fields.length).modifyCursor c
        fun cursor =>
          { cursor with children := List.range' b.nextCursor fields.length }).modifyType t
        fun entry => { entry with
          size := (b.recordLayout tag fields).size, align := (b.recordLayout tag fields).align,
          fields := List.range' b.nextCursor fields.length } := by
  obtain ⟨c, hdeclaration, hkind⟩ := h
  have hunion : ((b.cursorAt c).kind == .unionDecl) = decide (tag = .union) := by
    rw [hkind]
    cases tag <;> rfl
  refine ⟨c, ?_⟩
  unfold defineRecord
  rw [hdeclaration]
  dsimp only
  rw [hunion]
  rfl

theorem DeclaredAs.lt (h : b.DeclaredAs t tag) : t < b.nextType := by
  obtain ⟨c, hdeclaration, -⟩ := h
  rcases b.typeAt_cases t with hfound | hmissing
  · exact (Array.getElem?_eq_some_iff.1 hfound).1
  · rw [hmissing] at hdeclaration
    cases hdeclaration

theorem types_defineRecord_self (h : b.DeclaredAs t tag) (fields : NamedTypes) :
    (b.defineRecord t fields).unit.types[t]? = some { b.typeAt t with
      size := (b.recordLayout tag fields).size, align := (b.recordLayout tag fields).align,
      fields := List.range' b.nextCursor fields.length } := by
  have hfound : b.unit.types[t]? = some (b.typeAt t) := by
    have hlt : t < b.unit.types.size := h.lt
    simp [typeAt, hlt]
  obtain ⟨c, heq⟩ := defineRecord_eq h fields
  rw [heq]
  simp only [modifyType, Array.getElem?_modify, if_true]
  change Option.map _ b.unit.types[t]? = _
  rw [hfound]
  rfl

private theorem fixedCursors_defineRecord (h : b.DeclaredAs t tag) (fields : NamedTypes) :
    (b.defineRecord t fields).unit.fixedCursors = b.unit.fixedCursors ++
      ((fields.zip (b.recordLayout tag fields).offsets).mapIdx fun i f =>
        b.fieldCursor i f.1 f.2).map
        Cursor.fixed := by
  obtain ⟨c, heq⟩ := defineRecord_eq h fields
  have hchildren : ∀ cursor : Cursor,
      Cursor.fixed { cursor with children := List.range' b.nextCursor fields.length } =
        cursor.fixed :=
    fun _ => rfl
  rw [heq]
  exact (fixedCursors_modifyCursor hchildren _ c).trans (fixedCursors_addCursors b _)

private theorem length_recordLayout (b : Builder) (tag : RecordTag) (fields : NamedTypes) :
    (b.recordLayout tag fields).offsets.length = fields.length := by
  simp [recordLayout, RecordLayout.ofFields, length_offsetsFrom]

end Builder

/-- The record `t` has these `fields` in the unit, and this `layout`. -/
structure TranslationUnit.LaysOut (u : TranslationUnit) (t : TypeId) (fields : Builder.NamedTypes)
    (layout : RecordLayout) (entry : TypeEntry) : Prop where
  entry_eq : u.typeAt t = .ok entry
  size : entry.size = layout.size
  align : entry.align = layout.align
  length : entry.fields.length = fields.length
  fields : ∀ (i : Nat) field, fields[i]? = some field →
    ∃ id cursor offset, entry.fields[i]? = some id ∧
    u.cursorAt id = .ok cursor ∧ layout.offsets[i]? = some offset ∧ cursor.spelling = field.1 ∧
    cursor.type = field.2 ∧ cursor.offsetBits = offset * 8

namespace Builder

variable {b : Builder} {t : TypeId} {tag : RecordTag}

/-- A record that `defineRecord` gave its fields keeps its `recordLayout` until it is completed
anew. -/
theorem defineRecord_laysOut (h : b.DeclaredAs t tag) (fields : NamedTypes) {later : List Step}
    (hlater : ∀ step ∈ later, t ∉ step.completes?) :
    ∃ entry, ((b.defineRecord t fields).after later).unit.LaysOut t fields
      (b.recordLayout tag fields) entry := by
  have hlt : t < (b.defineRecord t fields).nextType := by
    rw [nextType_defineRecord]
    exact h.lt
  have htype := (types_after hlt hlater).trans (types_defineRecord_self h fields)
  refine ⟨_, TranslationUnit.typeAt_eq_ok.2 htype, rfl, rfl, by simp, ?_⟩
  intro i field hfield
  have hi : i < fields.length := (List.getElem?_eq_some_iff.1 hfield).1
  obtain ⟨offset, hoffset⟩ : ∃ offset, (b.recordLayout tag fields).offsets[i]? = some offset :=
    ⟨_, List.getElem?_eq_getElem (by rwa [length_recordLayout])⟩
  have hzip : (fields.zip (b.recordLayout tag fields).offsets)[i]? = some (field, offset) :=
    List.getElem?_zip_eq_some.2 ⟨hfield, hoffset⟩
  have hcursor : (b.defineRecord t fields).unit.fixedCursors[b.nextCursor + i]? =
      some (b.fieldCursor i field offset) := by
    rw [fixedCursors_defineRecord h, List.getElem?_append_right (by simp [length_fixedCursors]),
      length_fixedCursors, Nat.add_sub_cancel_left, List.getElem?_map, List.getElem?_mapIdx, hzip]
    rfl
  obtain ⟨cursor, hcursorAt, hfixed⟩ := TranslationUnit.cursorAt_of_fixedCursors
    (getElem?_extended ((b.defineRecord t fields).prefixes_after later).1 hcursor)
  refine ⟨b.nextCursor + i, cursor, offset, ?_, hcursorAt, hoffset, ?_, ?_, ?_⟩
  · simp [hi]
  · exact congrArg Cursor.spelling hfixed
  · exact congrArg Cursor.type hfixed
  · exact congrArg Cursor.offsetBits hfixed

end Builder

/-! ## Records that are finished -/

/-- The record `r` that is reported for `node` has these `fields`, each described as its type is,
and this `layout`. -/
structure Context.Reports (x : Context) (node : VisitNode) (fields : Builder.NamedTypes)
    (layout : RecordLayout) (r : RecordDecl) : Prop where
  size : r.size = layout.size
  align : r.align = some layout.align
  length : r.fields.length = fields.length
  fields : ∀ (i : Nat) field, fields[i]? = some field → ∃ f, r.fields[i]? = some f ∧
    f.name = field.1 ∧
    layout.offsets[i]? = some f.offset ∧ x.description field.2 (some node.name) i = .ok f.type

namespace Context

variable {x : Context} {node : VisitNode} {s s' : Session}

theorem description_of_returns {candidate : TypeId} {parent : Option String} {index : Nat}
    {use : TypeUse} (h : Returns (x.visit candidate parent index) s use s') :
    x.description candidate parent index = .ok use := by
  have hfst : (x.visit candidate parent index s).1 = .ok use := congrArg Prod.fst h
  rcases visit_fst candidate parent index s with heq | ⟨-, -, e, -, -, -, heq⟩
  · exact heq.symm.trans hfst
  · cases heq.symm.trans hfst

theorem visitNode_layout {kind : Kind} {name : String} {c : CursorId} {t : TypeId}
    {parent : Option String} {index : Nat} {entry : TypeEntry}
    (hnode : x.visitNode kind name c t parent index = .ok node)
    (hentry : x.unit.typeAt t = .ok entry) (hsize : 0 ≤ entry.size) (halign : 0 ≤ entry.align) :
    node.type = t ∧ node.size = entry.size ∧ node.align = some entry.align := by
  simp only [visitNode, bind_eq_ok_iff, pure_eq_ok_iff] at hnode
  obtain ⟨typeName, -, cursor, -, entry', hentry', location, -, rfl⟩ := hnode
  cases hentry.symm.trans hentry'
  exact ⟨rfl, by simp [shownSize, hsize], by simp [known, halign]⟩

/-- `finishRecord` `Reports` the fields of a record as the unit `LaysOut` them. -/
theorem finishRecord_reports {t : TypeId} {fields : Builder.NamedTypes} {layout : RecordLayout}
    {entry : TypeEntry} {result : Node} (hu : x.unit.LaysOut t fields layout entry)
    (hoffsets : ∀ offset ∈ layout.offsets, 0 ≤ offset) (htype : node.type = t)
    (hsize : node.size = layout.size) (halign : node.align = some layout.align)
    (h : Returns (x.finishRecord node) s result s') :
    ∃ r, result = .record r ∧ x.Reports node fields layout r := by
  simp only [finishRecord, returns_bind, returns_lift, returns_pure] at h
  obtain ⟨entry', _, ⟨hentry, rfl⟩, reported, _, hfields, rfl, rfl⟩ := h
  rw [htype] at hentry
  cases hu.entry_eq.symm.trans hentry
  obtain ⟨hlength, hall⟩ := mapM_getElem? hfields
  refine ⟨_, rfl, hsize, halign, ?_, fun i field hfield => ?_⟩
  · rw [hlength, List.length_zipIdx, hu.length]
  · obtain ⟨id, cursor, offset, hid, hcursor, hoffset, hname, hfieldType, hbits⟩ :=
      hu.fields i field hfield
    obtain ⟨f, s₁, s₂, hf, hreturns⟩ := hall i (id, i) (by simp [hid])
    simp only [finishField, returns_bind, returns_lift, returns_pure] at hreturns
    obtain ⟨_, _, ⟨hcursor', rfl⟩, type, _, hvisit, _, _, -, location, _, -, rfl, -⟩ := hreturns
    cases hcursor.symm.trans hcursor'
    rw [hfieldType] at hvisit
    have hnonneg := hoffsets offset (List.mem_of_getElem? hoffset)
    have hbytes : max cursor.offsetBits 0 / 8 = offset := by omega
    exact ⟨_, hf, hname, hoffset.trans (congrArg some hbytes.symm), description_of_returns hvisit⟩

end Context

private theorem CursorKind.exists_tag {k : CursorKind} (h : k.declares? = some .record) :
    ∃ tag, k = Builder.recordCursorKind tag := by
  unfold CursorKind.declares? at h
  split at h
  · exact ⟨.struct, rfl⟩
  · exact ⟨.union, rfl⟩
  all_goals cases h

namespace Builder

theorem kind_cursorAt {b : Builder} {c : CursorId} {cursor : Cursor}
    (h : b.unit.fixedCursors[c]? = some cursor) :
    (b.cursorAt c).kind = cursor.kind := by
  obtain ⟨cursor', hcursor, rfl⟩ := TranslationUnit.cursorAt_of_fixedCursors h
  simp [cursorAt, TranslationUnit.cursorAt_eq_ok.1 hcursor, Cursor.fixed]

/-- In a unit that is built of steps, each record is `DeclaredAs` a struct or a union. -/
theorem exists_declaredAs {file triple : String} {pointerBits : Nat} {steps : List Step}
    {t : TypeId} (h : (((start file triple pointerBits).after steps).typeAt t).kind = .record) :
    ∃ tag, ((start file triple pointerBits).after steps).DeclaredAs t tag := by
  generalize hb : (start file triple pointerBits).after steps = b at h
  have hsorted : b.unit.DeclaresBySort := hb ▸ build_declaresBySort file triple pointerBits steps
  rcases b.typeAt_cases t with hfound | hmissing
  · have hkind : (b.typeAt t).fixed.kind.isDeclared = true := congrArg TypeKind.isDeclared h
    obtain ⟨c, cursor, hdeclaration, hcursor, hsort⟩ := hsorted (b.typeAt t).fixed
      (List.mem_of_getElem? (TranslationUnit.fixedTypes_getElem? hfound)) hkind
    obtain ⟨tag, htag⟩ := CursorKind.exists_tag (hsort.trans (congrArg some h))
    exact ⟨tag, c, hdeclaration, (kind_cursorAt hcursor).trans htag⟩
  · rw [hmissing] at h
    cases h

/-- Whatever was built `before`, `defineRecord` gives a record the `Natural` layout of its fields as
they are then. The record keeps this layout through all `later` steps that do not complete it anew,
and a `finishRecord` that succeeds on a node of it `Reports` exactly these fields with this
layout. -/
theorem record_natural (file triple : String) (pointerBits : Nat) (before later : List Step)
    {b : Builder} (hb : b = (start file triple pointerBits).after before) {t : TypeId}
    (ht : (b.typeAt t).kind = .record) (fields : NamedTypes)
    (hlater : ∀ step ∈ later, t ∉ step.completes?) :
    ∃ tag layout, b.DeclaredAs t tag ∧ layout.Natural tag (fields.map (b.fieldExtent ·.2)) ∧
      (∃ entry, ((b.defineRecord t fields).after later).unit.LaysOut t fields layout entry) ∧
      ∀ x : Context, x.unit = ((b.defineRecord t fields).after later).unit →
        ∀ kind name c parent index made, x.visitNode kind name c t parent index = .ok made →
        ∀ node : VisitNode, node.type = made.type → node.size = made.size →
          node.align = made.align →
        ∀ s result s', Returns (x.finishRecord node) s result s' →
          ∃ r, result = .record r ∧ x.Reports node fields layout r := by
  subst hb
  obtain ⟨tag, hdeclared⟩ := exists_declaredAs ht
  generalize (start file triple pointerBits).after before = b at hdeclared ⊢
  have hnatural := b.recordLayout_natural tag fields
  obtain ⟨hsize, halign, hoffsets⟩ := hnatural.nonneg (b.fieldExtents_proper fields)
  obtain ⟨entry, hlaid⟩ := defineRecord_laysOut hdeclared fields hlater
  refine ⟨tag, _, hdeclared, hnatural, ⟨entry, hlaid⟩, ?_⟩
  intro x hunit kind name c parent index made hmade node hnodeType hnodeSize hnodeAlign s result
    s' hfinish
  rw [← hunit] at hlaid
  obtain ⟨htype, hmadeSize, hmadeAlign⟩ := Context.visitNode_layout hmade hlaid.entry_eq
    (by rw [hlaid.size]; exact hsize) (by rw [hlaid.align]; exact le_trans Int.one_nonneg halign)
  refine Context.finishRecord_reports hlaid hoffsets (hnodeType.trans htype) ?_ ?_ hfinish
  · rw [hnodeSize, hmadeSize, hlaid.size]
  · rw [hnodeAlign, hmadeAlign, hlaid.align]

end Builder

/-- A record that is declared before it is completed, and may be completed with a pointer to
itself. -/
def nodeBuilder : Builder :=
  (Builder.start "a.h" "x86_64-unknown-linux-gnu" 64).after
    [.primitive .charS, .primitive .int, .forwardRecord .struct "Node", .pointer 3]

def nodeFields : Builder.NamedTypes := [("tag", 1), ("next", 4), ("count", 2)]

def nodeContext : Context :=
  .ofSettings ((nodeBuilder.defineRecord 3 nodeFields).after [.elaborated 3]).unit {} 64

def nodeVisit : VisitNode :=
  { kind := .struct, name := "Node", typeName := "Node", cursor := 2, type := 3, parent := none,
    location := ⟨"a.h", "a.h", 1, 1⟩, size := 24, align := some 8 }

def Node.measures? : Node → Option (Int × Option Int × List Int)
  | .record r => some (r.size, r.align, r.fields.map (·.offset))
  | _ => none

theorem record_nodeBuilder_natural : (nodeBuilder.typeAt 3).kind = .record ∧
    nodeContext.visitNode .struct "Node" 2 3 none 0 = .ok nodeVisit ∧
    ∃ tag layout r s', nodeBuilder.DeclaredAs 3 tag ∧
      layout.Natural tag (nodeFields.map (nodeBuilder.fieldExtent ·.2)) ∧
      Returns (nodeContext.finishRecord nodeVisit) {} (.record r) s' ∧
      nodeContext.Reports nodeVisit nodeFields layout r ∧
      (Node.record r).measures? = some (24, some 8, [0, 8, 16]) := by
  have hrecord : (nodeBuilder.typeAt 3).kind = .record := by decide +kernel
  have hvisit : nodeContext.visitNode .struct "Node" 2 3 none 0 = .ok nodeVisit := by decide +kernel
  have hrun : (nodeContext.finishRecord nodeVisit {}).1.isOk = true := by decide +kernel
  have hmeasures : (nodeContext.finishRecord nodeVisit {}).1.toOption.bind Node.measures? =
      some (24, some 8, [0, 8, 16]) := by decide +kernel
  obtain ⟨tag, layout, hdeclared, hnatural, -, hreports⟩ := Builder.record_natural "a.h"
    "x86_64-unknown-linux-gnu" 64 _ [.elaborated 3] (b := nodeBuilder) rfl hrecord nodeFields
      (by decide)
  obtain ⟨result, s', hresult⟩ := exists_returns hrun
  obtain ⟨r, rfl, hr⟩ :=
    hreports nodeContext rfl _ _ _ _ _ _ hvisit nodeVisit rfl rfl rfl _ _ _ hresult
  rw [show nodeContext.finishRecord nodeVisit {} = _ from hresult] at hmeasures
  exact ⟨hrecord, hvisit, tag, layout, r, s', hdeclared, hnatural, hresult, hr, hmeasures⟩

end HeaderSurvey
