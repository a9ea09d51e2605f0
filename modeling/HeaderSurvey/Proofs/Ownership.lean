import HeaderSurvey.Proofs.Building
import HeaderSurvey.Proofs.Discovery
import HeaderSurvey.Proofs.Shelves
import HeaderSurvey.Proofs.Validity

/-! Units in which declarations and declared types are paired off. A type that a reference stands
for has no declaration or is the one that its declaration declares, so in a consistent unit a node
of a type goes by one name, whether that is read from the declaration or from the spelling of the
type. -/
namespace HeaderSurvey

private theorem Kind.isArray_of_covers {kind : Kind} {t : TypeKind} (hk : kind.isShelved = true)
    (h : kind.covers t = true) : t.isArray = false := by
  cases kind with
  | struct | union | enum | typeAlias | functionPointer =>
    obtain rfl := of_decide_eq_true h
    rfl
  | opaqueType =>
    obtain rfl | rfl := of_decide_eq_true h
    · rfl
    · rfl
  | macroObject | globalVariable | function | pointer | array | primitive => cases hk

private theorem Kind.isShelved_of_covers {kind : Kind} {t : TypeKind}
    (ht : t ∈ [.record, .enum, .typedef]) (h : kind.covers t = true) : kind.isShelved = true := by
  revert h
  simp only [List.mem_cons, List.not_mem_nil, or_false] at ht
  rcases ht with rfl | rfl | rfl <;> cases kind <;> decide

theorem CursorKind.mem_of_declares? {k : CursorKind} {sort : TypeKind}
    (h : k.declares? = some sort) :
    sort ∈ [.record, .enum, .typedef] := by
  unfold CursorKind.declares? at h
  split at h <;> simp_all

def TypeKind.isDeclared (k : TypeKind) : Bool := k = .record ∨ k = .enum ∨ k = .typedef

theorem TypeKind.isArray_of_isDeclared {k : TypeKind} (h : k.isDeclared = true) :
    k.isArray = false := by
  obtain rfl | rfl | rfl := of_decide_eq_true h <;> rfl

namespace TranslationUnit

variable {u : TranslationUnit} {t r : TypeId} {kind : Kind} {N : String → String → Bool → Prop}

/-- The `cursor` at `c` declares the type `own`, which has `c` as its declaration. -/
structure Owns (N : String → String → Bool → Prop) (u : TranslationUnit) (c : CursorId)
    (cursor : Cursor) (own : TypeEntry) : Prop where
  cursor_eq : u.cursorAt c = .ok cursor
  type_eq : u.typeAt cursor.type = .ok own
  declaration : own.declaration = some c
  sort : cursor.kind.declares? = some own.kind
  named : N cursor.spelling own.spelling cursor.anonymous

theorem cursorAt_of_fixedCursors {c : CursorId} {cursor : Cursor}
    (h : u.fixedCursors[c]? = some cursor) :
    ∃ cursor', u.cursorAt c = .ok cursor' ∧ cursor'.fixed = cursor := by
  simp only [fixedCursors, List.getElem?_map, Array.getElem?_toList, Option.map_eq_some_iff] at h
  obtain ⟨cursor', hc, hfixed⟩ := h
  exact ⟨cursor', cursorAt_eq_ok.2 hc, hfixed⟩

theorem typeAt_of_fixedTypes {entry : TypeEntry} (h : u.fixedTypes[t]? = some entry) :
    ∃ entry', u.typeAt t = .ok entry' ∧ entry'.fixed = entry := by
  simp only [fixedTypes, List.getElem?_map, Array.getElem?_toList, Option.map_eq_some_iff] at h
  obtain ⟨entry', ht, hfixed⟩ := h
  exact ⟨entry', typeAt_eq_ok.2 ht, hfixed⟩

private theorem owns_of_fixed {c : CursorId} {cursor : Cursor} {own : TypeEntry}
    (h : HeaderSurvey.Owns N u.fixedCursors u.fixedTypes c cursor own) :
    ∃ cursor' own', u.Owns N c cursor' own' ∧ cursor'.fixed = cursor := by
  obtain ⟨cursor', hcursor, rfl⟩ := cursorAt_of_fixedCursors h.cursor_eq
  obtain ⟨own', hown, rfl⟩ := typeAt_of_fixedTypes h.type_eq
  exact ⟨cursor', own', ⟨hcursor, hown, h.declaration, h.sort, h.named⟩, rfl⟩

theorem Owns.declarationOf {c : CursorId} {cursor : Cursor} {own entry : TypeEntry}
    (h : u.Owns N c cursor own) (hc : entry.declaration = some c) :
    u.declarationOf entry = .ok cursor := by
  rw [TranslationUnit.declarationOf, TypeEntry.declarationId, hc]
  exact h.cursor_eq

theorem Owns.sort_mem {c : CursorId} {cursor : Cursor} {own : TypeEntry}
    (h : u.Owns N c cursor own) :
    own.kind ∈ [.record, .enum, .typedef] := CursorKind.mem_of_declares? h.sort

theorem Owns.kind_ne {c : CursorId} {cursor : Cursor} {own : TypeEntry}
    (h : u.Owns N c cursor own) :
    cursor.kind ≠ .noDeclFound := by
  intro hkind
  have hsort := h.sort
  rw [hkind] at hsort
  cases hsort

theorem declaredType_undeclared {entry : TypeEntry} {declaration : Cursor}
    (hentry : u.typeAt t = .ok entry) (hdecl : u.declarationOf entry = .ok declaration)
    (hnone : declaration.kind = .noDeclFound) :
    u.declaredType t = .ok ⟨t, entry, declaration⟩ := by
  simp only [declaredType, bind_eq_ok_iff]
  exact ⟨entry, hentry, declaration, hdecl, by rw [if_pos hnone]; rfl⟩

theorem declaredType_declared {entry own : TypeEntry} {declaration : Cursor}
    (hentry : u.typeAt t = .ok entry) (hdecl : u.declarationOf entry = .ok declaration)
    (hsome : declaration.kind ≠ .noDeclFound) (hown : u.typeAt declaration.type = .ok own)
    (hkind : own.kind ≠ .invalid) :
    u.declaredType t = .ok ⟨declaration.type, own, declaration⟩ := by
  simp only [declaredType, bind_eq_ok_iff]
  refine ⟨entry, hentry, declaration, hdecl, ?_⟩
  rw [if_neg hsome]
  simp only [bind_eq_ok_iff]
  exact ⟨own, hown, by rw [if_neg hkind]; rfl⟩

theorem Owns.declaredType {c : CursorId} {cursor : Cursor} {own entry : TypeEntry}
    (h : u.Owns N c cursor own) (hentry : u.typeAt t = .ok entry)
    (hc : entry.declaration = some c) :
    u.declaredType t = .ok ⟨cursor.type, own, cursor⟩ := by
  have hkind : own.kind ≠ .invalid := by
    intro hinvalid
    have hsort := h.sort_mem
    rw [hinvalid] at hsort
    simp at hsort
  exact declaredType_declared hentry (h.declarationOf hc) h.kind_ne h.type_eq hkind

namespace Paired

theorem undeclared (h : u.Paired N) {entry : TypeEntry} (hnone : entry.declaration = none) :
    ∃ cursor, u.declarationOf entry = .ok cursor ∧ cursor.fixed = { kind := .noDeclFound } := by
  obtain ⟨cursor, hcursor, hfixed⟩ := cursorAt_of_fixedCursors h.noDeclaration
  refine ⟨cursor, ?_, hfixed⟩
  rw [declarationOf, TypeEntry.declarationId, hnone]
  exact hcursor

theorem owner (h : u.Paired N) {entry : TypeEntry} (hentry : u.typeAt t = .ok entry) {c : CursorId}
    (hc : entry.declaration = some c) :
    entry.kind.isDeclarable = true ∧ ∃ cursor own, u.Owns N c cursor own := by
  have hmem := List.mem_of_getElem? (fixedTypes_getElem? (typeAt_eq_ok.1 hentry))
  obtain ⟨hkind, cursor, own, howns⟩ := h.shared _ hmem c hc
  obtain ⟨cursor', own', howns', -⟩ := owns_of_fixed howns
  exact ⟨hkind, cursor', own', howns'⟩

theorem owned (h : u.Paired N) {c : CursorId} {cursor : Cursor} (hc : u.cursorAt c = .ok cursor)
    (hk : cursor.kind.declares? ≠ none) : ∃ own, u.Owns N c cursor own := by
  obtain ⟨own, howns⟩ := h.declared c cursor.fixed (fixedCursors_getElem? (cursorAt_eq_ok.1 hc)) hk
  obtain ⟨cursor', own', howns', -⟩ := owns_of_fixed howns
  cases hc.symm.trans howns'.cursor_eq
  exact ⟨own', howns'⟩

/-- A `Declared` type has no declaration, or `Owns` the one that it was found by. -/
theorem declared_own (h : u.Paired N) {d : Declared} (hd : u.declaredType t = .ok d) :
    d.entry.declaration = none ∧ d.type = t ∨
      ∃ c, u.Owns N c d.declaration d.entry ∧ d.declaration.type = d.type := by
  obtain ⟨entry, hentry, -⟩ := declaredType_ok hd
  cases hc : entry.declaration with
  | none =>
    obtain ⟨cursor, hcursor, hfixed⟩ := h.undeclared hc
    cases (declaredType_undeclared hentry hcursor (congrArg Cursor.kind hfixed)).symm.trans hd
    exact Or.inl ⟨hc, rfl⟩
  | some c =>
    obtain ⟨-, cursor, own, howns⟩ := h.owner hentry hc
    cases (howns.declaredType hentry hc).symm.trans hd
    exact Or.inr ⟨c, howns, rfl⟩

theorem classified_own (h : u.Paired N) {entry : TypeEntry} (hc : u.Classifies t kind r)
    (hentry : u.typeAt r = .ok entry) :
    entry.declaration = none ∨ ∃ c cursor, u.Owns N c cursor entry := by
  obtain ⟨t', d, hd, rfl⟩ := hc.declared_last
  obtain ⟨-, -, -, hr, -⟩ := declaredType_ok hd
  cases hr.symm.trans hentry
  rcases h.declared_own hd with ⟨hnone, -⟩ | ⟨c, howns, -⟩
  · exact Or.inl hnone
  · exact Or.inr ⟨c, d.declaration, howns⟩

end Paired

/-- The type has a name of its own, wherever it is met. -/
structure HasName (u : TranslationUnit) (entry : TypeEntry) : Prop where
  spelled : stripTags entry.spelling ≠ ""
  marked : Text.contains entry.spelling "(unnamed at " = false
  declared : ∀ declaration, u.declarationOf entry = .ok declaration → declaration.anonymous = false

theorem Owns.hasName {c : CursorId} {cursor : Cursor} {entry : TypeEntry}
    (h : u.Owns Builder.Fits c cursor entry) (hne : cursor.spelling ≠ "") :
    u.HasName entry ∧ stripTags entry.spelling = cursor.spelling := by
  obtain ⟨hanonymous, hstrip, hmarked⟩ := h.named.resolve_left hne
  refine ⟨⟨?_, hmarked, ?_⟩, hstrip⟩
  · exact fun h => hne (hstrip.symm.trans h)
  · intro declaration hdecl
    cases (h.declarationOf h.declaration).symm.trans hdecl
    exact hanonymous

end TranslationUnit

/-! ## All that can be declared is declared -/

/-- Each type of a kind that `isDeclared` has a declaration. -/
def TranslationUnit.DeclaresAll (u : TranslationUnit) : Prop :=
  ∀ t ∈ u.fixedTypes, t.kind.isDeclared = true → t.declaration ≠ none

/-- A type whose declaration is one for types of its kind. -/
def TypeEntry.DeclaredBySort (cs : List Cursor) (t : TypeEntry) : Prop :=
  ∃ c cursor, t.declaration = some c ∧ cs[c]? = some cursor ∧ cursor.kind.declares? = some t.kind

def TranslationUnit.DeclaresBySort (u : TranslationUnit) : Prop :=
  ∀ t ∈ u.fixedTypes, t.kind.isDeclared = true → t.DeclaredBySort u.fixedCursors

theorem TypeEntry.DeclaredBySort.mono {cs cs' : List Cursor} {t : TypeEntry}
    (h : t.DeclaredBySort cs) (hcs : cs <+: cs') : t.DeclaredBySort cs' := by
  obtain ⟨c, cursor, hdeclaration, hcursor, hsort⟩ := h
  exact ⟨c, cursor, hdeclaration, getElem?_extended hcs hcursor, hsort⟩

namespace Builder

variable {step : Step} {b b' : Builder}

private theorem primitiveLayout?_of_isDeclared {kind : TypeKind} (size : Int)
    (h : kind.isDeclared = true) :
    primitiveLayout? size kind = none := by
  obtain rfl | rfl | rfl := of_decide_eq_true h <;> rfl

/-- Of the composed types only the `constQualified` ones are of a kind that `isDeclared`. -/
theorem Step.Composes.declaredBySort {t : TypeEntry} (h : step.Composes b t)
    (hb : b.unit.DeclaresBySort) (hk : t.kind.isDeclared = true) :
    t.fixed.DeclaredBySort b.unit.fixedCursors := by
  cases h with
  | primitive layout =>
    rw [primitiveLayout?_of_isDeclared _ hk] at layout
    cases layout
  | constQualified s =>
    rcases b.typeAt_cases s with hfound | hmissing
    · exact hb (b.typeAt s).fixed
        (List.mem_of_getElem? (TranslationUnit.fixedTypes_getElem? hfound)) hk
    · rw [hmissing] at hk
      cases hk
  | array sort =>
    rw [TypeKind.isArray_of_isDeclared hk] at sort
    cases sort
  | pointer | function | elaborated | attributed | unexposed => cases hk

private theorem Step.Edit.declaresBySort (e : step.Edit b b') (h : b.unit.DeclaresBySort) :
    b'.unit.DeclaresBySort := by
  have hextends := e.extends
  have hcs := hextends.prefixes.1
  unfold TranslationUnit.DeclaresBySort
  generalize b'.unit.fixedCursors = cs, b'.unit.fixedTypes = ts at hextends hcs
  intro t ht hk
  cases hextends with
  | nothing => exact h t ht hk
  | compose composed =>
    rcases List.mem_append.1 ht with hold | hnew
    · exact h t hold hk
    · obtain rfl := List.mem_singleton.1 hnew
      exact composed.declaredBySort h hk
  | @declare cursor parts own declaration =>
    rcases List.mem_append.1 ht with hold | hnew
    · exact (h t hold hk).mono hcs
    · obtain rfl := List.mem_singleton.1 hnew
      refine ⟨b.nextCursor, cursor.fixed, declaration.declaration, ?_, declaration.sort⟩
      simp [← length_fixedCursors]
  | cursors => exact (h t ht hk).mono hcs

theorem build_declaresBySort (file triple : String) (pointerBits : Nat) (steps : List Step) :
    (build file triple pointerBits steps).DeclaresBySort := by
  refine foldl_run_keeps ?_ fun step _ b b' e h => e.declaresBySort h
  intro t ht hk
  rw [List.mem_singleton.1 ht] at hk
  cases hk

theorem build_declaresAll (file triple : String) (pointerBits : Nat) (steps : List Step) :
    (build file triple pointerBits steps).DeclaresAll := by
  intro t ht hk hnone
  obtain ⟨c, cursor, hdeclaration, -⟩ := build_declaresBySort file triple pointerBits steps t ht hk
  cases hdeclaration.symm.trans hnone

end Builder

theorem TranslationUnit.Paired.owns_declared {u : TranslationUnit}
    {N : String → String → Bool → Prop} {t r : TypeId} {kind : Kind} {entry : TypeEntry}
    (hu : u.Paired N) (hall : u.DeclaresAll) (hc : u.Classifies t kind r)
    (hentry : u.typeAt r = .ok entry) (hk : entry.kind.isDeclared = true) :
    ∃ cursor, u.Owns N entry.declarationId cursor entry ∧ r = cursor.type := by
  obtain ⟨t', d, hd, rfl⟩ := hc.declared_last
  obtain ⟨-, -, -, hr, -⟩ := declaredType_ok hd
  cases hr.symm.trans hentry
  rcases hu.declared_own hd with ⟨hnone, -⟩ | ⟨c, howns, htype⟩
  · have hmem := List.mem_of_getElem? (fixedTypes_getElem? (typeAt_eq_ok.1 hentry))
    exact absurd hnone (hall d.entry.fixed hmem hk)
  · have hid : d.entry.declarationId = c := by simp [TypeEntry.declarationId, howns.declaration]
    exact ⟨d.declaration, hid ▸ howns, htype.symm⟩

namespace Context

variable {x : Context} {parent : Option String} {index : Nat} {node : VisitNode}

theorem typeName_of_hasName {kind : Kind} {t : TypeId} {entry : TypeEntry} {name : String}
    (hname : x.unit.HasName entry) (hentry : x.unit.typeAt t = .ok entry) (hm : kind ≠ .macroObject)
    (hf : kind ≠ .function) (harray : entry.kind.isArray = false)
    (h : x.typeName kind t parent index = .ok name) : name = stripTags entry.spelling := by
  simp only [typeName, hm, hf, or_self, if_false, bind_eq_ok_iff, hentry, Except.ok.injEq] at h
  obtain ⟨_, rfl, declaration, hdecl, h⟩ := h
  have hspelled : x.spelledName entry = .ok (stripTags entry.spelling) := by
    unfold spelledName
    split
    · next hk => simp [hk, TypeKind.isArray] at harray
    · next hk => simp [hk, TypeKind.isArray] at harray
    · rfl
  simp only [Marker.of?, hname.declared declaration hdecl, hname.marked, Bool.false_eq_true,
    if_false, hspelled, bind_eq_ok_iff, Except.ok.injEq] at h
  obtain ⟨_, rfl, h⟩ := h
  rw [if_pos hname.spelled] at h
  exact (pure_eq_ok_iff.1 h).symm

namespace Sighting

variable {candidate : TypeId} {referrer : Option TypeId}

theorem node_eq_made (g : x.Sighting parent index candidate none) : g.node = g.made := by
  rcases g.node_cases with h | ⟨r, name, location, -, hr, -⟩
  · exact h
  · cases hr

theorem made_typeName (g : x.Sighting parent index candidate referrer)
    (hk : g.kind.isShelved = true) (hname : x.unit.HasName g.entry) :
    g.made.typeName = stripTags g.entry.spelling := by
  refine typeName_of_hasName hname g.entry_eq ?_ ?_ ?_ (visitNode_ok g.made_eq).2.2.2.2.1
  · rintro h
    simp [h, Kind.isShelved] at hk
  · rintro h
    simp [h, Kind.isShelved] at hk
  · exact Kind.isArray_of_covers hk g.covered

/-- In a `Consistent` unit, `name` and `typeName` of a node that a reference led to are the same. -/
theorem made_name (g : x.Sighting parent index candidate referrer) (hu : x.unit.Consistent) :
    g.made.name = g.made.typeName := by
  obtain ⟨-, -, -, -, htype, hname⟩ := visitNode_ok g.made_eq
  rw [hname]
  split
  · rfl
  · next hspelling =>
    rcases hu.classified_own g.classifies g.entry_eq with hnone | ⟨c, cursor, howns⟩
    · obtain ⟨cursor, hcursor, hfixed⟩ := hu.undeclared hnone
      cases hcursor.symm.trans g.declaration_eq
      exact absurd (congrArg Cursor.spelling hfixed) hspelling
    · cases (howns.declarationOf howns.declaration).symm.trans g.declaration_eq
      obtain ⟨hown, hstrip⟩ := howns.hasName hspelling
      rw [g.made_typeName (Kind.isShelved_of_covers howns.sort_mem g.covered) hown, hstrip]

/-- A function pointer that a `referrer` led to has the spelling of the referrer as its name. -/
theorem named_of_referrer {r : TypeId} (g : x.Sighting parent index candidate (some r))
    (hk : g.kind = .functionPointer) :
    ∃ entry, x.unit.typeAt r = .ok entry ∧ g.node.name = stripTags entry.spelling ∧
      g.node.typeName = stripTags entry.spelling := by
  have hkind : g.made.kind = .functionPointer := (visitNode_ok g.made_eq).1.trans hk
  have h := g.node_eq
  simp only [namedBy, hkind, renamed, bind_eq_ok_iff, pure_eq_ok_iff] at h
  obtain ⟨entry, hentry, declaration, -, location, -, heq⟩ := h
  exact ⟨entry, hentry, by rw [← heq], by rw [← heq]⟩

theorem typeName_of_referrer {r : TypeId} {entry : TypeEntry}
    (g : x.Sighting parent index candidate (some r)) (hk : g.kind = .functionPointer)
    (hentry : x.unit.typeAt r = .ok entry) :
    g.node.typeName = stripTags entry.spelling := by
  obtain ⟨_, hentry', -, hname⟩ := g.named_of_referrer hk
  cases hentry.symm.trans hentry'
  exact hname

private theorem node_name (g : x.Sighting parent index candidate referrer)
    (hu : x.unit.Consistent) :
    g.node.name = g.node.typeName := by
  rcases g.node_cases with heq | ⟨r, name, location, -, -, -, heq⟩
  · rw [heq]
    exact g.made_name hu
  · rw [heq]

end Sighting

theorem Referenced.name_eq (hu : x.unit.Consistent) (h : x.Referenced node) :
    node.name = node.typeName := by
  obtain ⟨-, candidate, parent, index, container, h⟩ := h
  obtain ⟨referrer, g, ⟨-, rfl⟩ | ⟨-, rfl, -⟩⟩ := (resolve_sound h).sighting
  · exact g.node_name hu
  · exact g.node_name hu

theorem key_of_name_eq (h : node.name = node.typeName) : node.key = node.typeName := by
  unfold VisitNode.key
  split
  · rfl
  · exact h

theorem kind_of_topLevelKind? {c : Cursor} (h : topLevelKind? c = some .enum) :
    c.kind = .enumDecl := by
  unfold topLevelKind? at h
  split at h <;> simp_all

theorem topLevelType_of_enum {c : Cursor} {t : TypeId} {entry : TypeEntry}
    (hentry : x.unit.typeAt c.type = .ok entry) (henum : entry.kind = .enum)
    (ht : x.topLevelType c = .ok t) : t = c.type := by
  simp only [topLevelType, TranslationUnit.unwrapAttributed, bind_eq_ok_iff, pure_eq_ok_iff] at ht
  obtain ⟨_, hentry', _, hentry'', rfl⟩ := ht
  cases hentry.symm.trans hentry'
  simp only [henum, reduceCtorEq, if_false] at hentry'' ⊢
  cases hentry.symm.trans hentry''
  simp [henum]

theorem topLevelType_enum {N : String → String → Bool → Prop} (hu : x.unit.Paired N) {id : CursorId}
    {c : Cursor} {t : TypeId} (hc : x.unit.cursorAt id = .ok c) (hk : c.kind = .enumDecl)
    (ht : x.topLevelType c = .ok t) :
    t = c.type ∧ ∃ entry, x.unit.Owns N id c entry ∧ entry.kind = .enum := by
  obtain ⟨entry, howns⟩ := hu.owned hc (by rw [hk]; exact Option.some_ne_none _)
  have hentry := howns.type_eq
  have henum : entry.kind = .enum := by
    have hsort := howns.sort
    rw [hk] at hsort
    exact (Option.some.inj hsort).symm
  exact ⟨topLevelType_of_enum hentry henum ht, entry, howns, henum⟩

theorem TopLevel.name_eq (hu : x.unit.Consistent) (h : x.TopLevel node) (hk : node.kind = .enum) :
    node.name = node.typeName := by
  obtain ⟨root, id, c, kind, t, -, -, hc, -, htop, -, htype, hnode⟩ := h
  obtain ⟨rfl, -, -, -, htypeName, hname⟩ := visitNode_ok hnode
  rw [hk] at htop htypeName
  rw [hname]
  split
  · rfl
  · next hspelling =>
    obtain ⟨rfl, entry, howns, hkind⟩ :=
      topLevelType_enum hu hc (kind_of_topLevelKind? htop) htype
    obtain ⟨hown, hstrip⟩ := howns.hasName hspelling
    have harray : entry.kind.isArray = false := by rw [hkind]; rfl
    rw [typeName_of_hasName hown howns.type_eq (by decide) (by decide) harray htypeName, hstrip]

theorem Discovered.name_eq_key (hu : x.unit.Consistent) (h : x.Discovered node)
    (hc : node.category = .types) : node.name = node.key := by
  rcases h with hreferenced | htop
  · have hname := hreferenced.name_eq hu
    rw [key_of_name_eq hname, hname]
  · have hname := htop.name_eq hu (htop.kind_enum hc)
    rw [key_of_name_eq hname, hname]

end Context
end HeaderSurvey
