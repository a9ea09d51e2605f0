import HeaderSurvey.Proofs.Classification

/-! Where the nodes of a survey come from. A node is found by following a reference to a type, over
one alias after the other, or it is a declaration of the top level; nothing else is ever offered. -/
namespace HeaderSurvey

abbrev VisitNode.category (n : VisitNode) : Category := Category.ofKind n.kind

theorem Kind.category_types {kind : Kind} (h : kind.isType = true) :
    Category.ofKind kind = .types := by
  cases kind <;> first | rfl | simp [Kind.isType] at h

namespace Context

variable {x : Context} {parent : Option String} {index : Nat}

/-- What `visitNode` takes over from its arguments. -/
theorem visitNode_ok {kind : Kind} {name : String} {c : CursorId} {t : TypeId} {node : VisitNode}
    (h : x.visitNode kind name c t parent index = .ok node) :
    node.kind = kind ∧ node.cursor = c ∧ node.type = t ∧ node.parent = parent ∧
      x.typeName kind t parent index = .ok node.typeName ∧
      node.name = if name = "" then node.typeName else name := by
  simp only [visitNode, bind_eq_ok_iff, pure_eq_ok_iff] at h
  obtain ⟨typeName, hn, cursor, -, entry, -, location, -, rfl⟩ := h
  exact ⟨rfl, rfl, rfl, rfl, hn, rfl⟩

/-- A reference to `candidate` on the way to its node: what it is classified as, and the node that
stands for it. -/
structure Sighting (x : Context) (parent : Option String) (index : Nat) (candidate : TypeId)
    (referrer : Option TypeId) where
  kind : Kind
  type : TypeId
  entry : TypeEntry
  declaration : Cursor
  made : VisitNode
  node : VisitNode
  classified : x.unit.classify candidate = .ok (kind, type)
  entry_eq : x.unit.typeAt type = .ok entry
  declaration_eq : x.unit.cursorAt entry.declarationId = .ok declaration
  made_eq : x.visitNode kind declaration.spelling entry.declarationId type parent index = .ok made
  node_eq : x.namedBy referrer made = .ok node

namespace Sighting

variable {candidate : TypeId} {referrer : Option TypeId}

theorem classifies (g : x.Sighting parent index candidate referrer) :
    x.unit.Classifies candidate g.kind g.type := TranslationUnit.classify_sound g.classified

theorem covered (g : x.Sighting parent index candidate referrer) :
    g.kind.covers g.entry.kind = true := by
  obtain ⟨entry, hentry, hcovers⟩ := g.classifies.covered
  cases hentry.symm.trans g.entry_eq
  exact hcovers

/-- The `node` of a `Sighting` is the one it has `made`, or that one `renamed` after `referrer`; the
latter is a function pointer. -/
theorem node_cases (g : x.Sighting parent index candidate referrer) :
    g.node = g.made ∨ ∃ r name location, g.kind = .functionPointer ∧ referrer = some r ∧
      x.renamed g.made r = .ok g.node ∧
      g.node = { g.made with name, typeName := name, location } := by
  have h := g.node_eq
  unfold namedBy at h
  split at h
  · next r hk =>
    refine Or.inr ⟨r, g.node.name, g.node.location, (visitNode_ok g.made_eq).1.symm.trans hk,
      rfl, h, ?_⟩
    simp only [renamed, bind_eq_ok_iff, pure_eq_ok_iff] at h
    obtain ⟨entry, -, declaration, -, location, -, heq⟩ := h
    rw [← heq]
  · exact Or.inl (Except.ok.inj h).symm

theorem node_kind (g : x.Sighting parent index candidate referrer) : g.node.kind = g.kind := by
  obtain ⟨hk, -⟩ := visitNode_ok g.made_eq
  rcases g.node_cases with h | ⟨r, name, location, -, -, -, h⟩ <;> rw [h] <;> exact hk

theorem node_type (g : x.Sighting parent index candidate referrer) : g.node.type = g.type := by
  obtain ⟨-, -, ht, -⟩ := visitNode_ok g.made_eq
  rcases g.node_cases with h | ⟨r, name, location, -, -, -, h⟩ <;> rw [h] <;> exact ht

theorem node_cursor (g : x.Sighting parent index candidate referrer) :
    g.node.cursor = g.entry.declarationId := by
  obtain ⟨-, hc, -⟩ := visitNode_ok g.made_eq
  rcases g.node_cases with h | ⟨r, name, location, -, -, -, h⟩ <;> rw [h] <;> exact hc

end Sighting

/-- The reference leads to the node, and `container` is the last reference on the way. -/
inductive Resolves (x : Context) (parent : Option String) (index : Nat) :
    TypeId → Option TypeId → VisitNode → TypeId → Prop where
  | overridden {candidate referrer} (g : x.Sighting parent index candidate referrer)
      (asked : x.isOverridden g.node = true) :
      Resolves x parent index candidate referrer { g.node with kind := .opaqueType } candidate
  | plain {candidate referrer} (g : x.Sighting parent index candidate referrer)
      (asked : x.isOverridden g.node = false)
      (kept : g.kind = .typeAlias →
        ∃ kind r, x.unit.classify g.declaration.underlyingId = .ok (kind, r) ∧
        kind.isFlattened = false) :
      Resolves x parent index candidate referrer g.node candidate
  | flattened {candidate referrer kind r node container}
      (g : x.Sighting parent index candidate referrer) (asked : x.isOverridden g.node = false)
      (named : g.kind = .typeAlias)
      (underlying : x.unit.classify g.declaration.underlyingId = .ok (kind, r))
      (flat : kind.isFlattened = true)
      (rest : Resolves x parent index r (some g.type) node container) :
      Resolves x parent index candidate referrer node container

private theorem resolveWithin_sound {aliases : Nat} {candidate container : TypeId}
    {referrer : Option TypeId} {node : VisitNode}
    (h : x.resolveWithin parent index aliases candidate referrer = .ok (node, container)) :
    x.Resolves parent index candidate referrer node container := by
  induction aliases generalizing candidate referrer with
  | zero => cases h
  | succ aliases ih =>
    simp only [resolveWithin, bind_eq_ok_iff] at h
    obtain ⟨⟨kind, t⟩, hclass, entry, hentry, declaration, hdecl, made, hmade, named, hnamed, h⟩ :=
      h
    let g : x.Sighting parent index candidate referrer :=
      ⟨kind, t, entry, declaration, made, named, hclass, hentry, hdecl, hmade, hnamed⟩
    split at h
    · next ho =>
      cases h
      exact .overridden g ho
    · next ho =>
      have ho : x.isOverridden named = false := by simpa using ho
      split at h
      · next hk =>
        simp only [bind_eq_ok_iff] at h
        obtain ⟨⟨underlyingKind, underlying⟩, hu, h⟩ := h
        split at h
        · next hf =>
          exact .flattened g ho hk hu hf (ih (by simpa using h))
        · next hf =>
          cases h
          exact .plain g ho fun _ => ⟨underlyingKind, underlying, hu, by simpa using hf⟩
      · next hk =>
        cases h
        exact .plain g ho fun hk' => absurd hk' hk

theorem resolve_sound {candidate container : TypeId} {node : VisitNode}
    (h : x.resolve candidate parent index = .ok (node, container)) :
    x.Resolves parent index candidate none node container := resolveWithin_sound h

/-- The last `Sighting` on the way of `Resolves`: its node, or that node as an `opaqueType` if it
`isOverridden`. -/
theorem Resolves.sighting {candidate container : TypeId} {referrer : Option TypeId}
    {node : VisitNode} (h : x.Resolves parent index candidate referrer node container) :
    ∃ referrer', ∃ g : x.Sighting parent index container referrer',
      (x.isOverridden g.node = true ∧ node = { g.node with kind := .opaqueType }) ∨
      (x.isOverridden g.node = false ∧ node = g.node ∧ (g.kind = .typeAlias →
        ∃ kind r, x.unit.classify g.declaration.underlyingId = .ok (kind, r) ∧
          kind.isFlattened = false)) := by
  induction h with
  | @overridden candidate referrer g asked => exact ⟨referrer, g, Or.inl ⟨asked, rfl⟩⟩
  | @plain candidate referrer g asked kept => exact ⟨referrer, g, Or.inr ⟨asked, rfl, kept⟩⟩
  | flattened g asked named underlying flat rest ih => exact ih

/-- The kind of a resolved node is `opaqueType`, or it `covers` the kind of the type it stands
for. -/
theorem Resolves.covered {candidate container : TypeId} {referrer : Option TypeId}
    {node : VisitNode} (h : x.Resolves parent index candidate referrer node container) :
    node.kind = .opaqueType ∨
      ∃ entry, x.unit.typeAt node.type = .ok entry ∧ node.kind.covers entry.kind = true := by
  obtain ⟨referrer', g, ⟨-, rfl⟩ | ⟨-, rfl, -⟩⟩ := h.sighting
  · exact Or.inl rfl
  · rw [g.node_kind, g.node_type]
    exact Or.inr ⟨g.entry, g.entry_eq, g.covered⟩

/-- `resolve` gives `node` for some reference. A function type is no node of its own. -/
def Referenced (x : Context) (node : VisitNode) : Prop :=
  node.kind ≠ .function ∧ ∃ candidate parent index container,
    x.resolve candidate parent index = .ok (node, container)

/-- `node` is made for a declaration that the survey starts from. -/
def TopLevel (x : Context) (node : VisitNode) : Prop :=
  ∃ root id c kind t, x.unit.cursorAt CursorId.root = .ok root ∧ id ∈ root.children ∧
    x.unit.cursorAt id = .ok c ∧ isTopLevel c = true ∧ topLevelKind? c = some kind ∧
    x.isSkipped kind c = false ∧ x.topLevelType c = .ok t ∧
    x.visitNode kind c.spelling id t none 0 = .ok node

def Discovered (x : Context) (node : VisitNode) : Prop := x.Referenced node ∨ x.TopLevel node

theorem Referenced.isType {node : VisitNode} (h : x.Referenced node) : node.kind.isType = true := by
  obtain ⟨hf, candidate, parent, index, container, h⟩ := h
  obtain ⟨referrer, g, ⟨-, rfl⟩ | ⟨-, rfl, -⟩⟩ := (resolve_sound h).sighting
  · rfl
  · have hk := g.classifies.kind_isType
    rw [← g.node_kind] at hk
    exact hk.resolve_left hf

theorem Referenced.category {node : VisitNode} (h : x.Referenced node) : node.category = .types :=
  Kind.category_types h.isType

/-- A `typeAlias` waits as such only if it does not lead to a kind that `isFlattened`. -/
def Unflattened (x : Context) (node : VisitNode) : Prop :=
  node.kind = .typeAlias → ∃ cursor kind r, x.unit.cursorAt node.cursor = .ok cursor ∧
    x.unit.classify cursor.underlyingId = .ok (kind, r) ∧ kind.isFlattened = false

theorem topLevelKind?_cases {c : Cursor} {kind : Kind} (h : topLevelKind? c = some kind) :
    kind = .function ∨ kind = .globalVariable ∨ kind = .enum ∨ kind = .macroObject := by
  unfold topLevelKind? at h
  split at h <;> simp_all

theorem TopLevel.kind_enum {node : VisitNode} (h : x.TopLevel node)
    (hc : node.category = .types) : node.kind = .enum := by
  obtain ⟨root, id, c, kind, t, -, -, -, -, htop, -, -, hnode⟩ := h
  obtain ⟨rfl, -⟩ := visitNode_ok hnode
  rcases topLevelKind?_cases htop with hk | hk | hk | hk
  · simp [VisitNode.category, hk, Category.ofKind] at hc
  · simp [VisitNode.category, hk, Category.ofKind] at hc
  · exact hk
  · simp [VisitNode.category, hk, Category.ofKind] at hc

theorem Discovered.unflattened {node : VisitNode} (h : x.Discovered node) : x.Unflattened node := by
  intro hk
  rcases h with ⟨-, candidate, parent, index, container, h⟩ |
    ⟨root, id, c, kind, t, -, -, -, -, htop, -, -, h⟩
  · obtain ⟨referrer, g, ⟨-, rfl⟩ | ⟨-, rfl, kept⟩⟩ := (resolve_sound h).sighting
    · cases hk
    · obtain ⟨kind, r, hu, hf⟩ := kept (g.node_kind.symm.trans hk)
      exact ⟨g.declaration, kind, r, g.node_cursor ▸ g.declaration_eq, hu, hf⟩
  · obtain ⟨hkind, -⟩ := visitNode_ok h
    rw [hk] at hkind
    subst hkind
    simpa using topLevelKind?_cases htop

/-! ## Uses of types -/

/-- `Describes x kind name t container use`: the use describes the type `t`, layer by layer. -/
inductive Describes (x : Context) : Kind → String → TypeId → TypeId → TypeUse → Prop where
  | leaf {kind name t t' container entry holder layer}
      (unwrapped : x.unit.unwrapAttributed t = .ok t') (entry_eq : x.unit.typeAt t' = .ok entry)
      (holder_eq : x.unit.typeAt container = .ok holder)
      (layer_eq : x.layerOf kind name entry holder = .ok layer)
      (last : innerId? kind entry = none) :
      Describes x kind name t container (.leaf layer)
  | layered {kind name t t' container entry holder layer candidate kind' r target inner}
      (unwrapped : x.unit.unwrapAttributed t = .ok t') (entry_eq : x.unit.typeAt t' = .ok entry)
      (holder_eq : x.unit.typeAt container = .ok holder)
      (layer_eq : x.layerOf kind name entry holder = .ok layer)
      (next : innerId? kind entry = some candidate)
      (classified : x.unit.classify candidate = .ok (kind', r))
      (target_eq : x.unit.typeAt r = .ok target)
      (rest : Describes x kind' (stripTags target.spelling) r candidate inner) :
      Describes x kind name t container (.layered layer inner)

variable {kind : Kind} {name : String} {t container : TypeId} {use : TypeUse}

private theorem useWithin_sound {layers : Nat}
    (h : x.useWithin layers kind name t container = .ok use) :
    x.Describes kind name t container use := by
  induction layers generalizing kind name t container use with
  | zero => cases h
  | succ layers ih =>
    simp only [useWithin, bind_eq_ok_iff] at h
    obtain ⟨t', hun, entry, hentry, holder, hholder, layer, hlayer, h⟩ := h
    split at h
    · next hlast =>
      cases h
      exact .leaf hun hentry hholder hlayer hlast
    · next candidate hnext =>
      simp only [bind_eq_ok_iff] at h
      obtain ⟨⟨kind', r⟩, hclass, target, htarget, inner, hinner, h⟩ := h
      cases h
      exact .layered hun hentry hholder hlayer hnext hclass htarget (ih hinner)

theorem use_sound (h : x.use kind name t container = .ok use) :
    x.Describes kind name t container use :=
  useWithin_sound h

theorem layerOf_ok {entry holder : TypeEntry} {layer : TypeLayer}
    (h : x.layerOf kind name entry holder = .ok layer) : layer.name = name ∧ layer.kind = kind := by
  unfold layerOf at h
  split at h
  all_goals
    simp only [bind_eq_ok_iff, pure_eq_ok_iff] at h
    obtain ⟨size, -, declaration, -, location, -, rfl⟩ := h
    exact ⟨rfl, rfl⟩

theorem Describes.name_kind (h : x.Describes kind name t container use) :
    use.name = name ∧ use.kind = kind := by
  cases h with
  | leaf _ _ _ layer_eq => exact layerOf_ok layer_eq
  | layered _ _ _ layer_eq => exact layerOf_ok layer_eq

theorem Describes.level (h : x.Describes kind name t container use) {level : TypeUse}
    (hlevel : level ∈ use.levels) :
    ∃ t container, x.Describes level.kind level.name t container level := by
  induction h with
  | @leaf kind name t t' container entry holder layer unwrapped entry_eq holder_eq layer_eq last =>
    obtain rfl := List.mem_singleton.1 hlevel
    obtain ⟨rfl, rfl⟩ := layerOf_ok layer_eq
    exact ⟨t, container, .leaf unwrapped entry_eq holder_eq layer_eq last⟩
  | @layered kind name t t' container entry holder layer candidate kind' r target inner unwrapped
      entry_eq holder_eq layer_eq next classified target_eq rest ih =>
    rcases List.mem_cons.1 hlevel with rfl | hinner
    · obtain ⟨rfl, rfl⟩ := layerOf_ok layer_eq
      exact ⟨t, container,
        .layered unwrapped entry_eq holder_eq layer_eq next classified target_eq rest⟩
    · exact ih hinner

/-- `use` describes a `node` that some reference leads to. -/
def Pictures (x : Context) (node : VisitNode) (use : TypeUse) : Prop :=
  ∃ candidate parent index container, x.resolve candidate parent index = .ok (node, container) ∧
    x.use node.kind node.typeName node.type container = .ok use

theorem Pictures.name_kind {node : VisitNode} (h : x.Pictures node use) :
    use.name = node.typeName ∧ use.kind = node.kind := by
  obtain ⟨candidate, parent, index, container, -, huse⟩ := h
  exact (use_sound huse).name_kind

theorem Pictures.referenced {node : VisitNode} (h : x.Pictures node use)
    (hk : node.kind ≠ .function) :
    x.Referenced node := by
  obtain ⟨candidate, parent, index, container, hresolve, -⟩ := h
  exact ⟨hk, candidate, parent, index, container, hresolve⟩

theorem Referenced.key_eq {node : VisitNode} (h : x.Referenced node) (hn : node.typeName ≠ "") :
    node.key = node.typeName := by
  simp [VisitNode.key, h.isType, hn]

end Context
end HeaderSurvey
