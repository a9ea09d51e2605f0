import HeaderSurvey.Proofs.Shapes
import HeaderSurvey.Proofs.UnitDocuments

/-! Numbers in a snapshot. Sizes, alignments, counts and offsets, lines and columns are taken over
from the unit or get smaller on the way, so they have room in a document if those of the unit
have. -/
namespace HeaderSurvey

namespace TranslationUnit

variable {u : TranslationUnit}

theorem typeAt_fits (h : u.fits = true) {t : TypeId} {entry : TypeEntry}
    (ht : u.typeAt t = .ok entry) :
    isInt64 entry.size = true ∧ isInt64 entry.align = true ∧ isInt64 entry.arraySize = true := by
  have hmem := Array.mem_toList_iff.2 (Array.mem_of_getElem? (typeAt_eq_ok.1 ht))
  simp only [fits, Bool.and_eq_true, List.all_eq_true] at h
  have hentry := h.2 entry hmem
  simp only [TypeEntry.fits, Bool.and_eq_true] at hentry
  simp [hentry]

theorem cursorAt_fits (h : u.fits = true) {c : CursorId} {cursor : Cursor}
    (hc : u.cursorAt c = .ok cursor) :
    cursor.position.fits = true ∧ isInt64 cursor.offsetBits = true ∧
    isInt64 cursor.enumValue = true := by
  have hmem := Array.mem_toList_iff.2 (Array.mem_of_getElem? (cursorAt_eq_ok.1 hc))
  simp only [fits, Bool.and_eq_true, List.all_eq_true] at h
  have hcursor := h.1.2 cursor hmem
  simp only [Cursor.fits, Bool.and_eq_true] at hcursor
  simp [hcursor]

end TranslationUnit

theorem Places.locate_fits {p : Places} {c : Cursor} {t : TypeEntry} {l : Location}
    (hc : c.position.fits = true) (h : p.locate c t = .ok l) : l.fits = true := by
  unfold locate at h
  split at h
  · rw [← Except.ok.inj h]
    decide
  · split at h
    · cases h
    · rw [← Except.ok.inj h]
      exact hc

def VisitNode.fits (n : VisitNode) : Bool :=
  n.location.fits && isInt64 n.size && n.align.all isInt64

namespace Context

variable {x : Context} {kind : Kind} {name : String} {t container : TypeId} {node : VisitNode}
  {parent : Option String} {index : Nat} {use : TypeUse} {s s' : Session} {r : Node}

/-- The numbers that a survey starts from have room in their fields. -/
structure Roomy (x : Context) : Prop where
  unit : x.unit.fits = true
  pointerSize : isInt64 x.pointerSize = true

theorem known_fits {n : Int} (h : isInt64 n = true) : (known n).all isInt64 = true := by
  unfold known
  split
  · exact h
  · rfl

theorem Roomy.shownSize (h : x.Roomy) {entry : TypeEntry} (hentry : isInt64 entry.size = true)
    (kind : Kind) :
    isInt64 (x.shownSize kind entry) = true := by
  unfold Context.shownSize
  split
  · exact hentry
  · split
    · rfl
    · rfl
    · exact h.pointerSize
    · exact h.pointerSize
    · exact hentry

theorem Roomy.elementSize (h : x.Roomy) {entry : TypeEntry} {size : Int}
    (hsize : x.elementSize entry = .ok size) :
    isInt64 size = true := by
  simp only [Context.elementSize, bind_eq_ok_iff, pure_eq_ok_iff] at hsize
  obtain ⟨⟨kind, t⟩, -, element, helement, rfl⟩ := hsize
  exact h.shownSize (TranslationUnit.typeAt_fits h.unit helement).1 kind

theorem Roomy.layerOf (h : x.Roomy) {entry holder : TypeEntry} {layer : TypeLayer}
    (hholder : x.unit.typeAt container = .ok holder)
    (hlayer : x.layerOf kind name entry holder = .ok layer) :
    layer.fits = true := by
  obtain ⟨hsize, halign, hcount⟩ := TranslationUnit.typeAt_fits h.unit hholder
  have hshown := h.shownSize hsize kind
  unfold Context.layerOf at hlayer
  split at hlayer
  · simp only [map_eq_pure_bind, bind_eq_ok_iff, pure_eq_ok_iff] at hlayer
    obtain ⟨_, ⟨size, helement, rfl⟩, declaration, hdeclaration, location, hlocation, rfl⟩ := hlayer
    have hplace := Places.locate_fits (TranslationUnit.cursorAt_fits h.unit hdeclaration).1
      hlocation
    simp [TypeLayer.fits, hshown, known_fits halign, known_fits hcount,
      h.elementSize helement, hplace]
  · simp only [bind_eq_ok_iff, pure_eq_ok_iff] at hlayer
    obtain ⟨_, rfl, declaration, hdeclaration, location, hlocation, rfl⟩ := hlayer
    have hplace := Places.locate_fits (TranslationUnit.cursorAt_fits h.unit hdeclaration).1
      hlocation
    simp [TypeLayer.fits, hshown, known_fits halign, known_fits hcount, hplace]

private theorem Roomy.describes (h : x.Roomy) (hdescribed : x.Describes kind name t container use) :
    use.fits = true := by
  rw [TypeUse.fits, List.all_eq_true]
  intro level hlevel
  obtain ⟨t, container, hdescribed⟩ := hdescribed.level hlevel
  cases hdescribed with
  | leaf _ _ holder_eq layer_eq => exact h.layerOf holder_eq layer_eq
  | layered _ _ holder_eq layer_eq => exact h.layerOf holder_eq layer_eq

/-! ## Nodes -/

theorem Roomy.visitNode (h : x.Roomy) {c : CursorId}
    (hnode : x.visitNode kind name c t parent index = .ok node) : node.fits = true := by
  simp only [Context.visitNode, bind_eq_ok_iff, pure_eq_ok_iff] at hnode
  obtain ⟨typeName, -, cursor, hcursor, entry, hentry, location, hlocation, rfl⟩ := hnode
  obtain ⟨hsize, halign, -⟩ := TranslationUnit.typeAt_fits h.unit hentry
  have hplace := Places.locate_fits (TranslationUnit.cursorAt_fits h.unit hcursor).1 hlocation
  simp [VisitNode.fits, hplace, h.shownSize hsize, known_fits halign]

theorem Roomy.renamed (h : x.Roomy) {node' : VisitNode} {referrer : TypeId}
    (hnode : node.fits = true) (hnamed : x.renamed node referrer = .ok node') :
    node'.fits = true := by
  simp only [Context.renamed, bind_eq_ok_iff, pure_eq_ok_iff] at hnamed
  obtain ⟨entry, -, declaration, hdeclaration, location, hlocation, rfl⟩ := hnamed
  have hplace := Places.locate_fits (TranslationUnit.cursorAt_fits h.unit hdeclaration).1 hlocation
  simp only [VisitNode.fits, Bool.and_eq_true] at hnode
  simp [VisitNode.fits, hplace, hnode]

theorem Roomy.sighting (h : x.Roomy) {candidate : TypeId} {referrer : Option TypeId}
    (g : x.Sighting parent index candidate referrer) : g.node.fits = true := by
  have hmade := h.visitNode g.made_eq
  rcases g.node_cases with heq | ⟨r, -, -, -, -, hnamed, -⟩
  · exact heq ▸ hmade
  · exact h.renamed hmade hnamed

theorem Roomy.discovered (h : x.Roomy) (hnode : x.Discovered node) : node.fits = true := by
  rcases hnode with ⟨-, candidate, parent, index, container, hresolve⟩ |
    ⟨root, id, c, kind, t, -, -, -, -, -, -, -, hmade⟩
  · obtain ⟨referrer, g, ⟨-, rfl⟩ | ⟨-, rfl, -⟩⟩ := (resolve_sound hresolve).sighting
    · exact h.sighting g
    · exact h.sighting g
  · exact h.visitNode hmade

/-! ## Finished declarations -/

theorem Roomy.visit (h : x.Roomy) {candidate : TypeId}
    (hvisit : Returns (x.visit candidate parent index) s use s') : use.fits = true := by
  obtain ⟨node, container, -, huse⟩ := visit_resolves hvisit
  exact h.describes (use_sound huse)

theorem Roomy.finishParameter (h : x.Roomy) {id : CursorId} {c : Cursor} {p : FunctionParameter}
    (hc : x.unit.cursorAt id = .ok c) (hfinish : Returns (x.finishParameter node c index) s p s') :
    (p.location.fits && p.type.fits) = true := by
  simp only [Context.finishParameter, returns_bind, returns_lift, returns_pure] at hfinish
  obtain ⟨type, _, hvisit, entry, _, -, location, _, ⟨hlocation, -⟩, rfl, -⟩ := hfinish
  simp [h.visit hvisit, Places.locate_fits (TranslationUnit.cursorAt_fits h.unit hc).1 hlocation]

theorem Roomy.finishField (h : x.Roomy) {id : CursorId} {f : RecordField}
    (hfinish : Returns (x.finishField node id index) s f s') :
    (f.location.fits && f.type.fits && isInt64 f.offset) = true := by
  simp only [Context.finishField, returns_bind, returns_lift, returns_pure] at hfinish
  obtain ⟨c, _, ⟨hc, -⟩, type, _, hvisit, entry, _, -, location, _, ⟨hlocation, -⟩, rfl, -⟩ :=
    hfinish
  obtain ⟨hposition, hbits, -⟩ := TranslationUnit.cursorAt_fits h.unit hc
  have hoffset : isInt64 (max c.offsetBits 0 / 8) = true := by
    simp only [isInt64, Bool.and_eq_true, decide_eq_true_eq] at hbits ⊢
    omega
  simp [h.visit hvisit, Places.locate_fits hposition hlocation, hoffset]

theorem Roomy.finishFunction (h : x.Roomy) (hnode : node.fits = true)
    (hfinish : Returns (x.finishFunction node) s r s') : r.fits = true := by
  simp only [VisitNode.fits, Bool.and_eq_true] at hnode
  simp only [Context.finishFunction, returns_bind, returns_lift, returns_pure] at hfinish
  obtain ⟨entry, _, -, result, _, hresult, cursor, _, -, children, _, ⟨hchildren, -⟩, parameters, _,
    hparameters, rfl, -⟩ := hfinish
  have hall := mapM_forall (fun child hchild s p s' hp => h.finishParameter
    (mem_childrenWhere hchildren (List.fst_mem_of_mem_zipIdx hchild)).2.1 hp) hparameters
  simp only [Node.fits, Bool.and_eq_true, List.all_eq_true]
  exact ⟨⟨hnode.1.1, h.visit hresult⟩, fun p hp => Bool.and_eq_true_iff.1 (hall p hp)⟩

theorem Roomy.finishRecord (h : x.Roomy) (hnode : node.fits = true)
    (hfinish : Returns (x.finishRecord node) s r s') : r.fits = true := by
  simp only [Context.finishRecord, returns_bind, returns_lift, returns_pure] at hfinish
  obtain ⟨entry, _, -, fields, _, hfields, rfl, -⟩ := hfinish
  have hall := mapM_forall (fun field _ s f s' hf => h.finishField hf) hfields
  simp only [VisitNode.fits] at hnode
  simp only [Node.fits, hnode, Bool.true_and, List.all_eq_true]
  exact hall

theorem Roomy.finishEnum (h : x.Roomy) (hnode : node.fits = true)
    (hfinish : Returns (x.finishEnum node) s r s') :
    r.fits = true := by
  simp only [VisitNode.fits, Bool.and_eq_true] at hnode
  simp only [Context.finishEnum, returns_bind, returns_lift, returns_pure] at hfinish
  obtain ⟨cursor, _, -, integerType, _, hvisit, constants, _, ⟨hconstants, -⟩, rfl, -⟩ := hfinish
  have hvalues : ∀ constant ∈ constants, isInt64 constant.2.enumValue = true := fun constant hmem =>
    (TranslationUnit.cursorAt_fits h.unit (mem_childrenWhere hconstants hmem).2.1).2.2
  simpa [Node.fits, hnode, h.visit hvisit] using hvalues

theorem Roomy.finishFunctionPointer (h : x.Roomy) (hnode : node.fits = true)
    (hfinish : Returns (x.finishFunctionPointer node) s r s') : r.fits = true := by
  simp only [VisitNode.fits, Bool.and_eq_true] at hnode
  simp only [Context.finishFunctionPointer, returns_bind, returns_lift, returns_pure] at hfinish
  obtain ⟨entry, _, -, function, _, -, result, _, hresult, parameters, _, hparameters, rfl, -⟩ :=
    hfinish
  have hall : ∀ p ∈ parameters, p.type.fits = true := by
    refine mapM_forall (fun argument _ s p s' hp => ?_) hparameters
    simp only [returns_bind, returns_pure] at hp
    obtain ⟨type, _, hvisit, rfl, -⟩ := hp
    exact h.visit hvisit
  simp only [Node.fits, Bool.and_eq_true, List.all_eq_true]
  exact ⟨⟨hnode.1, h.visit hresult⟩, hall⟩

theorem Roomy.finish (h : x.Roomy) (hnode : x.Discovered node)
    (hfinish : Returns (x.finish node) s r s') :
    r.fits = true := by
  have hfits := h.discovered hnode
  have hparts := hfits
  simp only [VisitNode.fits, Bool.and_eq_true] at hparts
  simp only [Context.finish, returns_bind, returns_modify] at hfinish
  obtain ⟨_, _, -, hfinish⟩ := hfinish
  split at hfinish
  · simp only [finishMacro, returns_bind, returns_lift, returns_pure] at hfinish
    obtain ⟨cursor, _, -, rfl, -⟩ := hfinish
    simp [Node.fits, hparts]
  · simp only [finishVariable, returns_bind, returns_lift, returns_pure] at hfinish
    obtain ⟨⟨kind, t⟩, _, -, typeName, _, -, use, _, ⟨huse, -⟩, rfl, -⟩ := hfinish
    simp [Node.fits, hparts, h.describes (use_sound huse)]
  · exact h.finishFunction hfits hfinish
  · exact h.finishRecord hfits hfinish
  · exact h.finishRecord hfits hfinish
  · exact h.finishEnum hfits hfinish
  · next hk =>
    -- What waits as an alias does not lead to a type that is taken in its place.
    obtain ⟨cursor, kind, resolved, hcursor, hclass, hflat⟩ := hnode.unflattened hk
    simp only [finishAlias, returns_bind, returns_lift, hcursor] at hfinish
    obtain ⟨_, _, ⟨hc, rfl⟩, ⟨_, _⟩, _, ⟨hc', rfl⟩, hfinish⟩ := hfinish
    cases hc
    cases hclass.symm.trans hc'
    simp only [hflat, Bool.false_eq_true, ↓reduceIte, returns_bind, returns_pure] at hfinish
    obtain ⟨underlying, _, hvisit, rfl, -⟩ := hfinish
    simp [Node.fits, hparts, h.visit hvisit]
  · obtain ⟨rfl, -⟩ := returns_pure.1 hfinish
    simp [Node.fits, hparts]
  · exact h.finishFunctionPointer hfits hfinish
  · simp only [finishPointer, returns_bind, returns_lift, returns_pure] at hfinish
    obtain ⟨entry, _, -, pointee, _, hvisit, rfl, -⟩ := hfinish
    simp [Node.fits, hparts, h.visit hvisit]
  · simp only [finishArray, returns_bind, returns_lift, returns_pure] at hfinish
    obtain ⟨entry, _, ⟨hentry, -⟩, element, _, hvisit, rfl, -⟩ := hfinish
    have hcount := known_fits (TranslationUnit.typeAt_fits h.unit hentry).2.2
    simp [Node.fits, hparts, h.visit hvisit, hcount]
  · obtain ⟨rfl, -⟩ := returns_pure.1 hfinish
    simp [Node.fits, hparts]

end Context

/-- All declarations of a snapshot have `fits` if the numbers of the unit are `Roomy`. -/
theorem Steady.nodes_fit {x : Context} {file : String} {requested actual : Platform} {t : Session}
    {p : Progress} (h : Steady x (Assembly.start file requested actual) t [] p) (hx : x.Roomy) :
    ∀ n ∈ p.assembly.snapshot.nodes, n.fits = true := by
  intro n hn
  obtain ⟨name, kind, hfound⟩ := Snapshot.exists_find? hn
  obtain ⟨node, hresult⟩ := h.mem_results hfound
  obtain ⟨s, s', hfinish⟩ := h.made _ hresult
  exact hx.finish (h.ledger.found _ (h.mem_offers_of_result hresult)) hfinish

end HeaderSurvey
