import HeaderSurvey.Proofs.Occurrences
import HeaderSurvey.Proofs.SnapshotDocuments

/-! The shape of the uses in a snapshot. A use has another one inside exactly if it is one of a
pointer or an array, and the size of an element exactly if it is one of an array, at all its levels
and whatever kind it was given by an override or an alias. So the levels of a use are pointers and
arrays down to the innermost one. -/
namespace HeaderSurvey

def Kind.isIndirect : Kind → Bool
  | .pointer | .array => true
  | _ => false

namespace TypeUse

variable {use level : TypeUse}

/-- `inner?` and `elementSize` of a use agree with its kind. -/
structure Shaped (use : TypeUse) : Prop where
  inner : use.inner?.isSome = use.kind.isIndirect
  element : use.layer.elementSize.isSome = decide (use.kind = .array)

theorem mem_levels_self (use : TypeUse) : use ∈ use.levels := by
  cases use <;> exact List.mem_cons_self

private theorem levels_subset (h : level ∈ use.levels) : level.levels ⊆ use.levels := by
  induction use with
  | leaf layer =>
    rw [List.mem_singleton.1 h]
    exact List.Subset.refl _
  | layered layer inner ih =>
    rcases List.mem_cons.1 h with rfl | hinner
    · exact List.Subset.refl _
    · exact List.subset_cons_of_subset _ (ih hinner)

private theorem innermost_isIndirect (h : ∀ level ∈ use.levels, level.Shaped) :
    use.innermost.kind.isIndirect = false := by
  induction use with
  | leaf layer => exact (h _ List.mem_cons_self).inner.symm
  | layered layer inner ih => exact ih fun level hlevel => h level (List.mem_cons_of_mem _ hlevel)

private theorem depth_eq_countP (h : ∀ level ∈ use.levels, level.Shaped) :
    use.depth = use.levels.countP fun level => level.kind.isIndirect := by
  induction use with
  | leaf layer =>
    have hlast : (leaf layer).kind.isIndirect = false := (h _ List.mem_cons_self).inner.symm
    simp [depth, levels, hlast]
  | layered layer inner ih =>
    have hfirst : (layered layer inner).kind.isIndirect = true :=
      (h _ List.mem_cons_self).inner.symm
    have hrest := ih fun level hlevel => h level (List.mem_cons_of_mem _ hlevel)
    rw [depth, levels, List.countP_cons, if_pos hfirst, hrest]

end TypeUse

namespace Context

variable {x : Context} {kind : Kind} {name : String} {t container : TypeId} {use : TypeUse}

private theorem isSome_innerId? (kind : Kind) (entry : TypeEntry) :
    (innerId? kind entry).isSome = kind.isIndirect := by
  cases kind <;> rfl

private theorem layerOf_elementSize {entry holder : TypeEntry} {layer : TypeLayer}
    (h : x.layerOf kind name entry holder = .ok layer) :
    layer.elementSize.isSome = decide (layer.kind = .array) := by
  unfold layerOf at h
  split at h
  · next hkind =>
    simp only [map_eq_pure_bind, bind_eq_ok_iff, pure_eq_ok_iff] at h
    obtain ⟨_, ⟨size, -, rfl⟩, declaration, -, location, -, rfl⟩ := h
    simp [hkind]
  · next hkind =>
    simp only [bind_eq_ok_iff, pure_eq_ok_iff] at h
    obtain ⟨_, rfl, declaration, -, location, -, rfl⟩ := h
    simp [hkind]

private theorem Describes.shaped (h : x.Describes kind name t container use) : use.Shaped := by
  cases h with
  | @leaf _ _ _ _ _ entry _ layer _ _ _ layer_eq last =>
    refine ⟨?_, layerOf_elementSize layer_eq⟩
    have hkind : (TypeUse.leaf layer).kind = kind := (layerOf_ok layer_eq).2
    rw [hkind, ← isSome_innerId? kind entry, last]
    rfl
  | @layered _ _ _ _ _ entry _ layer candidate _ _ _ inner _ _ _ layer_eq next =>
    refine ⟨?_, layerOf_elementSize layer_eq⟩
    have hkind : (TypeUse.layered layer inner).kind = kind := (layerOf_ok layer_eq).2
    rw [hkind, ← isSome_innerId? kind entry, next]
    rfl

theorem finish_variable_describes {node : VisitNode} {s s' : Session} {r : Node}
    (h : Returns (x.finish node) s r s') (hk : node.kind = .globalVariable) (huse : use ∈ r.uses) :
    ∃ kind name t container, x.Describes kind name t container use := by
  simp only [finish, hk, returns_bind, returns_modify, finishVariable, returns_lift,
    returns_pure] at h
  obtain ⟨_, _, -, ⟨kind, t⟩, _, -, typeName, _, -, use', _, ⟨hdescribed, -⟩, rfl, -⟩ := h
  obtain rfl := List.mem_singleton.1 huse
  exact ⟨kind, typeName, t, node.type, use_sound hdescribed⟩

end Context

private theorem NameMap.get?_of_mem {α : Type} {m : NameMap α} {e : String × α}
    (h : e ∈ m.entries) :
    m.get? e.1 = some e.2 := by
  obtain ⟨entries, hordered⟩ := m
  induction entries with
  | nil => cases h
  | cons first rest ih =>
    obtain ⟨hfirst, hrest⟩ := List.pairwise_cons.1 hordered
    rw [get?, lookup_cons]
    rcases List.mem_cons.1 h with rfl | hmem
    · rw [if_pos rfl]
    · have hne : e.1 ≠ first.1 := fun heq => String.lt_irrefl e.1 (heq ▸ hfirst e hmem)
      rw [if_neg hne]
      exact ih hrest hmem

theorem Snapshot.exists_find? {s : Snapshot} {n : Node} (h : n ∈ s.nodes) :
    ∃ name kind, s.find? name kind = some n := by
  have hall : ∀ n ∈ s.nodes, ∃ name kind, s.find? name kind = some n := by
    rw [forall_nodes]
    refine ⟨fun e he => ⟨e.1, .macroObject, ?_⟩, fun e he => ⟨e.1, .globalVariable, ?_⟩,
      fun e he => ⟨e.1, .function, ?_⟩, fun e he => ⟨e.1, .struct, ?_⟩,
      fun e he => ⟨e.1, .enum, ?_⟩,
      fun e he => ⟨e.1, .typeAlias, ?_⟩, fun e he => ⟨e.1, .opaqueType, ?_⟩,
      fun e he => ⟨e.1, .functionPointer, ?_⟩⟩
    all_goals
      rw [find?, NameMap.get?_of_mem he]
      rfl
  exact hall n h

/-- Each use in a snapshot `Describes` a type. -/
theorem Steady.exists_describes {x : Context} {file : String} {requested actual : Platform}
    {t : Session} {p : Progress} (h : Steady x (Assembly.start file requested actual) t [] p)
    {n : Node} (hn : n ∈ p.assembly.snapshot.nodes) {use : TypeUse} (huse : use ∈ n.uses) :
    ∃ kind name t container, x.Describes kind name t container use := by
  obtain ⟨name, kind, hfound⟩ := Snapshot.exists_find? hn
  by_cases hk : n.kind = .globalVariable
  · obtain ⟨node, hresult⟩ := h.mem_results hfound
    obtain ⟨s, s', hfinish⟩ := h.made _ hresult
    have hkind : node.kind = .globalVariable := (h.ledger.faithful _ hresult).1.symm.trans hk
    exact Context.finish_variable_describes hfinish hkind huse
  · obtain ⟨node, ⟨_, _, _, container, -, hdescribed⟩, -⟩ :=
      h.ledger.known use (h.mem_uses hfound hk huse)
    exact ⟨_, _, _, container, Context.use_sound hdescribed⟩

/-- In the snapshot of any unit, with whatever settings, a level of a use has an `inner?` exactly if
it is a pointer or an array, and an `elementSize` exactly if it is an array. So the innermost of its
`levels` is neither, and there are as many below it as there are pointers and arrays among them. -/
theorem surveyFor_shaped {rounds turns : Nat} {s : Settings} {u : TranslationUnit} {o : Outcome}
    (h : surveyFor rounds turns s u = .ok o) {n : Node} (hn : n ∈ o.snapshot.nodes) {use : TypeUse}
    (huse : use ∈ n.uses) {level : TypeUse} (hlevel : level ∈ use.levels) :
    (level.inner?.isSome = true ↔ level.kind = .pointer ∨ level.kind = .array) ∧
    (level.layer.elementSize.isSome = true ↔ level.kind = .array) ∧
    (level.innermost.kind ≠ .pointer ∧ level.innermost.kind ≠ .array) ∧
    level.depth = level.levels.countP fun inner => inner.kind = .pointer ∨ inner.kind = .array := by
  obtain ⟨x, start, p, hbegin, hrun, rfl⟩ := surveyFor_eq_ok h
  obtain ⟨requested, actual, -, -, -, rfl⟩ := beginSurvey_eq_ok hbegin
  obtain ⟨t, -, hsteady, -⟩ := Context.runFor_steady hrun
  obtain ⟨kind, name, t, container, hdescribed⟩ := hsteady.exists_describes hn huse
  have hshaped : ∀ inner ∈ level.levels, inner.Shaped := by
    intro inner hinner
    obtain ⟨t, container, hdescribed⟩ := hdescribed.level (TypeUse.levels_subset hlevel hinner)
    exact hdescribed.shaped
  have hindirect : ∀ kind : Kind, kind.isIndirect = decide (kind = .pointer ∨ kind = .array) := by
    intro kind
    cases kind <;> rfl
  have hself : level.Shaped := hshaped level level.mem_levels_self
  have hinnermost := TypeUse.innermost_isIndirect hshaped
  have hdepth := TypeUse.depth_eq_countP hshaped
  simp only [hindirect] at hinnermost hdepth
  refine ⟨?_, ?_, ?_, hdepth⟩
  · rw [hself.inner, hindirect, decide_eq_true_iff]
  · rw [hself.element, decide_eq_true_iff]
  · exact not_or.1 (of_decide_eq_false hinnermost)

/-- A function that takes a pointer and a table of pointers, and a variable of such a table. -/
def tablesUnit : TranslationUnit :=
  Builder.build "a.h" "x86_64-unknown-linux-gnu" 64
    [.primitive .int, .record .struct "Item" [("id", 1)], .pointer 2, .constantArray 3 4,
      .pointer 4, .globalVariable "table" 4 .external,
      .function "f" 1 [("item", 3), ("table", 5)] false]

/-- Pointers to items stay opaque where they are outermost. -/
def hiddenItems : Settings := { switches := { opaqueTypes := ["Item *"] } }

theorem surveyFor_tablesUnit_shaped :
    ∃ o f v hidden shown, surveyFor 8 2 hiddenItems tablesUnit = .ok o ∧
    Node.function f ∈ o.snapshot.nodes ∧ Node.globalVariable v ∈ o.snapshot.nodes ∧
    hidden ∈ (Node.function f).uses ∧ shown ∈ (Node.function f).uses ∧
    (hidden.kind = .opaqueType ∧ hidden.inner?.isSome = false) ∧
    (shown.levels.map (·.kind) = [.pointer, .array, .pointer, .struct] ∧ shown.depth = 3) ∧
    v.type.kind = .array ∧ v.type.layer.elementSize.isSome = true := by
  have hok : (surveyFor 8 2 hiddenItems tablesUnit).toOption.any (fun o =>
      o.snapshot.functions.entries.any fun f => o.snapshot.globals.entries.any fun v =>
        ((Node.function f.2).uses.any fun use => use.kind = .opaqueType) ∧
        ((Node.function f.2).uses.any fun use =>
          use.levels.map (·.kind) = [.pointer, .array, .pointer, .struct]) ∧
        v.2.type.kind = .array) = true := by
    decide +kernel
  obtain ⟨o, ho, hok⟩ := toOption_any_iff.1 hok
  simp only [List.any_eq_true, decide_eq_true_eq] at hok
  obtain ⟨f, hf, v, hv, ⟨hidden, hhidden, hkind⟩, ⟨shown, hshown, hlevels⟩, harray⟩ := hok
  have hf' : Node.function f.2 ∈ o.snapshot.nodes := by
    simp only [Snapshot.nodes, List.mem_append, List.mem_map]
    exact Or.inl (Or.inl (Or.inl (Or.inl (Or.inl (Or.inr ⟨f, hf, rfl⟩)))))
  have hv' : Node.globalVariable v.2 ∈ o.snapshot.nodes := by
    simp only [Snapshot.nodes, List.mem_append, List.mem_map]
    exact Or.inl (Or.inl (Or.inl (Or.inl (Or.inl (Or.inl (Or.inr ⟨v, hv, rfl⟩))))))
  obtain ⟨hinner, -⟩ := surveyFor_shaped ho hf' hhidden hidden.mem_levels_self
  obtain ⟨-, -, -, hdepth⟩ := surveyFor_shaped ho hf' hshown shown.mem_levels_self
  obtain ⟨-, helement, -⟩ := surveyFor_shaped ho hv' List.mem_cons_self v.2.type.mem_levels_self
  refine ⟨o, f.2, v.2, hidden, shown, ho, hf', hv', hhidden, hshown, ⟨hkind, ?_⟩,
    ⟨hlevels, ?_⟩, harray, helement.2 harray⟩
  · rw [← Bool.not_eq_true, hinner, hkind]
    decide
  · have hcount : (shown.levels.countP fun inner => inner.kind = .pointer ∨ inner.kind = .array) =
        (shown.levels.map (·.kind)).countP fun kind => kind = .pointer ∨ kind = .array := by
      rw [List.countP_map]
      rfl
    rw [hdepth, hcount, hlevels]
    rfl

end HeaderSurvey
