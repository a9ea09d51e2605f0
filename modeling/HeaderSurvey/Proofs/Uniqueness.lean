import HeaderSurvey.Proofs.Canonical
import HeaderSurvey.Proofs.Override

/-! How often a declaration is finished. Nodes count as the same by name. A record or an enumeration
with a name of its own goes by that name wherever it is met, and is finished once. One without is
named after the place of a reference to it, so it is finished once for each name that it gets
there. -/
namespace HeaderSurvey

def Kind.isDeclared (kind : Kind) : Bool := kind.isRecord || kind == .enum

theorem Kind.isType_of_isDeclared {kind : Kind} (h : kind.isDeclared = true) :
    kind.isType = true := by
  cases kind <;> first | rfl | cases h

private theorem Kind.isDeclared_of_covers {kind : Kind} {t : TypeKind} (hk : kind.isDeclared = true)
    (h : kind.covers t = true) : t.isDeclared = true := by
  cases kind with
  | struct | union | enum =>
    obtain rfl := of_decide_eq_true h
    rfl
  | macroObject | globalVariable | function | typeAlias | opaqueType | functionPointer | pointer
  | array | primitive => cases hk

namespace Context

variable {x : Context} {node node' : VisitNode} {N : String → String → Bool → Prop}

theorem typeName_ne_empty {kind : Kind} {t : TypeId} {parent : Option String} {index : Nat}
    {name : String} (hk : kind.isType = true) (h : x.typeName kind t parent index = .ok name) :
    name ≠ "" := by
  have hm : ¬ (kind = .macroObject ∨ kind = .function) := by
    rintro (rfl | rfl) <;> cases hk
  simp only [typeName, if_neg hm, bind_eq_ok_iff] at h
  obtain ⟨entry, -, declaration, -, h⟩ := h
  split at h
  · split at h
    · cases h
    · cases h
      exact Marker.name_ne_empty _ _ _
  · simp only [bind_eq_ok_iff] at h
    obtain ⟨spelled, -, h⟩ := h
    split at h
    · next hspelled =>
      cases h
      exact hspelled
    · split at h
      · cases h
        simp
      · cases h

/-- `node` stands for the type `entry` that its `cursor` declares, under the name that the type has
at that `place`. -/
structure Embodies (x : Context) (N : String → String → Bool → Prop) (node : VisitNode)
    (cursor : Cursor) (entry : TypeEntry) (place : Option String × Nat) : Prop where
  owns : x.unit.Owns N node.cursor cursor entry
  type_eq : node.type = cursor.type
  sort : entry.kind.isDeclared = true
  named : x.typeName node.kind node.type place.1 place.2 = .ok node.typeName

/-- Wherever a record or an enumeration is `Discovered`, it `Embodies` the type of its
declaration. -/
theorem Discovered.embodies (h : x.Discovered node) (hu : x.unit.Paired N)
    (hall : x.unit.DeclaresAll) (hk : node.kind.isDeclared = true) :
    ∃ cursor entry place, x.Embodies N node cursor entry place := by
  rcases h with ⟨-, candidate, parent, index, container, h⟩ | htop
  · obtain ⟨referrer, g, ⟨-, rfl⟩ | ⟨-, rfl, -⟩⟩ := (resolve_sound h).sighting
    · cases hk
    · rw [g.node_kind] at hk
      have hsort := Kind.isDeclared_of_covers hk g.covered
      obtain ⟨cursor, howns, htype⟩ := hu.owns_declared hall g.classifies g.entry_eq hsort
      -- Only function pointers are renamed.
      have hmade : g.node = g.made := by
        rcases g.node_cases with hmade | ⟨r, name, location, hpointer, -⟩
        · exact hmade
        · rw [hpointer] at hk
          cases hk
      refine ⟨cursor, g.entry, (parent, index), g.node_cursor ▸ howns, g.node_type.trans htype,
        hsort, ?_⟩
      rw [g.node_kind, g.node_type, hmade]
      exact (visitNode_ok g.made_eq).2.2.2.2.1
  · have henum := htop.kind_enum (Kind.category_types (Kind.isType_of_isDeclared hk))
    obtain ⟨root, id, c, kind, t, -, -, hc, -, hkind, -, ht, hnode⟩ := htop
    obtain ⟨rfl, rfl, rfl, -, hname, -⟩ := visitNode_ok hnode
    obtain ⟨hself, entry, howns, hsort⟩ :=
      topLevelType_enum hu hc (kind_of_topLevelKind? (henum ▸ hkind)) ht
    exact ⟨c, entry, (none, 0), howns, hself, by rw [hsort]; rfl, hname⟩

theorem Embodies.type_of_cursor {cursor cursor' : Cursor} {entry entry' : TypeEntry}
    {place place' : Option String × Nat} (h : x.Embodies N node cursor entry place)
    (h' : x.Embodies N node' cursor' entry' place') (hc : node.cursor = node'.cursor) :
    node'.type = node.type ∧ x.unit.typeAt node.type = .ok entry := by
  cases (hc ▸ h.owns.cursor_eq).symm.trans h'.owns.cursor_eq
  exact ⟨h'.type_eq.trans h.type_eq.symm, h.type_eq ▸ h.owns.type_eq⟩

theorem Embodies.key_eq {cursor : Cursor} {entry : TypeEntry} {place : Option String × Nat}
    (h : x.Embodies N node cursor entry place) (hk : node.kind.isDeclared = true) :
    node.key = node.typeName := by
  have htype := Kind.isType_of_isDeclared hk
  simp [VisitNode.key, htype, typeName_ne_empty htype h.named]

theorem Embodies.typeName_of_hasName {cursor : Cursor} {entry : TypeEntry}
    {place : Option String × Nat} (h : x.Embodies N node cursor entry place)
    (hk : node.kind.isDeclared = true) (hname : x.unit.HasName entry) :
    node.typeName = stripTags entry.spelling := by
  refine Context.typeName_of_hasName hname (h.type_eq ▸ h.owns.type_eq) ?_ ?_
    (TypeKind.isArray_of_isDeclared h.sort) h.named
  · intro hm
    rw [hm] at hk
    cases hk
  · intro hf
    rw [hf] at hk
    cases hk

/-- Two nodes for one type without a name of its own, under the names that `typeName` gives it in
two places. -/
structure NamedApart (x : Context) (node node' : VisitNode) : Prop where
  type_eq : node'.type = node.type
  nameless : ∀ entry, x.unit.typeAt node.type = .ok entry → ¬ x.unit.HasName entry
  places : ∃ place place' : Option String × Nat, place ≠ place' ∧
    x.typeName node.kind node.type place.1 place.2 = .ok node.typeName ∧
    x.typeName node'.kind node'.type place'.1 place'.2 = .ok node'.typeName

theorem typeName_congr {kind kind' : Kind} (hk : kind.isType = true) (hk' : kind'.isType = true)
    (t : TypeId) (parent : Option String) (index : Nat) :
    x.typeName kind t parent index = x.typeName kind' t parent index := by
  have hne : ∀ {k : Kind}, k.isType = true → ¬ (k = .macroObject ∨ k = .function) := by
    rintro k hk (rfl | rfl) <;> cases hk
  simp only [typeName, if_neg (hne hk), if_neg (hne hk')]

/-- Two `Discovered` nodes for one declaration with different keys are `NamedApart`. -/
theorem Discovered.namedApart (h : x.Discovered node) (h' : x.Discovered node')
    (hu : x.unit.Paired N) (hall : x.unit.DeclaresAll) (hk : node.kind.isDeclared = true)
    (hk' : node'.kind.isDeclared = true) (hkey : node.key ≠ node'.key) :
    node.typeName ≠ node'.typeName ∧ (node.cursor = node'.cursor → x.NamedApart node node') := by
  obtain ⟨cursor, entry, place, hnode⟩ := h.embodies hu hall hk
  obtain ⟨cursor', entry', place', hnode'⟩ := h'.embodies hu hall hk'
  rw [hnode.key_eq hk, hnode'.key_eq hk'] at hkey
  refine ⟨hkey, fun hc => ?_⟩
  obtain ⟨htype, hentry⟩ := hnode.type_of_cursor hnode' hc
  have hentry' : x.unit.typeAt node.type = .ok entry' := by
    rw [← htype]
    exact (hnode'.type_of_cursor hnode hc.symm).2
  cases hentry.symm.trans hentry'
  refine ⟨htype, ?_, place, place', ?_, hnode.named, hnode'.named⟩
  · intro _ hentry'' hname
    cases hentry.symm.trans hentry''
    exact hkey ((hnode.typeName_of_hasName hk hname).trans
      (hnode'.typeName_of_hasName hk' hname).symm)
  · rintro rfl
    have hnamed := hnode'.named
    rw [htype, typeName_congr (Kind.isType_of_isDeclared hk') (Kind.isType_of_isDeclared hk),
      hnode.named]
      at hnamed
    exact hkey (Except.ok.inj hnamed)

end Context

/-- The finished records and enumerations, with the nodes they were made from. -/
def Session.declared (s : Session) : List (VisitNode × Node) :=
  s.results.filter (·.2.kind.isDeclared)

theorem Ledger.declared_pairwise {x : Context} {s : Session} (h : Ledger x [] [] s)
    (hempty : ∀ c, (s.frontier c).queue = []) :
    s.declared.Pairwise fun e e' => e.1.key ≠ e'.1.key := by
  have hkind : s.declared = s.results.filter (·.1.kind.isDeclared) :=
    List.filter_congr fun e he => by rw [(h.faithful e he).1]
  have hsub : (s.declared.map (·.1)).Sublist (s.handledIn .types) := by
    rw [hkind, Session.handledIn, h.finished, List.append_nil, List.filter_map]
    refine (List.monotone_filter_right _ fun e hk => ?_).map _
    exact decide_eq_true (Kind.category_types (Kind.isType_of_isDeclared hk))
  have hdistinct := ((h.settled hempty).distinct .types).sublist (hsub.map VisitNode.key)
  rw [List.map_map] at hdistinct
  exact List.pairwise_map.1 hdistinct

/-- The records and enumerations in `Session.declared` at the end of a survey of any unit that
`build` makes, under whatever names and settings. They have different `typeName`s, so a declaration
with a name of its own is finished at most once; nodes for one declaration without a name are
`NamedApart`, by the places of the references to it. -/
theorem surveyFor_finishes_once {rounds turns : Nat} {file triple : String} {pointerBits : Nat}
    {steps : List Builder.Step} {s : Settings} {o : Outcome}
    (h : surveyFor rounds turns s (Builder.build file triple pointerBits steps) = .ok o) :
    ∃ x start p, beginSurvey s (Builder.build file triple pointerBits steps) = .ok (x, start) ∧
      Returns (x.runFor rounds turns) start () p ∧ p.session.declared.Pairwise fun e e' =>
        e.1.typeName ≠ e'.1.typeName ∧ (e.1.cursor = e'.1.cursor → x.NamedApart e.1 e'.1) := by
  obtain ⟨x, start, p, hbegin, hrun, rfl⟩ := surveyFor_eq_ok h
  obtain ⟨requested, actual, -, -, hx, rfl⟩ := beginSurvey_eq_ok hbegin
  obtain ⟨t, -, hsteady, hempty⟩ := Context.runFor_steady hrun
  have hu : x.unit.Paired fun _ _ _ => True := by
    rw [hx]
    exact Builder.build_paired_any file triple pointerBits steps
  have hall : x.unit.DeclaresAll := by
    rw [hx]
    exact Builder.build_declaresAll file triple pointerBits steps
  refine ⟨x, _, p, hbegin, hrun, ?_⟩
  have hfound : ∀ e ∈ p.session.declared, x.Discovered e.1 ∧ e.1.kind.isDeclared = true := by
    intro e he
    obtain ⟨hresult, hk⟩ := List.mem_filter.1 he
    obtain ⟨hkind, -⟩ := hsteady.ledger.faithful e hresult
    exact ⟨hsteady.ledger.found _ (hsteady.mem_offers_of_result hresult), hkind ▸ hk⟩
  refine (hsteady.ledger.declared_pairwise hempty).imp_of_mem fun {e e'} he he' hkey => ?_
  obtain ⟨hdiscovered, hk⟩ := hfound e he
  obtain ⟨hdiscovered', hk'⟩ := hfound e' he'
  exact hdiscovered.namedApart hdiscovered' hu hall hk hk' hkey

/-- A structure with two fields of one structure that has no name. -/
def pairUnit : TranslationUnit :=
  Builder.build "a.h" "x86_64-unknown-linux-gnu" 64
    [.primitive .int, .unnamedStruct [("x", 1)], .record .struct "P" [("a", 2), ("b", 2)],
      .function "f" 1 [("p", 3)] false]

/-- The anonymous struct of `pairUnit` is finished under the names of both fields. -/
theorem pairUnit_declared : ∃ o x start p, surveyFor 8 2 {} pairUnit = .ok o ∧
    beginSurvey {} pairUnit = .ok (x, start) ∧ Returns (x.runFor 8 2) start () p ∧
    p.session.declared.map (fun e => (e.1.typeName, e.1.cursor)) =
      [("P", 4), ("P_UNNAMED_FIELD0", 2), ("P_UNNAMED_FIELD1", 2)] := by
  have hok : (surveyFor 8 2 {} pairUnit).toOption.any (fun _ => true) = true := by decide +kernel
  have hnames : (beginSurvey {} pairUnit).toOption.any (fun begun =>
      (begun.1.runFor 8 2 begun.2).2.session.declared.map (fun e => (e.1.typeName, e.1.cursor)) =
        [("P", 4), ("P_UNNAMED_FIELD0", 2), ("P_UNNAMED_FIELD1", 2)]) = true := by
    decide +kernel
  obtain ⟨o, ho, -⟩ := toOption_any_iff.1 hok
  obtain ⟨x, start, p, hbegin, hrun, -⟩ := surveyFor_eq_ok ho
  rw [hbegin] at hnames
  simp only [Except.toOption, Option.any_some, decide_eq_true_eq] at hnames
  rw [show (x.runFor 8 2 start).2 = p from congrArg Prod.snd hrun] at hnames
  exact ⟨o, x, start, p, ho, hbegin, hrun, hnames⟩

theorem surveyFor_pairUnit_finishes_twice : ∃ o x start p, surveyFor 8 2 {} pairUnit = .ok o ∧
    beginSurvey {} pairUnit = .ok (x, start) ∧ Returns (x.runFor 8 2) start () p ∧
    ¬ p.session.declared.Pairwise fun e e' => e.1.cursor ≠ e'.1.cursor := by
  obtain ⟨o, x, start, p, ho, hbegin, hrun, hnames⟩ := pairUnit_declared
  refine ⟨o, x, start, p, ho, hbegin, hrun, fun h => ?_⟩
  have hcursors : (p.session.declared.map fun e => (e.1.typeName, e.1.cursor)).Pairwise
      (·.2 ≠ ·.2) :=
    List.pairwise_map.2 h
  rw [hnames] at hcursors
  revert hcursors
  decide

theorem surveyFor_pairUnit_finishes_once : ∃ o x start p e e', surveyFor 8 2 {} pairUnit = .ok o ∧
    beginSurvey {} pairUnit = .ok (x, start) ∧ Returns (x.runFor 8 2) start () p ∧
    [e, e'].Sublist p.session.declared ∧
    e.1.cursor = e'.1.cursor ∧ e.1.typeName = "P_UNNAMED_FIELD0" ∧
    e'.1.typeName = "P_UNNAMED_FIELD1" ∧
    x.NamedApart e.1 e'.1 := by
  obtain ⟨o, x, start, p, ho, hbegin, hrun, hnames⟩ := pairUnit_declared
  obtain ⟨x', start', p', hbegin', hrun', hpairwise⟩ := surveyFor_finishes_once ho
  cases hbegin.symm.trans hbegin'
  cases hrun.symm.trans hrun'
  obtain ⟨_, _, hlist, -, hnames⟩ := List.map_eq_cons_iff.1 hnames
  obtain ⟨e, _, rfl, hname, hnames⟩ := List.map_eq_cons_iff.1 hnames
  obtain ⟨e', _, rfl, hname', hnames⟩ := List.map_eq_cons_iff.1 hnames
  obtain ⟨hname, hcursor⟩ := Prod.mk.inj hname
  obtain ⟨hname', hcursor'⟩ := Prod.mk.inj hname'
  rw [List.map_eq_nil_iff.1 hnames] at hlist
  rw [hlist] at hpairwise
  obtain ⟨-, happart⟩ := List.rel_of_pairwise_cons (List.pairwise_cons.1 hpairwise).2
    List.mem_cons_self
  have hc := hcursor.trans hcursor'.symm
  refine ⟨o, x, start, p, e, e', ho, hbegin, hrun, ?_, hc, hname, hname', happart hc⟩
  rw [hlist]
  exact List.sublist_cons_self _ _

end HeaderSurvey
