import HeaderSurvey.Proofs.References

/-! Chains of typedefs. A typedef of a record, an enumeration or a function pointer gives way to
that type, and is never an alias of its own. Only one step is taken at a time, though: the typedef
before it in a chain is still an alias when it is offered, and its underlying type has given way by
the time it is finished. So exactly the last typedef but one of such a chain holds a use of the type
at the end. -/
namespace HeaderSurvey

/-- `TypedefChain n c kind`: the cursor `c` declares a typedef with `n` typedefs after it, the last
of which is another name for a type of that `kind`. Wrappers on the way do not count. -/
inductive TranslationUnit.TypedefChain (u : TranslationUnit) : Nat → Cursor → Kind → Prop where
  | last {c kind r} (classified : u.classify c.underlyingId = .ok (kind, r))
      (other : kind ≠ .typeAlias) :
      TypedefChain u 0 c kind
  | link {c t entry next n kind} (classified : u.classify c.underlyingId = .ok (.typeAlias, t))
      (entry_eq : u.typeAt t = .ok entry) (next_eq : u.declarationOf entry = .ok next)
      (rest : TypedefChain u n next kind) : TypedefChain u (n + 1) c kind

/-- The kind of the use in an alias that starts a `TypedefChain n c kind`. -/
def Kind.recorded : Nat → Kind → Kind
  | 0, kind => kind
  | 1, kind => if kind.isFlattened then kind else .typeAlias
  | _ + 2, _ => .typeAlias

private theorem Kind.ne_typeAlias_of_isFlattened {kind : Kind} (h : kind.isFlattened = true) :
    kind ≠ .typeAlias := by
  rintro rfl
  cases h

namespace Context

variable {x : Context} {parent : Option String} {index : Nat} {declaration : Cursor}
  {N : String → String → Bool → Prop} {target : VisitNode} {container : TypeId}

theorem Resolves.kind_of_flattened (hu : x.unit.Paired N) {candidate r : TypeId} {kind : Kind}
    {referrer : Option TypeId} (hclass : x.unit.classify candidate = .ok (kind, r))
    (hflat : kind.isFlattened = true) (h : x.Resolves parent index r referrer target container) :
    target.kind = if x.isOverridden target then .opaqueType else kind := by
  cases h with
  | overridden g asked => exact (if_pos asked).symm
  | plain g asked kept =>
    rw [if_neg (Bool.eq_false_iff.1 asked), g.node_kind, g.kind_of_classify hu hclass]
  | flattened g asked named =>
    rw [g.kind_of_classify hu hclass] at named
    exact absurd named (Kind.ne_typeAlias_of_isFlattened hflat)

/-- What the `underlyingId` of a typedef `Resolves` to, by its place in the `TypedefChain`. -/
theorem Resolves.kind_of_chain (hu : x.unit.Paired N) {n : Nat} {kind : Kind}
    (hchain : x.unit.TypedefChain n declaration kind)
    (h : x.Resolves parent index declaration.underlyingId none target container) :
    target.kind = if x.isOverridden target then .opaqueType else Kind.recorded n kind := by
  cases h with
  | overridden g asked => exact (if_pos asked).symm
  | plain g asked kept =>
    rw [if_neg (Bool.eq_false_iff.1 asked), g.node_kind]
    cases hchain with
    | last classified other =>
      cases classified.symm.trans g.classified
      rfl
    | link classified entry_eq next_eq rest =>
      obtain ⟨hkind, htype⟩ := Prod.mk.inj (Except.ok.inj (classified.symm.trans g.classified))
      obtain ⟨kind', r, hunderlying, hflat⟩ := kept hkind.symm
      rw [htype, g.entry_eq] at entry_eq
      cases entry_eq
      cases next_eq.symm.trans g.declaration_eq
      rw [← hkind]
      -- The next typedef keeps its own name as well, so the end is further away or is no type to
      -- give way to.
      cases rest with
      | last classified' other =>
        cases classified'.symm.trans hunderlying
        simp [Kind.recorded, hflat]
      | link => rfl
  | flattened g asked named underlying flat rest =>
    cases hchain with
    | last classified other =>
      cases classified.symm.trans g.classified
      exact absurd named other
    | link classified entry_eq next_eq rest' =>
      obtain ⟨-, htype⟩ := Prod.mk.inj (Except.ok.inj (classified.symm.trans g.classified))
      rw [htype, g.entry_eq] at entry_eq
      cases entry_eq
      cases next_eq.symm.trans g.declaration_eq
      cases rest' with
      | last classified' other =>
        cases classified'.symm.trans underlying
        rw [rest.kind_of_flattened hu underlying flat]
        simp [Kind.recorded, flat]
      | link classified' =>
        cases classified'.symm.trans underlying
        cases flat

/-- If an alias `Resolves` to a kind that `isFlattened`, its `TypedefChain` has exactly one typedef
more. -/
theorem Resolves.chain_of_flattened {kind : Kind} {r : TypeId}
    (hclass : x.unit.classify declaration.underlyingId = .ok (kind, r))
    (hkept : kind.isFlattened = false) (hflat : target.kind.isFlattened = true)
    (h : x.Resolves parent index declaration.underlyingId none target container) :
    ∃ kind, x.unit.TypedefChain 1 declaration kind ∧ kind.isFlattened = true := by
  cases h with
  | overridden g asked => cases hflat
  | plain g asked kept =>
    cases hclass.symm.trans g.classified
    rw [g.node_kind, hkept] at hflat
    cases hflat
  | @flattened _ _ kind' r' _ _ g asked named underlying flat rest =>
    have hlast : x.unit.TypedefChain 0 g.declaration kind' :=
      .last underlying (Kind.ne_typeAlias_of_isFlattened flat)
    exact ⟨kind', .link (named ▸ g.classified) g.entry_eq g.declaration_eq hlast, flat⟩

/-- `finish` of an alias takes its `use` from what the underlying type is resolved to. -/
theorem finish_alias {node : VisitNode} {s t : Session} {r : Node} (hk : node.kind = .typeAlias)
    (hu : x.Unflattened node) (h : Returns (x.finish node) s r t) :
    ∃ declaration kind resolved target container use,
      x.unit.cursorAt node.cursor = .ok declaration ∧
      x.unit.classify declaration.underlyingId = .ok (kind, resolved) ∧ kind.isFlattened = false ∧
      x.resolve declaration.underlyingId (some node.name) 0 = .ok (target, container) ∧
      x.use target.kind target.typeName target.type container = .ok use ∧ r.uses = [use] := by
  obtain ⟨declaration, kind, resolved, hdecl, hclass, hflat⟩ := hu hk
  simp only [finish, hk, finishAlias, returns_bind, returns_modify, returns_lift, hdecl,
    Except.ok.injEq] at h
  obtain ⟨_, _, -, _, _, ⟨rfl, -⟩, ⟨_, _⟩, _, ⟨hclass', -⟩, h⟩ := h
  cases hclass.symm.trans hclass'
  simp only [hflat, Bool.false_eq_true, if_false, returns_bind, returns_pure] at h
  obtain ⟨use, _, hvisit, rfl, -⟩ := h
  obtain ⟨target, container, hresolve, huse⟩ := visit_resolves hvisit
  exact ⟨declaration, kind, resolved, target, container, use, hdecl, hclass, hflat, hresolve,
    huse, rfl⟩

end Context

/-- The `typeAliases` in the snapshot of any unit that `build` makes, under whatever names and
settings. Unless the target `isOverridden`, the use in an alias is of the kind that `Kind.recorded`
gives for its place in the `TypedefChain`. It is of a kind that `isFlattened` exactly if one more
typedef stands between the alias and such a type; a typedef with none between is no alias. -/
theorem surveyFor_alias_kinds {rounds turns : Nat} {file triple : String} {pointerBits : Nat}
    {steps : List Builder.Step} {s : Settings} {o : Outcome} {name : String} {a : TypeAlias}
    (h : surveyFor rounds turns s (Builder.build file triple pointerBits steps) = .ok o)
    (ha : o.snapshot.typeAliases.get? name = some a) :
    ∃ x start p node declaration target,
      beginSurvey s (Builder.build file triple pointerBits steps) = .ok (x, start) ∧
      Returns (x.runFor rounds turns) start () p ∧ (node, .typeAlias a) ∈ p.session.results ∧
      x.unit.cursorAt node.cursor = .ok declaration ∧ x.Pictures target a.underlying ∧
      (a.underlying.kind.isFlattened = true ↔ x.isOverridden target = false ∧
        ∃ kind, x.unit.TypedefChain 1 declaration kind ∧ kind.isFlattened = true) ∧
      ∀ n kind, x.unit.TypedefChain n declaration kind → (n = 0 → kind.isFlattened = false) ∧
        a.underlying.kind = if x.isOverridden target then .opaqueType
          else Kind.recorded n kind := by
  obtain ⟨x, start, p, hbegin, hrun, rfl⟩ := surveyFor_eq_ok h
  obtain ⟨requested, actual, -, -, hx, rfl⟩ := beginSurvey_eq_ok hbegin
  obtain ⟨t, -, hsteady, -⟩ := Context.runFor_steady hrun
  have hu : x.unit.Paired fun _ _ _ => True := by
    rw [hx]
    exact Builder.build_paired_any file triple pointerBits steps
  have hfound : p.assembly.snapshot.find? name .typeAlias = some (.typeAlias a) :=
    congrArg (Option.map Node.typeAlias) ha
  obtain ⟨node, hresult⟩ := hsteady.mem_results hfound
  obtain ⟨hkind, -⟩ := hsteady.ledger.faithful _ hresult
  have hdiscovered := hsteady.ledger.found _ (hsteady.mem_offers_of_result hresult)
  obtain ⟨s₁, s₂, hfinish⟩ := hsteady.made _ hresult
  obtain ⟨declaration, kind, r, target, container, use, hdecl, hclass, hkept, hresolve,
      huse, huses⟩ :=
    Context.finish_alias hkind.symm hdiscovered.unflattened hfinish
  obtain rfl : a.underlying = use := List.singleton_inj.1 huses
  have hpictured : x.Pictures target a.underlying :=
    ⟨declaration.underlyingId, some node.name, 0, container, hresolve, huse⟩
  obtain ⟨-, husekind⟩ := hpictured.name_kind
  have hresolves := Context.resolve_sound hresolve
  refine ⟨x, _, p, node, declaration, target, hbegin, hrun, hresult, hdecl, hpictured, ?_, ?_⟩
  · rw [husekind]
    constructor
    · intro hflat
      obtain ⟨kind', hchain, hflat'⟩ := hresolves.chain_of_flattened hclass hkept hflat
      refine ⟨?_, kind', hchain, hflat'⟩
      by_contra hasked
      rw [hresolves.kind_of_chain hu hchain, if_pos (Bool.not_eq_false _ ▸ hasked)] at hflat
      cases hflat
    · rintro ⟨hasked, kind', hchain, hflat'⟩
      rw [hresolves.kind_of_chain hu hchain, if_neg (Bool.eq_false_iff.1 hasked)]
      simp [Kind.recorded, hflat']
  · intro n kind' hchain
    refine ⟨?_, husekind.trans (hresolves.kind_of_chain hu hchain)⟩
    rintro rfl
    cases hchain with
    | last classified other =>
      cases hclass.symm.trans classified
      exact hkept

def synonym (name : String) (type : TypeId) : Builder.Step := .typedef name type

/-- A structure behind three typedefs, of which one is qualified. -/
def renamedSteps : List Builder.Step :=
  [.primitive .int, .record .struct "S" [("x", 1)], synonym "A" 2, .constQualified 3, synonym "B" 4,
    synonym "C" 5, .function "f" 1 [("p", 6)] false]

def renamedUnit : TranslationUnit := Builder.build "a.h" "x86_64-unknown-linux-gnu" 64 renamedSteps

theorem surveyFor_renamedUnit_alias_kinds : ∃ o a, surveyFor 8 2 {} renamedUnit = .ok o ∧
    o.snapshot.typeAliases.get? "B" = some a ∧ a.underlying.kind = .struct ∧
    ∃ x start declaration kind, beginSurvey {} renamedUnit = .ok (x, start) ∧
      declaration ∈ x.unit.cursors ∧ x.unit.TypedefChain 1 declaration kind ∧
      kind.isFlattened = true := by
  have hok : (surveyFor 8 2 {} renamedUnit).toOption.any (fun o =>
      (o.snapshot.typeAliases.get? "B").any fun a => a.underlying.kind = .struct) = true := by
    decide +kernel
  obtain ⟨o, ho, hok⟩ := toOption_any_iff.1 hok
  obtain ⟨a, ha, hkind⟩ := (Option.any_eq_true _ _).1 hok
  have hkind := of_decide_eq_true hkind
  obtain ⟨x, start, _, _, declaration, target, hbegin, -, -, hcursor, -, hflat, -⟩ :=
    surveyFor_alias_kinds ho ha
  obtain ⟨-, kind, hchain, hflattened⟩ := hflat.1 (by rw [hkind]; rfl)
  have hmem := Array.mem_of_getElem? (TranslationUnit.cursorAt_eq_ok.1 hcursor)
  exact ⟨o, a, ho, ha, hkind, x, start, declaration, kind, hbegin, hmem, hchain, hflattened⟩

end HeaderSurvey
