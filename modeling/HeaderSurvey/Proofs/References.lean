import HeaderSurvey.Proofs.Canonical
import HeaderSurvey.Proofs.Override

/-! Looking up the types that a snapshot refers to. A name can be looked up exactly if what was
accepted under it is no pointer, array or primitive. The outermost name in a use has always been
offered. The names inside are only spelled out, so that of an alias which gave way to the type it
stands for may be missing. -/
namespace HeaderSurvey

namespace Context

variable {x : Context} {node : VisitNode}

private theorem acceptsTypeWithin_true (hsystem : x.switches.systemDeclarations = true)
    {layers : Nat} {c : Cursor} {entry : TypeEntry} {b : Bool}
    (h : x.acceptsTypeWithin layers c entry = .ok b) : b = true := by
  have hcursor : ∀ c, x.acceptsCursor c = true := by simp [acceptsCursor, hsystem]
  induction layers generalizing c entry with
  | zero => cases h
  | succ layers ih =>
    unfold acceptsTypeWithin at h
    dsimp only at h
    split at h
    · cases h
      exact hcursor c
    · simp only [bind_eq_ok_iff] at h
      obtain ⟨inner, -, declaration, -, h⟩ := h
      split at h
      · exact (pure_eq_ok_iff.1 h).symm
      · exact ih h

theorem accepts_true (hsystem : x.switches.systemDeclarations = true) {b : Bool}
    (h : x.accepts node = .ok b) : b = true := by
  simp only [accepts, bind_eq_ok_iff] at h
  obtain ⟨cursor, -, h⟩ := h
  split at h
  · simp only [bind_eq_ok_iff] at h
    obtain ⟨entry, -, h⟩ := h
    exact acceptsTypeWithin_true hsystem h
  · rw [← pure_eq_ok_iff.1 h]
    simp [acceptsCursor, hsystem]

end Context

theorem Register.exists_accepted {x : Context} {s : Session} {key : String} (h : Register x s)
    (hsystem : x.switches.systemDeclarations = true) (hkey : key ∈ (s.frontier .types).visited) :
    ∃ node ∈ s.accepted .types, node.key = key := by
  obtain ⟨v, n, hv, hverdicts⟩ := h.decided .types key rfl hkey
  have hmem : v ∈ s.verdicts .types key := by
    rw [hverdicts]
    exact List.mem_cons_self
  obtain ⟨⟨node, _⟩, hoffer, rfl⟩ := List.mem_map.1 hmem
  obtain ⟨hoffer, hnode⟩ := List.mem_filter.1 hoffer
  obtain ⟨hc, hk⟩ := of_decide_eq_true hnode
  refine ⟨node, List.mem_map.2 ⟨_, List.mem_filter.2 ⟨hoffer, ?_⟩, rfl⟩, hk⟩
  rcases hv with haccepted | hfiltered
  · exact decide_eq_true ⟨hc, haccepted⟩
  · have hfalse := Context.accepts_true hsystem ((h.judged _ hoffer).2 hfiltered)
    cases hfalse

/-- With `systemDeclarations`, the outermost name in a use is the `key` of an `accepted` node. -/
theorem Ledger.exists_accepted_of_use {x : Context} {pending current : List VisitNode} {s : Session}
    (h : Ledger x pending current s) (hu : x.unit.Consistent)
    (hsystem : x.switches.systemDeclarations = true) {use : TypeUse} (huse : use ∈ s.uses)
    (hk : use.kind ≠ .function) : ∃ node ∈ s.accepted .types, node.key = use.name := by
  obtain ⟨node, hpictured, hknown⟩ := h.known use huse
  obtain ⟨hname, hkind⟩ := hpictured.name_kind
  rw [hkind] at hk
  have hkey := Context.key_of_name_eq ((hpictured.referenced hk).name_eq hu)
  rw [hname, ← hkey]
  exact h.exists_accepted hsystem (hknown hk)

namespace Context

variable {x : Context} {node : VisitNode}

theorem Discovered.unwrapAttributed (h : x.Discovered node) {entry : TypeEntry}
    {candidate t : TypeId} (hinner : innerId? node.kind entry = some candidate)
    (ht : x.unit.unwrapAttributed node.type = .ok t) : t = node.type := by
  have hcovered : ∃ own, x.unit.typeAt node.type = .ok own ∧ node.kind.covers own.kind = true := by
    rcases h with ⟨-, origin, parent, index, container, h⟩ | htop
    · rcases (resolve_sound h).covered with hmasked | hcovered
      · rw [hmasked] at hinner
        cases hinner
      · exact hcovered
    · obtain ⟨root, id, c, kind, t, -, -, -, -, htop, -, -, hnode⟩ := htop
      obtain ⟨rfl, -⟩ := visitNode_ok hnode
      rcases topLevelKind?_cases htop with hk | hk | hk | hk <;> rw [hk] at hinner <;> cases hinner
  obtain ⟨own, hown, hcovers⟩ := hcovered
  have hwrapper : own.kind ≠ .attributed := by
    intro hattributed
    rw [hattributed, Kind.covers_attributed] at hcovers
    cases hcovers
  simp only [TranslationUnit.unwrapAttributed, bind_eq_ok_iff, pure_eq_ok_iff] at ht
  obtain ⟨_, hown', rfl⟩ := ht
  cases hown.symm.trans hown'
  rw [if_neg hwrapper]

theorem visit_resolves {candidate : TypeId} {parent : Option String} {index : Nat} {use : TypeUse}
    {s t : Session} (h : Returns (x.visit candidate parent index) s use t) :
    ∃ node container, x.resolve candidate parent index = .ok (node, container) ∧
      x.use node.kind node.typeName node.type container = .ok use := by
  simp only [visit, returns_bind, returns_lift] at h
  obtain ⟨⟨node, container⟩, _, ⟨hresolve, rfl⟩, h⟩ := h
  refine ⟨node, container, hresolve, ?_⟩
  split at h
  all_goals
    simp only [returns_bind, returns_lift, returns_modify, returns_pure] at h
  · obtain ⟨verdict, _, -, use', _, ⟨huse, -⟩, _, _, -, rfl, -⟩ := h
    exact huse
  · obtain ⟨use', _, ⟨huse, -⟩, _, _, -, rfl, -⟩ := h
    exact huse

/-- `finish` of a pointer or an array takes its `use` from what `innerId?` is resolved to. -/
theorem finish_holder {entry : TypeEntry} {candidate : TypeId} {s t : Session} {r : Node}
    (hentry : x.unit.typeAt node.type = .ok entry)
    (hinner : innerId? node.kind entry = some candidate) (h : Returns (x.finish node) s r t) :
    ∃ use inner container, x.resolve candidate (some node.name) 0 = .ok (inner, container) ∧
      x.use inner.kind inner.typeName inner.type container = .ok use ∧ r.uses = [use] := by
  simp only [finish, returns_bind, returns_modify] at h
  obtain ⟨_, _, -, h⟩ := h
  cases hk : node.kind with
  | pointer =>
    simp only [hk, finishPointer, returns_bind, returns_lift, returns_pure, hentry,
      Except.ok.injEq] at h
    obtain ⟨_, _, ⟨rfl, rfl⟩, use, s', hvisit, rfl, rfl⟩ := h
    cases hk ▸ hinner
    obtain ⟨inner, container, hresolve, huse⟩ := visit_resolves hvisit
    exact ⟨use, inner, container, hresolve, huse, rfl⟩
  | array =>
    simp only [hk, finishArray, returns_bind, returns_lift, returns_pure, hentry,
      Except.ok.injEq] at h
    obtain ⟨_, _, ⟨rfl, rfl⟩, use, s', hvisit, rfl, rfl⟩ := h
    cases hk ▸ hinner
    obtain ⟨inner, container, hresolve, huse⟩ := visit_resolves hvisit
    exact ⟨use, inner, container, hresolve, huse, rfl⟩
  | macroObject | globalVariable | function | struct | union | enum | typeAlias | opaqueType
  | functionPointer | primitive =>
    rw [hk] at hinner
    cases hinner

/-- What the pointer or array `holder` leads to has no name of its own, or is an alias that gives
way to a record or an enumeration. -/
def PassesOver (x : Context) (holder : VisitNode) : Prop :=
  ∃ entry candidate kind t target, x.unit.typeAt holder.type = .ok entry ∧
    innerId? holder.kind entry = some candidate ∧ x.unit.classify candidate = .ok (kind, t) ∧
    x.unit.typeAt t = .ok target ∧
    (¬ x.unit.HasName target ∨ kind = .typeAlias ∧ ∃ declaration underlying r,
      x.unit.declarationOf target = .ok declaration ∧
      x.unit.classify declaration.underlyingId = .ok (underlying, r) ∧
      underlying.isFlattened = true ∧ underlying ≠ .functionPointer)

theorem Sighting.kind_of_classify {N : String → String → Bool → Prop} {parent : Option String}
    {index : Nat} {candidate r : TypeId} {referrer : Option TypeId} {kind : Kind}
    (g : x.Sighting parent index r referrer) (hu : x.unit.Paired N)
    (hclass : x.unit.classify candidate = .ok (kind, r)) : g.kind = kind :=
  (Prod.mk.inj (Except.ok.inj (g.classified.symm.trans (hu.classify_self hclass)))).1

/-- `resolve` gives a node under the name of the type that a reference is classified as, unless that
is an alias that gives way to its target. -/
theorem typeName_of_resolve (hu : x.unit.Consistent) {candidate t container : TypeId} {kind : Kind}
    {target : TypeEntry} {parent : Option String} {index : Nat}
    (hclass : x.unit.classify candidate = .ok (kind, t)) (htarget : x.unit.typeAt t = .ok target)
    (hk : kind.isShelved = true) (hname : x.unit.HasName target)
    (hkept : ∀ declaration underlying r, kind = .typeAlias → x.unit.declarationOf target = .ok
      declaration → x.unit.classify declaration.underlyingId = .ok (underlying, r) →
        underlying.isFlattened = true → underlying = .functionPointer)
    (h : x.resolve candidate parent index = .ok (node, container)) :
    node.typeName = stripTags target.spelling ∧ node.kind ≠ .function := by
  have hshelved : ∀ {k : Kind}, k.isShelved = true → k ≠ .function := by
    rintro k hk rfl
    cases hk
  cases resolve_sound h with
  | overridden g asked =>
    cases hclass.symm.trans g.classified
    cases htarget.symm.trans g.entry_eq
    exact ⟨by rw [g.node_eq_made, g.made_typeName hk hname], by simp⟩
  | plain g asked kept =>
    cases hclass.symm.trans g.classified
    cases htarget.symm.trans g.entry_eq
    exact ⟨by rw [g.node_eq_made, g.made_typeName hk hname], g.node_kind ▸ hshelved hk⟩
  | flattened g asked named underlying flat rest =>
    cases hclass.symm.trans g.classified
    cases htarget.symm.trans g.entry_eq
    obtain rfl := hkept g.declaration _ _ named g.declaration_eq underlying flat
    have hkind : ∀ g' : x.Sighting parent index _ (some g.type), g'.kind = .functionPointer :=
      fun g' => g'.kind_of_classify hu underlying
    -- The function pointer behind the alias stands for itself, so the way ends there.
    cases rest with
    | overridden g' asked => exact ⟨g'.typeName_of_referrer (hkind g') g.entry_eq, by simp⟩
    | plain g' asked kept =>
      refine ⟨g'.typeName_of_referrer (hkind g') g.entry_eq, ?_⟩
      rw [g'.node_kind, hkind g']
      decide
    | flattened g' asked named => cases (hkind g').symm.trans named

end Context

/-- What can be looked up in the `snapshot` of a survey, by the nodes that were `accepted`. -/
structure Session.Closed (s : Session) (x : Context) (snapshot : Snapshot) : Prop where
  /-- At whatever level of a use it stands, a name can be looked up exactly if it was accepted for a
  type that has a place in the snapshot. -/
  findable : ∀ name, snapshot.containsType name = true ↔
    ∃ node ∈ s.accepted .types, node.key = name ∧ node.kind.isShelved = true
  /-- The outermost name of each use was accepted. -/
  outermost : ∀ name kind declaration, snapshot.find? name kind = some declaration →
    declaration.kind ≠ .globalVariable → ∀ use ∈ declaration.uses, use.kind ≠ .function →
    ∃ node ∈ s.accepted .types, node.key = use.name ∧
      (snapshot.containsType use.name = true ↔ node.kind.isShelved = true)
  /-- Each level of each use describes a type. -/
  described : ∀ name kind declaration, snapshot.find? name kind = some declaration →
    declaration.kind ≠ .globalVariable → ∀ use ∈ declaration.uses, ∀ level ∈ use.levels,
    ∃ t container, x.Describes level.kind level.name t container level
  /-- Below a level that describes an accepted pointer or array, the next name was accepted as well,
  unless the survey passes over the type there. -/
  inside : ∀ holder ∈ s.accepted .types, ∀ name container level inner,
    x.Describes holder.kind name holder.type container level → level.inner? = some inner →
    inner.kind.isShelved = true → x.PassesOver holder ∨
      ∃ node ∈ s.accepted .types, node.key = inner.name ∧
        (snapshot.containsType inner.name = true ↔ node.kind.isShelved = true)

namespace Steady

variable {x : Context} {file : String} {requested actual : Platform} {t : Session} {p : Progress}

theorem containsType_iff (h : Steady x (Assembly.start file requested actual) t [] p)
    (hu : x.unit.Consistent) (hempty : ∀ c, (p.session.frontier c).queue = []) (name : String) :
    p.assembly.snapshot.containsType name = true ↔
      ∃ node ∈ p.session.accepted .types, node.key = name ∧ node.kind.isShelved = true := by
  rw [Snapshot.containsType_iff]
  constructor
  · rintro ⟨kind, hk, hfound⟩
    obtain ⟨⟨node, r⟩, he, hfits⟩ := h.find?_isSome_iff.1 hfound
    obtain ⟨-, hshelf, rfl⟩ := Assembly.fits_iff.1 hfits
    obtain ⟨hkind, hname, -⟩ := h.ledger.faithful _ he
    have hshelved : node.kind.isShelved = true := by
      rw [← hkind, ← Kind.isShelved_shelf, hshelf, Kind.isShelved_shelf, hk]
    have hcategory : node.category = .types :=
      Kind.category_types (Kind.isType_of_isShelved hshelved)
    have hoffer := h.mem_offers_of_result he
    have hkey := (h.ledger.found _ hoffer).name_eq_key hu hcategory
    refine ⟨node, ?_, hkey.symm.trans hname.symm, hshelved⟩
    exact List.mem_map.2 ⟨_, List.mem_filter.2 ⟨hoffer, by simp [hcategory]⟩, rfl⟩
  · rintro ⟨node, hnode, rfl, hk⟩
    obtain ⟨hoffer, hcategory⟩ := Ledger.mem_accepted hnode
    rw [← (h.ledger.found _ hoffer).name_eq_key hu hcategory]
    exact ⟨node.kind, hk, h.find?_of_accepted hempty hoffer hk⟩

theorem containsType_key (h : Steady x (Assembly.start file requested actual) t [] p)
    (hu : x.unit.Consistent) (hempty : ∀ c, (p.session.frontier c).queue = []) {node : VisitNode}
    (hnode : node ∈ p.session.accepted .types) :
    p.assembly.snapshot.containsType node.key = true ↔ node.kind.isShelved = true := by
  rw [h.containsType_iff hu hempty]
  constructor
  · rintro ⟨node', hnode', hkey, hk⟩
    rwa [List.inj_on_of_nodup_map (h.ledger.distinct .types) hnode' hnode hkey] at hk
  · exact fun hk => ⟨node, hnode, rfl, hk⟩

theorem mem_uses (h : Steady x (Assembly.start file requested actual) t [] p) {name : String}
    {kind : Kind} {declaration : Node}
    (hfound : p.assembly.snapshot.find? name kind = some declaration)
    (hk : declaration.kind ≠ .globalVariable) {use : TypeUse} (huse : use ∈ declaration.uses) :
    use ∈ p.session.uses := by
  obtain ⟨node, hresult⟩ := h.mem_results hfound
  obtain ⟨-, -, hused⟩ := h.ledger.faithful _ hresult
  exact hused hk use huse

/-- A finished pointer or array has followed its `innerId?`, so the name of the type there has been
`accepted`, unless that is an alias that gives way to its target. -/
theorem exists_accepted_inside (h : Steady x (Assembly.start file requested actual) t [] p)
    (hu : x.unit.Consistent) (hempty : ∀ c, (p.session.frontier c).queue = [])
    (hsystem : x.switches.systemDeclarations = true) {holder : VisitNode}
    (hholder : holder ∈ p.session.accepted .types) {entry target : TypeEntry} {candidate r : TypeId}
    {kind : Kind} (hentry : x.unit.typeAt holder.type = .ok entry)
    (hinner : Context.innerId? holder.kind entry = some candidate)
    (hclass : x.unit.classify candidate = .ok (kind, r)) (htarget : x.unit.typeAt r = .ok target)
    (hk : kind.isShelved = true) (hover : ¬ x.PassesOver holder) :
    ∃ node ∈ p.session.accepted .types, node.key = stripTags target.spelling := by
  have hname : x.unit.HasName target := by
    by_contra hnameless
    exact hover ⟨entry, candidate, kind, r, target, hentry, hinner, hclass, htarget,
      Or.inl hnameless⟩
  obtain ⟨hoffer, -⟩ := Ledger.mem_accepted hholder
  obtain ⟨-, result, hresult⟩ := (h.ledger.settled hempty).once holder hoffer
  obtain ⟨s₁, s₂, hfinish⟩ := h.made _ hresult
  obtain ⟨use, inner, container, hresolve, huse, huses⟩ :=
    Context.finish_holder hentry hinner hfinish
  have hkept : ∀ declaration underlying r', kind = .typeAlias →
      x.unit.declarationOf target = .ok declaration →
      x.unit.classify declaration.underlyingId = .ok (underlying, r') →
      underlying.isFlattened = true →
      underlying = .functionPointer := by
    intro declaration underlying r' halias hdecl hunderlying hflat
    by_contra hne
    exact hover ⟨entry, candidate, kind, r, target, hentry, hinner, hclass, htarget,
      Or.inr ⟨halias, declaration, underlying, r', hdecl, hunderlying, hflat, hne⟩⟩
  obtain ⟨htypeName, hfunction⟩ :=
    Context.typeName_of_resolve hu hclass htarget hk hname hkept hresolve
  obtain ⟨husename, husekind⟩ := (Context.use_sound huse).name_kind
  obtain ⟨hkind, -, hused⟩ := h.ledger.faithful _ hresult
  have hvariable : result.kind ≠ .globalVariable := by
    rw [hkind]
    rintro hvariable
    rw [hvariable] at hinner
    cases hinner
  have hmem : use ∈ p.session.uses := hused hvariable use (by simp [huses])
  obtain ⟨node, hnode, hkey⟩ :=
    h.ledger.exists_accepted_of_use hu hsystem hmem (husekind ▸ hfunction)
  exact ⟨node, hnode, by rw [hkey, husename, htypeName]⟩

theorem closed (h : Steady x (Assembly.start file requested actual) t [] p) (hu : x.unit.Consistent)
    (hempty : ∀ c, (p.session.frontier c).queue = [])
    (hsystem : x.switches.systemDeclarations = true) :
    p.session.Closed x p.assembly.snapshot := by
  refine ⟨h.containsType_iff hu hempty, ?_, ?_, ?_⟩
  · intro name kind declaration hfound hk use huse hfunction
    obtain ⟨node, hnode, hkey⟩ :=
      h.ledger.exists_accepted_of_use hu hsystem (h.mem_uses hfound hk huse) hfunction
    exact ⟨node, hnode, hkey, hkey ▸ h.containsType_key hu hempty hnode⟩
  · intro name kind declaration hfound hk use huse level hlevel
    obtain ⟨node, ⟨_, _, _, _, -, hpictured⟩, -⟩ := h.ledger.known use (h.mem_uses hfound hk huse)
    exact (Context.use_sound hpictured).level hlevel
  · intro holder hholder name container use inner hdescribes hinner hk
    cases hdescribes with
    | leaf => cases hinner
    | layered unwrapped entry_eq holder_eq layer_eq next classified target_eq rest =>
      cases hinner
      have hdiscovered := h.ledger.found _ (Ledger.mem_accepted hholder).1
      obtain rfl := hdiscovered.unwrapAttributed next unwrapped
      obtain ⟨hname, hkind⟩ := rest.name_kind
      rw [hkind] at hk
      by_cases hover : x.PassesOver holder
      · exact Or.inl hover
      · obtain ⟨node, hnode, hkey⟩ :=
          h.exists_accepted_inside hu hempty hsystem hholder entry_eq next
          classified target_eq hk hover
        rw [hname, ← hkey]
        exact Or.inr ⟨node, hnode, rfl, h.containsType_key hu hempty hnode⟩

end Steady

/-- The references of a snapshot, for a unit that `build` makes of types with `isPlainName` names
and a survey with `systemDeclarations`. Each outermost name in a use has been `accepted`, and so has
each name inside a use unless the type there has no name of its own or is an alias of a record or an
enumeration. -/
theorem surveyFor_references {rounds turns : Nat} {file triple : String} {pointerBits : Nat}
    {steps : List Builder.Step} {s : Settings} {o : Outcome}
    (hnames : ∀ step ∈ steps, ∀ name ∈ step.typeName?, isPlainName name = true)
    (hsystem : s.switches.systemDeclarations = true)
    (h : surveyFor rounds turns s (Builder.build file triple pointerBits steps) = .ok o) :
    ∃ x start p, beginSurvey s (Builder.build file triple pointerBits steps) = .ok (x, start) ∧
      Returns (x.runFor rounds turns) start () p ∧ p.session.Closed x o.snapshot := by
  obtain ⟨x, start, p, hbegin, hrun, rfl⟩ := surveyFor_eq_ok h
  obtain ⟨requested, actual, -, -, hx, rfl⟩ := beginSurvey_eq_ok hbegin
  obtain ⟨t, -, hsteady, hempty⟩ := Context.runFor_steady hrun
  have hu : x.unit.Consistent := by
    rw [hx]
    exact Builder.build_consistent file triple pointerBits hnames
  exact ⟨x, _, p, hbegin, hrun, hsteady.closed hu hempty (by rw [hx]; exact hsystem)⟩

def handleName : String := "Foo"

/-- A function with a pointer to an alias of a record. -/
def handleSteps : List Builder.Step :=
  [.primitive .int, .record .struct "Bar" [("x", 1)], .typedef handleName 2, .pointer 3,
    .function "f" 1 [("p", 4)] false]

def handleUnit : TranslationUnit := Builder.build "a.h" "x86_64-unknown-linux-gnu" 64 handleSteps

def systemSettings : Settings := { switches := { systemDeclarations := true } }

theorem surveyFor_handleUnit_references : ∃ o, surveyFor 8 2 systemSettings handleUnit = .ok o ∧
    systemSettings.switches.systemDeclarations = true ∧
    (∀ step ∈ handleSteps, ∀ name ∈ step.typeName?, isPlainName name = true) ∧
    (o.snapshot.functions.get? "f").map (fun f => f.parameters.map fun parameter =>
      parameter.type.levels.map fun level => (level.kind, level.name)) =
        some [[(.pointer, "Foo *"), (.typeAlias, "Foo")]] ∧
    o.snapshot.containsType "Bar" = true ∧ o.snapshot.containsType "Foo" = false ∧
    ∃ x start p, beginSurvey systemSettings handleUnit = .ok (x, start) ∧
      Returns (x.runFor 8 2) start () p ∧
      p.session.Closed x o.snapshot := by
  have hok : (surveyFor 8 2 systemSettings handleUnit).toOption.any (fun o =>
      (o.snapshot.functions.get? "f").map (fun f => f.parameters.map fun parameter =>
        parameter.type.levels.map fun level => (level.kind, level.name)) =
          some [[(.pointer, "Foo *"), (.typeAlias, "Foo")]] ∧
      o.snapshot.containsType "Bar" = true ∧ o.snapshot.containsType "Foo" = false) = true := by
    decide +kernel
  have hnames : ∀ step ∈ handleSteps, ∀ name ∈ step.typeName?, isPlainName name = true := by
    decide +kernel
  obtain ⟨o, ho, hok⟩ := toOption_any_iff.1 hok
  obtain ⟨hlevels, hbar, hfoo⟩ := of_decide_eq_true hok
  exact ⟨o, ho, rfl, hnames, hlevels, hbar, hfoo, surveyFor_references hnames rfl ho⟩

end HeaderSurvey
