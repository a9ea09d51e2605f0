import HeaderSurvey.Proofs.Ownership
import HeaderSurvey.Proofs.Override

/-! A survey that leaves system headers out. Each node is judged by one declaration: its own, or
that of the type that a pointer or an array leads to. What is accepted goes by the name of a
declaration outside of system headers, with one exception: a function pointer that was reached
through an alias has the name of the alias, and is judged by what it points to, wherever the alias
stands. -/
namespace HeaderSurvey

/-- The type by which `accepts` judges a pointer or an array. -/
def TypeEntry.target? (entry : TypeEntry) : Option TypeId :=
  if entry.kind = .pointer then some entry.pointeeId
  else if entry.kind.isArray then some entry.elementId
  else none

theorem TypeEntry.target?_eq_none {entry : TypeEntry} (h : entry.kind.isDeclarable = true) :
    entry.target? = none := by
  unfold target?
  obtain hk | hk | hk | hk := of_decide_eq_true h <;> rw [hk] <;> rfl

namespace TranslationUnit

variable {u : TranslationUnit} {N : String → String → Bool → Prop}

/-- The cursor `c` stands in a system header. -/
def InSystemHeader (u : TranslationUnit) (c : CursorId) : Prop :=
  ∃ cursor, u.cursorAt c = .ok cursor ∧ cursor.position.inSystemHeader = true

theorem inSystemHeader_iff {c : CursorId} {cursor : Cursor} (hc : u.cursorAt c = .ok cursor) :
    u.InSystemHeader c ↔ cursor.position.inSystemHeader = true := by
  simp [InSystemHeader, hc]

theorem Paired.not_inSystemHeader (h : u.Paired N) {entry : TypeEntry}
    (hnone : entry.declaration = none) :
    ¬ u.InSystemHeader entry.declarationId := by
  obtain ⟨cursor, hcursor, hfixed⟩ := h.undeclared hnone
  have hposition := congrArg Cursor.position hfixed
  rw [inSystemHeader_iff hcursor, show cursor.position = _ from hposition]
  decide

end TranslationUnit

namespace Context

variable {x : Context} {node : VisitNode} {parent : Option String} {index : Nat}
  {N : String → String → Bool → Prop}

/-! ## The declaration by which a node is judged -/

/-- `accepts` decides on `node` by this declaration. -/
inductive JudgedBy (x : Context) (node : VisitNode) : CursorId → Prop where
  | own (last : node.category = .types →
        ∃ entry, x.unit.typeAt node.type = .ok entry ∧ entry.target? = none) :
      JudgedBy x node node.cursor
  | target {entry t inner} (types : node.category = .types)
      (entry_eq : x.unit.typeAt node.type = .ok entry) (next : entry.target? = some t)
      (inner_eq : x.unit.typeAt t = .ok inner) :
      JudgedBy x node inner.declarationId

private theorem judgedBy_own_iff (last : node.category = .types →
      ∃ entry, x.unit.typeAt node.type = .ok entry ∧ entry.target? = none) {c : CursorId} :
    x.JudgedBy node c ↔ c = node.cursor := by
  constructor
  · rintro (_ | ⟨types, entry_eq, next, -⟩)
    · rfl
    · obtain ⟨entry, hentry, hlast⟩ := last types
      cases hentry.symm.trans entry_eq
      cases hlast.symm.trans next
  · rintro rfl
    exact .own last

private theorem judgedBy_target_iff {entry inner : TypeEntry} {t : TypeId}
    (types : node.category = .types) (hentry : x.unit.typeAt node.type = .ok entry)
    (hnext : entry.target? = some t) (hinner : x.unit.typeAt t = .ok inner) {c : CursorId} :
    x.JudgedBy node c ↔ c = inner.declarationId := by
  constructor
  · rintro (⟨last⟩ | ⟨-, entry_eq, next, inner_eq⟩)
    · obtain ⟨_, entry_eq, hlast⟩ := last types
      cases hentry.symm.trans entry_eq
      cases hnext.symm.trans hlast
    · cases hentry.symm.trans entry_eq
      cases hnext.symm.trans next
      cases hinner.symm.trans inner_eq
      rfl
  · rintro rfl
    exact .target types hentry hnext hinner

theorem acceptsCursor_iff (hsystem : x.switches.systemDeclarations = false) {c : CursorId}
    {cursor : Cursor} (hc : x.unit.cursorAt c = .ok cursor) :
    x.acceptsCursor cursor = true ↔ ¬ x.unit.InSystemHeader c := by
  simp [acceptsCursor, hsystem, TranslationUnit.inSystemHeader_iff hc]

theorem acceptsTypeWithin_last {layers : Nat} {c : Cursor} {entry : TypeEntry}
    (h : entry.target? = none) :
    x.acceptsTypeWithin (layers + 1) c entry = .ok (x.acceptsCursor c) := by
  unfold acceptsTypeWithin
  unfold TypeEntry.target? at h
  simp only [h]

/-- One step along `target?` decides: a type with a declaration is neither a pointer nor an
array. -/
theorem acceptsTypeWithin_target (hu : x.unit.Paired N)
    (hsystem : x.switches.systemDeclarations = false) {layers : Nat} {c : Cursor}
    {entry inner : TypeEntry} {t : TypeId} {b : Bool} (hnext : entry.target? = some t)
    (hinner : x.unit.typeAt t = .ok inner) (h : x.acceptsTypeWithin (layers + 2) c entry = .ok b) :
    b = true ↔ ¬ x.unit.InSystemHeader inner.declarationId := by
  unfold acceptsTypeWithin at h
  unfold TypeEntry.target? at hnext
  simp only [hnext, bind_eq_ok_iff, hinner, Except.ok.injEq] at h
  obtain ⟨_, rfl, declaration, hdecl, h⟩ := h
  cases hd : inner.declaration with
  | none =>
    obtain ⟨cursor, hcursor, hfixed⟩ := hu.undeclared hd
    cases hcursor.symm.trans hdecl
    rw [if_pos (show declaration.kind = .noDeclFound from congrArg Cursor.kind hfixed),
      pure_eq_ok_iff] at h
    simp [← h, hu.not_inSystemHeader hd]
  | some d =>
    obtain ⟨hkind, cursor, own, howns⟩ := hu.owner hinner hd
    cases (howns.declarationOf hd).symm.trans hdecl
    rw [if_neg howns.kind_ne, acceptsTypeWithin_last (TypeEntry.target?_eq_none hkind)] at h
    rw [← Except.ok.inj h]
    exact acceptsCursor_iff hsystem hdecl

/-- `accepts` looks at the declaration in `JudgedBy`, and at nothing else. -/
theorem JudgedBy.accepts_iff {c : CursorId} (hj : x.JudgedBy node c) (hu : x.unit.Paired N)
    (hsystem : x.switches.systemDeclarations = false) {b : Bool} (h : x.accepts node = .ok b) :
    b = true ↔ ¬ x.unit.InSystemHeader c := by
  simp only [accepts, bind_eq_ok_iff] at h
  obtain ⟨cursor, hcursor, h⟩ := h
  cases hj with
  | own last =>
    split at h
    · next htypes =>
      obtain ⟨entry, hentry, hlast⟩ := last htypes
      simp only [hentry, bind_eq_ok_iff, Except.ok.injEq] at h
      obtain ⟨_, rfl, h⟩ := h
      rw [acceptsTypeWithin_last hlast] at h
      rw [← Except.ok.inj h]
      exact acceptsCursor_iff hsystem hcursor
    · rw [← pure_eq_ok_iff.1 h]
      exact acceptsCursor_iff hsystem hcursor
  | target types entry_eq next inner_eq =>
    rw [show Category.ofKind node.kind = .types from types] at h
    simp only [bind_eq_ok_iff, entry_eq, Except.ok.injEq] at h
    obtain ⟨_, rfl, h⟩ := h
    exact acceptsTypeWithin_target hu hsystem next inner_eq h

/-- A node that `accepts` has an answer for is `JudgedBy` exactly one declaration. -/
theorem exists_judgedBy {b : Bool} (h : x.accepts node = .ok b) :
    ∃ c, ∀ c', x.JudgedBy node c' ↔ c' = c := by
  by_cases htypes : node.category = .types
  · simp only [accepts, htypes, bind_eq_ok_iff] at h
    obtain ⟨_, -, entry, hentry, h⟩ := h
    cases htarget : entry.target? with
    | none => exact ⟨node.cursor, fun _ => judgedBy_own_iff fun _ => ⟨entry, hentry, htarget⟩⟩
    | some t =>
      unfold acceptsTypeWithin at h
      unfold TypeEntry.target? at htarget
      simp only [htarget, bind_eq_ok_iff] at h
      obtain ⟨inner, hinner, -⟩ := h
      exact ⟨inner.declarationId, fun _ => judgedBy_target_iff htypes hentry htarget hinner⟩
  · exact ⟨node.cursor, fun _ => judgedBy_own_iff fun h => absurd h htypes⟩

/-! ## The declaration whose name a node carries -/

/-- `node` is what the reference shows, as it is or made opaque. -/
def Sighting.Shows {candidate : TypeId} {referrer : Option TypeId}
    (g : x.Sighting parent index candidate referrer) (node : VisitNode) : Prop :=
  node = g.node ∨ node = { g.node with kind := .opaqueType }

/-- `Leads x parent index candidate referrer node last`: the reference leads to `node`, which has a
name of its own, or that of the alias `last` on the way. -/
inductive Leads (x : Context) (parent : Option String) (index : Nat) :
    TypeId → Option TypeId → VisitNode → Option TypeId → Prop where
  | own {candidate referrer node} (g : x.Sighting parent index candidate referrer)
      (shown : g.Shows node) (unnamed : g.kind = .functionPointer → referrer = none) :
      Leads x parent index candidate referrer node none
  | renamed {candidate r node} (g : x.Sighting parent index candidate (some r))
      (shown : g.Shows node) (pointer : g.kind = .functionPointer) :
      Leads x parent index candidate (some r) node (some r)
  | flattened {candidate referrer kind r node last} (g : x.Sighting parent index candidate referrer)
      (named : g.kind = .typeAlias)
      (underlying : x.unit.classify g.declaration.underlyingId = .ok (kind, r))
      (rest : Leads x parent index r (some g.type) node last) :
      Leads x parent index candidate referrer node last

theorem Sighting.leads {candidate : TypeId} {referrer : Option TypeId}
    (g : x.Sighting parent index candidate referrer) (shown : g.Shows node) :
    ∃ last, x.Leads parent index candidate referrer node last := by
  by_cases hk : g.kind = .functionPointer
  · cases referrer with
    | none => exact ⟨none, .own g shown fun _ => rfl⟩
    | some r => exact ⟨some r, .renamed g shown hk⟩
  · exact ⟨none, .own g shown fun h => absurd h hk⟩

theorem Resolves.leads {candidate container : TypeId} {referrer : Option TypeId}
    (h : x.Resolves parent index candidate referrer node container) :
    ∃ last, x.Leads parent index candidate referrer node last := by
  induction h with
  | overridden g asked => exact g.leads (Or.inr rfl)
  | plain g asked kept => exact g.leads (Or.inl rfl)
  | flattened g asked named underlying flat rest ih =>
    obtain ⟨last, hlast⟩ := ih
    exact ⟨last, .flattened g named underlying hlast⟩

/-- The node has the name of an alias, whose type is `r`. -/
def HasAlias (x : Context) (node : VisitNode) (r : TypeId) : Prop :=
  ∃ candidate parent index, x.Leads parent index candidate none node (some r)

/-- `node` has the name of this declaration. -/
inductive GoesBy (x : Context) (node : VisitNode) : CursorId → Prop where
  | topLevel (found : x.TopLevel node) : GoesBy x node node.cursor
  | own {candidate parent index} (found : x.Leads parent index candidate none node none) :
      GoesBy x node node.cursor
  | renamed {r entry} (found : x.HasAlias node r) (entry_eq : x.unit.typeAt r = .ok entry) :
      GoesBy x node entry.declarationId

theorem Leads.sighting {candidate : TypeId} {referrer last : Option TypeId}
    (h : x.Leads parent index candidate referrer node last) :
    ∃ candidate' referrer', ∃ g : x.Sighting parent index candidate' referrer', g.Shows node ∧
      ∀ r ∈ last, g.kind = .functionPointer ∧ referrer' = some r := by
  induction h with
  | own g shown => exact ⟨_, _, g, shown, by simp⟩
  | renamed g shown pointer =>
    refine ⟨_, _, g, shown, ?_⟩
    rintro _ ⟨⟩
    exact ⟨pointer, rfl⟩
  | flattened g named underlying rest ih => exact ih

theorem Leads.last_typedef {candidate : TypeId} {referrer last : Option TypeId}
    (h : x.Leads parent index candidate referrer node last)
    (hreferrer : ∀ r ∈ referrer, ∃ entry, x.unit.typeAt r = .ok entry ∧ entry.kind = .typedef) :
    ∀ r ∈ last, ∃ entry, x.unit.typeAt r = .ok entry ∧ entry.kind = .typedef := by
  induction h with
  | own => simp
  | renamed => exact hreferrer
  | flattened g named underlying rest ih =>
    refine ih ?_
    rintro _ ⟨⟩
    have hcovered := g.covered
    rw [named] at hcovered
    exact ⟨g.entry, g.entry_eq, of_decide_eq_true hcovered⟩

theorem HasAlias.name_eq {r : TypeId} (h : x.HasAlias node r) :
    ∃ entry, x.unit.typeAt r = .ok entry ∧ entry.kind = .typedef ∧
      node.name = stripTags entry.spelling := by
  obtain ⟨candidate, parent, index, hleads⟩ := h
  obtain ⟨entry, hentry, hkind⟩ := hleads.last_typedef (by simp) r rfl
  obtain ⟨_, _, g, shown, hlast⟩ := hleads.sighting
  obtain ⟨hk, rfl⟩ := hlast r rfl
  obtain ⟨_, hentry', hname, -⟩ := g.named_of_referrer hk
  cases hentry.symm.trans hentry'
  refine ⟨entry, hentry, hkind, ?_⟩
  rcases shown with rfl | rfl
  · exact hname
  · exact hname

private theorem Discovered.goesBy (h : x.Discovered node) : ∃ c, x.GoesBy node c := by
  rcases h with ⟨-, candidate, parent, index, container, h⟩ | htop
  · obtain ⟨last, hleads⟩ := (resolve_sound h).leads
    cases last with
    | none => exact ⟨_, .own hleads⟩
    | some r =>
      have halias : x.HasAlias node r := ⟨candidate, parent, index, hleads⟩
      obtain ⟨entry, hentry, -⟩ := halias.name_eq
      exact ⟨_, .renamed halias hentry⟩
  · exact ⟨_, .topLevel htop⟩

/-! ## The two compared -/

theorem Sighting.Shows.cursor {candidate : TypeId} {referrer : Option TypeId}
    {g : x.Sighting parent index candidate referrer} (h : g.Shows node) :
    node.cursor = g.entry.declarationId ∧ node.type = g.type := by
  rcases h with rfl | rfl
  · exact ⟨g.node_cursor, g.node_type⟩
  · exact ⟨g.node_cursor, g.node_type⟩

/-- A `Discovered` node is `JudgedBy` its own cursor, or that is in no system header. -/
theorem Discovered.own_judges (hu : x.unit.Paired N) (h : x.Discovered node) :
    x.JudgedBy node node.cursor ∨ ¬ x.unit.InSystemHeader node.cursor := by
  rcases h with ⟨-, candidate, parent, index, container, h⟩ | htop
  · obtain ⟨last, hleads⟩ := (resolve_sound h).leads
    obtain ⟨_, _, g, shown, -⟩ := hleads.sighting
    obtain ⟨hcursor, htype⟩ := shown.cursor
    rcases hu.classified_own g.classifies g.entry_eq with hnone | ⟨c, cursor, howns⟩
    · rw [hcursor]
      exact Or.inr (hu.not_inSystemHeader hnone)
    · refine Or.inl (.own fun _ => ⟨g.entry, htype ▸ g.entry_eq, ?_⟩)
      exact TypeEntry.target?_eq_none (CursorKind.isDeclarable_of_declares? howns.sort)
  · refine Or.inl (.own fun hc => ?_)
    have henum := htop.kind_enum hc
    obtain ⟨root, id, c, kind, t, -, -, hcursor, -, hkind, -, htype, hnode⟩ := htop
    obtain ⟨rfl, -, rfl, -⟩ := visitNode_ok hnode
    rw [henum] at hkind
    obtain ⟨hself, entry, howns, -⟩ :=
      topLevelType_enum hu hcursor (kind_of_topLevelKind? hkind) htype
    rw [hself]
    exact ⟨entry, howns.type_eq,
      TypeEntry.target?_eq_none (CursorKind.isDeclarable_of_declares? howns.sort)⟩

/-- A function pointer that `HasAlias` is `JudgedBy` the declaration of what it points to. -/
theorem HasAlias.judgedBy_iff {r : TypeId} (h : x.HasAlias node r) :
    ∃ entry inner, x.unit.typeAt node.type = .ok entry ∧ entry.kind = .pointer ∧
      x.unit.typeAt entry.pointeeId = .ok inner ∧ ∀ c, x.JudgedBy node c ↔
      c = inner.declarationId := by
  obtain ⟨candidate, parent, index, hleads⟩ := h
  obtain ⟨_, _, g, shown, hlast⟩ := hleads.sighting
  obtain ⟨hk, -⟩ := hlast r rfl
  have hclass := g.classifies
  rw [hk] at hclass
  obtain ⟨entry, hentry, hpointer, hfunction⟩ := hclass.pointsToFunction
  simp only [TranslationUnit.pointsToFunction, TranslationUnit.unwrapAttributed,
    bind_eq_ok_iff] at hfunction
  obtain ⟨_, ⟨inner, hinner, -⟩, -⟩ := hfunction
  rw [← shown.cursor.2] at hentry
  have hnext : entry.target? = some entry.pointeeId := by simp [TypeEntry.target?, hpointer]
  have htypes : node.category = .types := by
    rcases shown with rfl | rfl
    · rw [VisitNode.category, g.node_kind, hk]
      rfl
    · rfl
  exact ⟨entry, inner, hentry, hpointer, hinner,
    fun _ => judgedBy_target_iff htypes hentry hnext hinner⟩

end Context

/-- What a survey without `systemDeclarations` lets through. -/
structure Session.Screened (s : Session) (x : Context) (snapshot : Snapshot) : Prop where
  /-- Whatever can be looked up was accepted, and goes by a declaration that is not in a system
  header, or by an alias. -/
  entries : ∀ name kind declaration, snapshot.find? name kind = some declaration →
    ∃ node, (node, .accepted) ∈ s.offers ∧ (node, declaration) ∈ s.results ∧ node.name = name ∧
      (∃ c, x.GoesBy node c) ∧ ∀ c, x.GoesBy node c → x.unit.InSystemHeader c →
        ∃ r entry, x.HasAlias node r ∧ x.unit.typeAt r = .ok entry ∧ c = entry.declarationId
  /-- Of the nodes on which the gate decides, each is judged by one declaration, and accepted
  exactly if that is not in a system header. -/
  verdicts : ∀ node verdict, (node, verdict) ∈ s.offers → verdict = .accepted ∨
    verdict = .filtered →
    ∃ c, (∀ c', x.JudgedBy node c' ↔ c' = c) ∧ (verdict = .accepted ↔ ¬ x.unit.InSystemHeader c)
  /-- A node that goes by an alias has the name of a typedef. -/
  named : ∀ node r, x.HasAlias node r →
    ∃ entry, x.unit.typeAt r = .ok entry ∧ entry.kind = .typedef ∧
      node.name = stripTags entry.spelling
  /-- For a node that goes by an alias the judging declaration is that of what it points to, and
  never the alias. -/
  aliases : ∀ node r, x.HasAlias node r → ∃ entry inner, x.unit.typeAt node.type = .ok entry ∧
    entry.kind = .pointer ∧ x.unit.typeAt entry.pointeeId = .ok inner ∧
    ∀ c, x.JudgedBy node c ↔ c = inner.declarationId
  /-- An accepted type that has a place in the snapshot can be looked up. -/
  kept : ∀ node, (node, .accepted) ∈ s.offers → node.kind.isShelved = true →
    (snapshot.find? node.name node.kind).isSome = true

private theorem Register.judgedBy {x : Context} {s : Session} {N : String → String → Bool → Prop}
    {node : VisitNode} {verdict : Verdict} (h : Register x s) (hu : x.unit.Paired N)
    (hsystem : x.switches.systemDeclarations = false) (hoffer : (node, verdict) ∈ s.offers)
    (hdecided : verdict = .accepted ∨ verdict = .filtered) :
    ∃ c, (∀ c', x.JudgedBy node c' ↔ c' = c) ∧
      (verdict = .accepted ↔ ¬ x.unit.InSystemHeader c) := by
  obtain ⟨haccepted, hfiltered⟩ := h.judged _ hoffer
  rcases hdecided with rfl | rfl
  · obtain ⟨c, hc⟩ := Context.exists_judgedBy (haccepted rfl)
    exact ⟨c, hc, by simpa using ((hc c).2 rfl).accepts_iff hu hsystem (haccepted rfl)⟩
  · obtain ⟨c, hc⟩ := Context.exists_judgedBy (hfiltered rfl)
    exact ⟨c, hc, by simpa using ((hc c).2 rfl).accepts_iff hu hsystem (hfiltered rfl)⟩

private theorem Steady.screened {x : Context} {file : String} {requested actual : Platform}
    {t : Session} {p : Progress} {N : String → String → Bool → Prop}
    (h : Steady x (Assembly.start file requested actual) t [] p)
    (hempty : ∀ c, (p.session.frontier c).queue = []) (hu : x.unit.Paired N)
    (hsystem : x.switches.systemDeclarations = false) :
    p.session.Screened x p.assembly.snapshot := by
  have hregister := h.ledger.toRegister
  refine ⟨?_, fun _ _ => hregister.judgedBy hu hsystem, fun _ _ halias => halias.name_eq,
    fun _ _ halias => halias.judgedBy_iff, fun _ hoffer hk => h.find?_of_accepted hempty hoffer hk⟩
  intro name kind declaration hfound
  rw [h.assembled, Assembly.find?_start] at hfound
  obtain ⟨⟨node, r⟩, he, rfl⟩ := List.mem_map.1 (List.mem_of_find?_eq_some hfound)
  obtain ⟨-, -, hname⟩ := Assembly.fits_iff.1 (List.find?_some hfound)
  have hoffer := h.mem_offers_of_result he
  have hdiscovered := hregister.found _ hoffer
  have hown : ¬ x.unit.InSystemHeader node.cursor := by
    rcases hdiscovered.own_judges hu with hj | hout
    · obtain ⟨c, hc, hverdict⟩ := hregister.judgedBy hu hsystem hoffer (Or.inl rfl)
      rw [(hc _).1 hj]
      exact hverdict.1 rfl
    · exact hout
  refine ⟨node, hoffer, he, (h.ledger.faithful _ he).2.1.symm.trans hname, hdiscovered.goesBy, ?_⟩
  intro c hc hin
  cases hc with
  | topLevel | own => exact absurd hin hown
  | renamed found entry_eq => exact ⟨_, _, found, entry_eq, rfl⟩

/-- Without `systemDeclarations`, each entry of the snapshot `GoesBy` a declaration outside of
system headers, but for function pointers that go by an alias: these are `JudgedBy` what they point
to. -/
theorem surveyFor_screened {rounds turns : Nat} {file triple : String} {pointerBits : Nat}
    {steps : List Builder.Step} {s : Settings} {o : Outcome}
    (hsystem : s.switches.systemDeclarations = false)
    (h : surveyFor rounds turns s (Builder.build file triple pointerBits steps) = .ok o) :
    ∃ x start p, beginSurvey s (Builder.build file triple pointerBits steps) = .ok (x, start) ∧
      Returns (x.runFor rounds turns) start () p ∧ p.session.Screened x o.snapshot := by
  obtain ⟨x, start, p, hbegin, hrun, rfl⟩ := surveyFor_eq_ok h
  obtain ⟨requested, actual, -, -, hx, rfl⟩ := beginSurvey_eq_ok hbegin
  obtain ⟨t, -, hsteady, hempty⟩ := Context.runFor_steady hrun
  have hu : x.unit.Paired fun _ _ _ => True := by
    rw [hx]
    exact Builder.build_paired_any file triple pointerBits steps
  exact ⟨x, _, p, hbegin, hrun, hsteady.screened hempty hu (by rw [hx]; exact hsystem)⟩

def handlerName : String := "handler_t"

/-- A function that takes a record and a function pointer from a system header, the latter under the
name of an alias. -/
def handlerSteps : List Builder.Step :=
  [.inFile "/usr/include/signal.h", .systemHeader true, .primitive .void, .primitive .int,
    .record .struct "siginfo" [("code", 2)], .functionType 1 [2] false .c, .pointer 4,
    .typedef handlerName 5,
    .inFile "api.h", .systemHeader false,
    .function "on_signal" 2 [("handler", 6), ("info", 3)] false]

def handlerUnit : TranslationUnit :=
  Builder.build "api.h" "x86_64-unknown-linux-gnu" 64 handlerSteps

def localSettings : Settings := { switches := { systemDeclarations := false } }

theorem surveyFor_handlerUnit_screened : ∃ o, surveyFor 8 2 localSettings handlerUnit = .ok o ∧
    localSettings.switches.systemDeclarations = false ∧
    o.snapshot.functions.contains "on_signal" = true ∧
    o.snapshot.records.contains "siginfo" = false ∧
    (o.snapshot.functionPointers.get? handlerName).map (·.location.filePath) =
      some "/usr/include/signal.h" ∧
    (∃ c cursor, handlerUnit.cursorAt c = .ok cursor ∧ cursor.kind = .typedefDecl ∧
      cursor.spelling = handlerName ∧ cursor.position.inSystemHeader = true) ∧
    ∃ x start p, beginSurvey localSettings handlerUnit = .ok (x, start) ∧
      Returns (x.runFor 8 2) start () p ∧
      p.session.Screened x o.snapshot := by
  have hok : (surveyFor 8 2 localSettings handlerUnit).toOption.any (fun o =>
      o.snapshot.functions.contains "on_signal" = true ∧
        o.snapshot.records.contains "siginfo" = false ∧
      (o.snapshot.functionPointers.get? handlerName).map (·.location.filePath) =
        some "/usr/include/signal.h") = true := by
    decide +kernel
  obtain ⟨o, ho, hok⟩ := toOption_any_iff.1 hok
  obtain ⟨hfunction, hrecord, hpointer⟩ := of_decide_eq_true hok
  refine ⟨o, ho, rfl, hfunction, hrecord, hpointer, ?_, surveyFor_screened rfl ho⟩
  exact ⟨4, _, rfl, rfl, rfl, rfl⟩

end HeaderSurvey
