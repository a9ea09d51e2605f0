import HeaderSurvey.Proofs.Filter
import HeaderSurvey.Proofs.Succession
import HeaderSurvey.Proofs.Uniqueness

/-! What the scan of the top level leaves behind. The declarations that count enter one after the
other, each under its name in its category. The first of a name waits if it is not from a system
header that does not count, and keeps the name to itself in either case; the later ones are
reported. -/
namespace HeaderSurvey

private theorem Kind.isType_of_category {kind : Kind} (h : Category.ofKind kind = .types) :
    kind.isType = true := by
  cases kind <;> first | rfl | cases h

theorem VisitNode.key_of_category_ne {node : VisitNode} (h : node.category ≠ .types) :
    node.key = node.name := by
  have hkind : node.kind.isType = false :=
    Bool.eq_false_iff.2 fun htype => h (Kind.category_types htype)
  simp [VisitNode.key, hkind]

@[simp] theorem Session.macroTokens_setFrontier (s : Session) (c : Category) (f : Frontier) :
    (s.setFrontier c f).macroTokens = s.macroTokens := by
  cases c <;> rfl

@[simp] theorem Session.diagnostics_setFrontier (s : Session) (c : Category) (f : Frontier) :
    (s.setFrontier c f).diagnostics = s.diagnostics := by
  cases c <;> rfl

/-- A declaration of the top level with the `node` that is made for it. -/
structure Entrant where
  cursor : Cursor
  node : VisitNode

namespace Entrant

/-- Whether an entrant has the category and the name of `node`. -/
def rivals (node : VisitNode) (e : Entrant) : Bool :=
  decide (e.node.category = node.category ∧ e.node.key = node.key)

private theorem rivals_iff {node : VisitNode} {e : Entrant} :
    e.rivals node = true ↔ e.node.category = node.category ∧ e.node.key = node.key := by
  simp [rivals]

def first? (before : List Entrant) (node : VisitNode) : Option Entrant := before.find? (rivals node)

/-- What is reported of an entrant: a variable or a function whose name is taken by one `before`,
and a macro whose name was taken by one with other tokens. -/
def report (before : List Entrant) (e : Entrant) : List Diagnostic :=
  match first? before e.node with
  | none => []
  | some first =>
    match e.node.category with
    | .macros =>
      if first.cursor.macroTokens = e.cursor.macroTokens then []
      else [.macroExists e.node.name e.node.location]
    | .globals | .functions => [.redeclared e.node.kind e.node.name e.node.location]
    | .types => []

end Entrant

namespace Context

/-- Whether `scan` offers a declaration of the top level: macros that are neither built in nor have
parameters, and variables, functions and enumerations with a name that are visible to other units,
where `Switches` want such declarations. -/
def isKept (x : Context) (c : Cursor) : Bool :=
  match c.kind with
  | .macroDefinition => x.switches.macroObjects && !c.macroBuiltin && !c.macroFunctionLike
  | .varDecl => x.switches.globals && c.linkage == .external
  | .functionDecl => x.switches.functions && c.linkage == .external
  | .enumDecl => x.switches.danglingEnums && c.linkage == .external && !c.anonymous
  | _ => false

/-- `e` is the entrant for a `child` of the unit. -/
def Enters (x : Context) (child : CursorId × Cursor) (e : Entrant) : Prop :=
  e.cursor = child.2 ∧ ∃ kind t, topLevelKind? child.2 = some kind ∧
    x.topLevelType child.2 = .ok t ∧
    x.visitNode kind child.2.spelling child.1 t none 0 = .ok e.node

/-- What an entrant adds to the queue of the category `c`: itself, if it is the first of its name
there and not from a system header that does not count. -/
def recruit (x : Context) (c : Category) (before : List Entrant) (e : Entrant) : List VisitNode :=
  if e.node.category = c ∧ Entrant.first? before e.node = none ∧ x.acceptsCursor e.cursor = true
  then [e.node] else []

/-- The session after a scan of the declarations of `entrants`. -/
structure Scanned (x : Context) (entrants : List Entrant) (s : Session) : Prop where
  queue : ∀ c, (s.frontier c).queue = inTurn (x.recruit c) entrants
  visited : ∀ c name, name ∈ (s.frontier c).visited ↔
    ∃ e ∈ entrants, e.node.category = c ∧ e.node.key = name
  tokens : ∀ node : VisitNode, node.category = .macros → s.macroTokens.lookup node.key =
    (Entrant.first? entrants node).map (·.cursor.macroTokens)
  diagnostics : s.diagnostics = inTurn Entrant.report entrants

end Context

namespace Entrant

variable {entrants : List Entrant} {e : Entrant} {node : VisitNode}

private theorem first?_isSome_iff : (first? entrants node).isSome = true ↔
    ∃ e ∈ entrants, e.node.category = node.category ∧ e.node.key = node.key := by
  simp only [first?, List.find?_isSome, rivals_iff]

private theorem first?_concat : first? (entrants ++ [e]) node =
    (first? entrants node).or (if e.rivals node then some e else none) := by
  rw [first?, List.find?_append, List.find?_singleton]
  rfl

theorem first?_congr {node' : VisitNode} (hc : node.category = node'.category)
    (hk : node.key = node'.key) :
    first? entrants node = first? entrants node' := by
  have hrivals : rivals node = rivals node' := by
    funext e
    simp only [rivals, hc, hk]
  rw [first?, first?, hrivals]

end Entrant

namespace Context

variable {x : Context} {entrants : List Entrant} {s t : Session} {e : Entrant} {node : VisitNode}
  {verdict : Verdict}

/-! ## What an offer notes down -/

/-- The tokens of a macro are added to those that are known already; for any other `node` nothing
is. -/
structure Remembers (x : Context) (node : VisitNode) (s t : Session) : Prop where
  known : node.category = .macros → ∃ cursor, x.unit.cursorAt node.cursor = .ok cursor ∧
    t.macroTokens = (node.name, cursor.macroTokens) :: s.macroTokens
  other : node.category ≠ .macros → t.macroTokens = s.macroTokens

/-- What an offer with that `verdict` does to `macroTokens` and `diagnostics`. -/
structure Notes (x : Context) (node : VisitNode) (verdict : Verdict) (s t : Session) : Prop where
  ignored : verdict = .disabled → t.macroTokens = s.macroTokens ∧ t.diagnostics = s.diagnostics
  repeated : verdict = .duplicate → t.macroTokens = s.macroTokens ∧
    ∃ report, x.repetition? s node = .ok report ∧ t.diagnostics = s.diagnostics ++ report.toList
  fresh : verdict = .accepted ∨ verdict = .filtered → t.diagnostics = s.diagnostics ∧
    x.Remembers node s t

private theorem rememberTokens_notes {u : PUnit} (h : Returns (x.rememberTokens node) s u t) :
    t.diagnostics = s.diagnostics ∧ x.Remembers node s t := by
  unfold rememberTokens at h
  split at h
  · next hmacros =>
    simp only [returns_bind, returns_lift, returns_modify] at h
    obtain ⟨cursor, _, ⟨hcursor, rfl⟩, rfl⟩ := h
    exact ⟨rfl, fun _ => ⟨cursor, hcursor, rfl⟩, fun hother => absurd hmacros hother⟩
  · next hother =>
    obtain ⟨-, rfl⟩ := returns_pure.1 h
    exact ⟨rfl, fun hmacros => absurd hmacros hother, fun _ => rfl⟩

private theorem judge_notes (h : Returns (x.judge node) s verdict t) :
    x.Notes node verdict s t := by
  simp only [judge, returns_bind, returns_get] at h
  obtain ⟨_, _, ⟨rfl, rfl⟩, h⟩ := h
  split at h
  · simp only [returns_bind, returns_get, returns_lift, returns_modify, returns_pure] at h
    obtain ⟨_, _, ⟨rfl, rfl⟩, report, _, ⟨hreport, rfl⟩, -, _, rfl, rfl, rfl⟩ := h
    exact ⟨by simp, fun _ => ⟨rfl, report, hreport, rfl⟩, by simp⟩
  · simp only [returns_bind, returns_lift, returns_modify] at h
    obtain ⟨_, _, rfl, _, s', hs', accepted, _, ⟨-, rfl⟩, h⟩ := h
    obtain ⟨hdiagnostics, hknown, hother⟩ := rememberTokens_notes hs'
    simp only [Session.markVisited, Session.macroTokens_setFrontier,
      Session.diagnostics_setFrontier] at hdiagnostics hknown hother
    split at h
    · simp only [returns_bind, returns_modify, returns_pure] at h
      obtain ⟨-, _, rfl, rfl, rfl⟩ := h
      refine ⟨by simp, by simp, fun _ => ⟨?_, fun hmacros => ?_, fun hmacros => ?_⟩⟩
      · simpa [Session.enqueue] using hdiagnostics
      · simpa [Session.enqueue] using hknown hmacros
      · simpa [Session.enqueue] using hother hmacros
    · obtain ⟨rfl, rfl⟩ := returns_pure.1 h
      exact ⟨by simp, by simp, fun _ => ⟨hdiagnostics, hknown, hother⟩⟩

theorem offer_notes (h : Returns (x.offer node) s verdict t) : x.Notes node verdict s t := by
  unfold offer at h
  split at h
  · simp only [returns_bind, returns_modify, returns_pure] at h
    obtain ⟨verdict, s', hjudge, _, _, rfl, rfl, rfl⟩ := h
    obtain ⟨ignored, repeated, fresh⟩ := judge_notes hjudge
    refine ⟨ignored, repeated, fun hverdict => ?_⟩
    obtain ⟨hdiagnostics, hknown, hother⟩ := fresh hverdict
    exact ⟨hdiagnostics, hknown, hother⟩
  · simp only [returns_bind, returns_modify, returns_pure] at h
    obtain ⟨_, _, ⟨rfl, rfl⟩, _, _, rfl, rfl, rfl⟩ := h
    exact ⟨fun _ => ⟨rfl, rfl⟩, by simp, by simp⟩

/-! ## One declaration -/

namespace Scanned

theorem start (x : Context) : x.Scanned [] {} := by
  refine ⟨?_, ?_, fun _ _ => rfl, rfl⟩
  · intro c
    cases c <;> rfl
  · intro c name
    cases c <;> simp [Session.frontier]

/-- A key is in `visited` exactly if one of the entrants has it. -/
theorem mem_visited_iff (h : x.Scanned entrants s) : node.key ∈ (s.frontier node.category).visited ↔
    (Entrant.first? entrants node).isSome = true :=
  (h.visited node.category node.key).trans Entrant.first?_isSome_iff.symm

/-- An `offer` in a category that is not enabled leaves no trace. -/
theorem disabled (h : x.Scanned entrants s) (hoff : node.category.isEnabled x.switches = false)
    (hoffer : Returns (x.offer node) s verdict t) : x.Scanned entrants t := by
  have ho := offer_returns hoffer
  have hverdict := ho.disabled.2 hoff
  obtain ⟨htokens, hdiagnostics⟩ := (offer_notes hoffer).ignored hverdict
  refine ⟨fun c => ?_, fun c name => ?_, fun node hnode => ?_, ?_⟩
  · rw [ho.queue, h.queue]
    simp [hverdict]
  · rw [ho.visited, ← h.visited]
    simp [hverdict]
  · rw [htokens, h.tokens node hnode]
  · rw [hdiagnostics, h.diagnostics]

/-- `repetition?` reports on an entrant as `Entrant.report` says. -/
theorem report_eq (h : x.Scanned entrants s)
    (hcursor : x.unit.cursorAt e.node.cursor = .ok e.cursor) {first : Entrant}
    (hfirst : Entrant.first? entrants e.node = some first) {report : Option Diagnostic}
    (hreport : x.repetition? s e.node = .ok report) :
    report.toList = Entrant.report entrants e := by
  unfold repetition? at hreport
  split at hreport
  · next hmacros =>
    have hknown := h.tokens e.node hmacros
    rw [VisitNode.key_of_category_ne (by simp [hmacros]), hfirst, Option.map_some] at hknown
    simp only [bind_eq_ok_iff, hcursor, Except.ok.injEq, pure_eq_ok_iff, exists_eq_left', hknown,
      Option.some.injEq] at hreport
    simp only [Entrant.report, hfirst, VisitNode.category, hmacros, ← hreport]
    split <;> rfl
  · next hglobals =>
    cases hreport
    simp only [Entrant.report, hfirst, VisitNode.category, hglobals, Option.toList_some]
  · next hfunctions =>
    cases hreport
    simp only [Entrant.report, hfirst, VisitNode.category, hfunctions, Option.toList_some]
  · next htypes =>
    cases hreport
    simp only [Entrant.report, hfirst, VisitNode.category, htypes, Option.toList_none]

/-- An entrant with the verdict `duplicate` adds at most a report. -/
theorem duplicate (h : x.Scanned entrants s)
    (hcursor : x.unit.cursorAt e.node.cursor = .ok e.cursor)
    (hoffer : Returns (x.offer e.node) s .duplicate t) : x.Scanned (entrants ++ [e]) t := by
  have ho := offer_returns hoffer
  obtain ⟨first, hfirst⟩ := Option.isSome_iff_exists.1 (h.mem_visited_iff.1 (ho.duplicate rfl))
  obtain ⟨htokens, report, hreport, hdiagnostics⟩ := (offer_notes hoffer).repeated rfl
  refine ⟨fun c => ?_, fun c name => ?_, fun node hnode => ?_, ?_⟩
  · rw [ho.queue, h.queue, inTurn_concat]
    simp [recruit, hfirst]
  · have htaken := (h.visited e.node.category e.node.key).1 (ho.duplicate rfl)
    rw [ho.visited]
    simp only [reduceCtorEq, or_self, and_false, if_false, List.nil_append, h.visited,
      List.mem_append, List.mem_singleton]
    constructor
    · rintro ⟨e', he', hsame⟩
      exact ⟨e', Or.inl he', hsame⟩
    · rintro ⟨e', he' | rfl, rfl, rfl⟩
      · exact ⟨e', he', rfl, rfl⟩
      · exact htaken
  · rw [htokens, h.tokens node hnode, Entrant.first?_concat]
    split
    · next hrivals =>
      obtain ⟨hc, hk⟩ := Entrant.rivals_iff.1 hrivals
      rw [← Entrant.first?_congr hc hk, hfirst, Option.some_or]
    · rw [Option.or_none]
  · rw [hdiagnostics, h.diagnostics, inTurn_concat, h.report_eq hcursor hfirst hreport]

/-- The first entrant of its key reserves it, and is queued if it is accepted. -/
theorem fresh (h : x.Scanned entrants s) (hcursor : x.unit.cursorAt e.node.cursor = .ok e.cursor)
    (haccepts : x.accepts e.node = .ok (x.acceptsCursor e.cursor))
    (hverdict : verdict = .accepted ∨ verdict = .filtered)
    (hoffer : Returns (x.offer e.node) s verdict t) :
    x.Scanned (entrants ++ [e]) t := by
  have ho := offer_returns hoffer
  obtain ⟨hdiagnostics, hknown, hother⟩ := (offer_notes hoffer).fresh hverdict
  have hfirst : Entrant.first? entrants e.node = none := by
    rw [← Option.not_isSome_iff_eq_none, ← h.mem_visited_iff]
    exact ho.fresh hverdict
  have hcounts : verdict = .accepted ↔ x.acceptsCursor e.cursor = true := by
    rcases hverdict with rfl | rfl
    · have hpassed := haccepts.symm.trans (ho.passed rfl)
      simpa using hpassed
    · have hstopped := haccepts.symm.trans (ho.stopped rfl)
      simpa using hstopped
  refine ⟨fun c => ?_, fun c name => ?_, fun node hnode => ?_, ?_⟩
  · rw [ho.queue, h.queue, inTurn_concat, recruit]
    simp only [hfirst, hcounts, true_and, eq_comm]
  · rw [ho.visited]
    simp only [List.mem_append, h.visited, hverdict, and_true, List.mem_singleton]
    constructor
    · rintro (hnew | ⟨e', he', hsame⟩)
      · split at hnew
        · next hc => exact ⟨e, Or.inr rfl, hc.symm, (List.mem_singleton.1 hnew).symm⟩
        · cases hnew
      · exact ⟨e', Or.inl he', hsame⟩
    · rintro ⟨e', he' | rfl, rfl, rfl⟩
      · exact Or.inr ⟨e', he', rfl, rfl⟩
      · exact Or.inl (by simp)
  · rw [Entrant.first?_concat]
    by_cases hmacros : e.node.category = .macros
    · obtain ⟨cursor, hcursor', htokens⟩ := hknown hmacros
      cases hcursor.symm.trans hcursor'
      rw [htokens, NameMap.lookup_cons, ← VisitNode.key_of_category_ne (by simp [hmacros])]
      by_cases hk : node.key = e.node.key
      · have hnone := hfirst
        rw [← Entrant.first?_congr (hnode.trans hmacros.symm) hk] at hnone
        simp [hk, hnone, Entrant.rivals, hnode, hmacros]
      · simp [hk, Entrant.rivals, Ne.symm hk, h.tokens node hnode]
    · have hrivals : e.rivals node = false := by
        simp [Entrant.rivals, hnode, hmacros]
      rw [hother hmacros, h.tokens node hnode, hrivals]
      simp
  · rw [hdiagnostics, h.diagnostics, inTurn_concat]
    simp [Entrant.report, hfirst]

theorem offer (h : x.Scanned entrants s) (hcursor : x.unit.cursorAt e.node.cursor = .ok e.cursor)
    (haccepts : x.accepts e.node = .ok (x.acceptsCursor e.cursor))
    (hon : e.node.category.isEnabled x.switches = true)
    (hoffer : Returns (x.offer e.node) s verdict t) :
    x.Scanned (entrants ++ [e]) t := by
  cases verdict with
  | disabled =>
    have hoff := (offer_returns hoffer).disabled.1 rfl
    rw [hon] at hoff
    cases hoff
  | duplicate => exact h.duplicate hcursor hoffer
  | filtered => exact h.fresh hcursor haccepts (Or.inr rfl) hoffer
  | accepted => exact h.fresh hcursor haccepts (Or.inl rfl) hoffer

end Scanned

/-! ## All declarations -/

/-- A cursor `isKept` if it `isTopLevel`, has a kind that is not `isSkipped`, and its category is
enabled. -/
theorem isKept_iff {c : Cursor} : x.isKept c = true ↔ isTopLevel c = true ∧
    ∃ kind, topLevelKind? c = some kind ∧ x.isSkipped kind c = false ∧
      (Category.ofKind kind).isEnabled x.switches = true := by
  unfold isKept isTopLevel topLevelKind? isSkipped
  cases c.kind <;> simp [Category.ofKind, Category.isEnabled, and_assoc, and_comm, and_left_comm]

theorem Enters.key_eq {child : CursorId × Cursor} (h : x.Enters child e) :
    e.node.key = if e.node.category = .types then e.node.typeName else e.node.name := by
  obtain ⟨-, kind, type, -, -, hnode⟩ := h
  split
  · next htypes =>
    have htype := Kind.isType_of_category htypes
    obtain ⟨hkind, -, -, -, hname, -⟩ := visitNode_ok hnode
    rw [← hkind] at hname
    simp [VisitNode.key, htype, typeName_ne_empty htype hname]
  · next htypes => exact VisitNode.key_of_category_ne htypes

private theorem Enters.keys {children : List (CursorId × Cursor)}
    (h : List.Forall₂ x.Enters children entrants) :
    ∀ e ∈ entrants, e.node.key = if e.node.category = .types then e.node.typeName
      else e.node.name := by
  induction h with
  | nil => simp
  | cons hchild _ ih => exact List.forall_mem_cons.2 ⟨hchild.key_eq, ih⟩

end Context

/-- Each `enumDecl` has a type of kind `enum`. -/
def TranslationUnit.TypesEnums (u : TranslationUnit) : Prop :=
  ∀ c ∈ u.cursors, c.kind = .enumDecl → ∀ entry, u.typeAt c.type = .ok entry → entry.kind = .enum

theorem TranslationUnit.Paired.typesEnums {u : TranslationUnit} {N : String → String → Bool → Prop}
    (h : u.Paired N) : u.TypesEnums := by
  intro c hmem hkind entry hentry
  obtain ⟨id, hid⟩ := Array.mem_iff_getElem?.1 hmem
  obtain ⟨own, howns⟩ := h.owned (cursorAt_eq_ok.2 hid) (by rw [hkind]; exact Option.some_ne_none _)
  cases hentry.symm.trans howns.type_eq
  have hsort := howns.sort
  rw [hkind] at hsort
  exact (Option.some.inj hsort).symm

namespace Context

variable {x : Context} {entrants : List Entrant} {s t : Session} {e : Entrant} {u : PUnit}
  {child : CursorId × Cursor}

theorem Enters.cursor_eq (h : x.Enters child e) (hc : x.unit.cursorAt child.1 = .ok child.2) :
    x.unit.cursorAt e.node.cursor = .ok e.cursor := by
  obtain ⟨hcursor, kind, type, -, -, hnode⟩ := h
  rw [(visitNode_ok hnode).2.1, hcursor, hc]

/-- `accepts` judges an entrant by its own cursor. -/
theorem Enters.accepts (h : x.Enters child e) (henums : x.unit.TypesEnums)
    (hc : x.unit.cursorAt child.1 = .ok child.2) :
    x.accepts e.node = .ok (x.acceptsCursor e.cursor) := by
  have hcursor := h.cursor_eq hc
  obtain ⟨-, kind, type, hkind, htype, hnode⟩ := h
  obtain ⟨rfl, -, rfl, -⟩ := visitNode_ok hnode
  unfold Context.accepts
  simp only [hcursor, bind, Except.bind]
  split
  · next htypes =>
    have henum : e.node.kind = .enum := by
      rcases topLevelKind?_cases hkind with hk | hk | hk | hk <;> simp_all [Category.ofKind]
    rw [henum] at hkind
    have hmem : child.2 ∈ x.unit.cursors :=
      Array.mem_of_getElem? (TranslationUnit.cursorAt_eq_ok.1 hc)
    obtain ⟨entry, hentry⟩ : ∃ entry, x.unit.typeAt child.2.type = .ok entry := by
      simp only [topLevelType, bind_eq_ok_iff] at htype
      obtain ⟨entry, hentry, -⟩ := htype
      exact ⟨entry, hentry⟩
    have hsort := henums child.2 hmem (kind_of_topLevelKind? hkind) entry hentry
    rw [topLevelType_of_enum hentry hsort htype, hentry]
    refine acceptsTypeWithin_last (TypeEntry.target?_eq_none ?_)
    rw [hsort]
    rfl
  · rfl

/-- `visitTopLevel` for one cursor adds an entrant exactly if the cursor `isKept`. -/
theorem Scanned.declaration (h : x.Scanned entrants s) (henums : x.unit.TypesEnums)
    (hc : x.unit.cursorAt child.1 = .ok child.2) (htop : isTopLevel child.2 = true)
    (hrun : Returns (x.visitTopLevel child.1 child.2) s u t) :
    x.isKept child.2 = false ∧ x.Scanned entrants t ∨
      x.isKept child.2 = true ∧ ∃ e, x.Enters child e ∧ x.Scanned (entrants ++ [e]) t := by
  unfold visitTopLevel at hrun
  split at hrun
  · next hkind =>
    obtain ⟨-, rfl⟩ := returns_pure.1 hrun
    refine Or.inl ⟨Bool.eq_false_iff.2 fun hkept => ?_, h⟩
    obtain ⟨-, kind, hkind', -⟩ := isKept_iff.1 hkept
    cases hkind.symm.trans hkind'
  · next kind hkind =>
    split at hrun
    · next hskip =>
      obtain ⟨-, rfl⟩ := returns_lift.1 hrun
      refine Or.inl ⟨Bool.eq_false_iff.2 fun hkept => ?_, h⟩
      obtain ⟨-, kind', hkind', hskip', -⟩ := isKept_iff.1 hkept
      cases hkind.symm.trans hkind'
      cases hskip.symm.trans hskip'
    · next hskip =>
      simp only [returns_bind, returns_lift, returns_pure] at hrun
      obtain ⟨type, _, ⟨htype, rfl⟩, node, _, ⟨hnode, rfl⟩, verdict, _, hoffer, -, rfl⟩ := hrun
      obtain ⟨rfl, -⟩ := visitNode_ok hnode
      cases hon : node.category.isEnabled x.switches with
      | false =>
        refine Or.inl ⟨Bool.eq_false_iff.2 fun hkept => ?_, h.disabled hon hoffer⟩
        obtain ⟨-, kind', hkind', -, hon'⟩ := isKept_iff.1 hkept
        cases hkind.symm.trans hkind'
        cases hon.symm.trans hon'
      | true =>
        have henters : x.Enters child ⟨child.2, node⟩ := ⟨rfl, node.kind, type, hkind, htype, hnode⟩
        refine Or.inr ⟨isKept_iff.2 ⟨htop, node.kind, hkind, by simpa using hskip, hon⟩, _,
          henters, ?_⟩
        exact h.offer (henters.cursor_eq hc) (henters.accepts henums hc) hon hoffer

theorem Scanned.forM (henums : x.unit.TypesEnums) {children : List (CursorId × Cursor)}
    (hc : ∀ child ∈ children, x.unit.cursorAt child.1 = .ok child.2) (h : x.Scanned entrants s)
    (hrun : Returns ((children.filter fun child => isTopLevel child.2).forM fun child =>
      x.visitTopLevel child.1 child.2) s u t) :
    ∃ new, List.Forall₂ x.Enters (children.filter fun child => x.isKept child.2) new ∧
      x.Scanned (entrants ++ new) t := by
  induction children generalizing entrants s with
  | nil =>
    obtain ⟨-, rfl⟩ := returns_pure.1 hrun
    exact ⟨[], .nil, by rwa [List.append_nil]⟩
  | cons child children ih =>
    have hrest : ∀ child ∈ children, x.unit.cursorAt child.1 = .ok child.2 :=
      fun child hmem => hc child (List.mem_cons_of_mem _ hmem)
    cases htop : isTopLevel child.2 with
    | false =>
      have hkept : x.isKept child.2 = false := by
        refine Bool.eq_false_iff.2 fun hkept => ?_
        cases htop.symm.trans (isKept_iff.1 hkept).1
      rw [List.filter_cons_of_neg (by simp [htop])] at hrun
      rw [List.filter_cons_of_neg (by simp [hkept])]
      exact ih hrest h hrun
    | true =>
      rw [List.filter_cons_of_pos (by simpa using htop)] at hrun
      obtain ⟨_, s', hfirst, hrun⟩ := returns_bind.1 hrun
      rcases h.declaration henums (hc child List.mem_cons_self) htop hfirst with
        ⟨hkept, hs⟩ | ⟨hkept, e, henters, hs⟩
      · rw [List.filter_cons_of_neg (by simp [hkept])]
        exact ih hrest hs hrun
      · obtain ⟨new, hnew, hs'⟩ := ih hrest hs hrun
        rw [List.filter_cons_of_pos (by simpa using hkept)]
        refine ⟨e :: new, .cons henters hnew, ?_⟩
        rwa [List.append_assoc, List.singleton_append] at hs'

/-- The session after `scan`, for a unit that `TypesEnums`. The cursors that are `isKept` enter in
the order of the source. Each queue holds, in that order, the entrants of its category that
`recruit` lets in: the first of their key, if their cursor is accepted. `visited` holds the keys of
all entrants. The diagnostics are `Entrant.report` of each entrant in turn. -/
theorem scan_exact (henums : x.unit.TypesEnums) (h : Returns x.scan {} () t) :
    ∃ root children entrants, x.unit.cursorAt CursorId.root = .ok root ∧
      x.unit.childrenWhere root x.isKept = .ok children ∧ List.Forall₂ x.Enters children entrants ∧
      (∀ e ∈ entrants,
        e.node.key = if e.node.category = .types then e.node.typeName else e.node.name) ∧
      (∀ c, (t.frontier c).queue = inTurn (x.recruit c) entrants) ∧
      (∀ c name, name ∈ (t.frontier c).visited ↔
        ∃ e ∈ entrants, e.node.category = c ∧ e.node.key = name) ∧
      t.diagnostics = inTurn Entrant.report entrants := by
  simp only [scan, returns_bind, returns_lift] at h
  obtain ⟨root, _, ⟨hroot, rfl⟩, children, _, ⟨hchildren, rfl⟩, h⟩ := h
  simp only [TranslationUnit.childrenWhere, bind_eq_ok_iff, pure_eq_ok_iff] at hchildren
  obtain ⟨all, hall, rfl⟩ := hchildren
  have hc : ∀ child ∈ all, x.unit.cursorAt child.1 = .ok child.2 := by
    intro child hmem
    obtain ⟨id, -, hid⟩ := mem_of_mapM_eq_ok hall hmem
    simp only [bind_eq_ok_iff, pure_eq_ok_iff] at hid
    obtain ⟨cursor, hcursor, rfl⟩ := hid
    exact hcursor
  obtain ⟨entrants, henters, hscanned⟩ := (Scanned.start x).forM henums hc h
  rw [List.nil_append] at hscanned
  refine ⟨root, all.filter fun child => x.isKept child.2, entrants, hroot, ?_, henters, ?_,
    hscanned.queue, hscanned.visited, hscanned.diagnostics⟩
  · simp only [TranslationUnit.childrenWhere, bind_eq_ok_iff, pure_eq_ok_iff]
    exact ⟨all, hall, rfl⟩
  · exact Enters.keys henters

end Context

/-- A system header and a header after it that share the name of a macro, with a macro that is
repeated as it was, one with other tokens, and a function that is declared twice. -/
def sharedSteps : List Builder.Step :=
  [.inFile "/usr/include/limits.h", .systemHeader true, .macroDefinition .object "LIMIT" ["1"],
    .inFile "api.h", .systemHeader false, .macroDefinition .object "LIMIT" ["2"],
    .macroDefinition .object "SIZE" ["4"], .macroDefinition .object "SIZE" ["4"],
    .macroDefinition .functionLike "MAX" ["a"], .primitive .int, .function "f" 1 [] false,
    .enum "Mode" [("A", 0)], .function "f" 1 [] false, .globalVariable "count" 1 .external]

def sharedContext : Context :=
  .ofSettings (Builder.build "api.h" "x86_64-unknown-linux-gnu" 64 sharedSteps) {} 64

/-- The name that the system header has taken stays taken, though its macro does not wait. -/
theorem scan_sharedContext_exact : sharedContext.unit.TypesEnums ∧
    ∃ t, Returns sharedContext.scan {} () t ∧
      Category.all.map (fun c => (t.frontier c).queue.map (·.name)) =
        [["SIZE"], ["count"], ["f"], ["Mode"]] ∧
      t.diagnostics.map Diagnostic.severity = [.warning, .info] ∧
      ∃ entrants : List Entrant,
        (∀ c, (t.frontier c).queue = inTurn (sharedContext.recruit c) entrants) ∧
        t.diagnostics = inTurn Entrant.report entrants := by
  have henums : sharedContext.unit.TypesEnums :=
    (Builder.build_paired_any "api.h" "x86_64-unknown-linux-gnu" 64 sharedSteps).typesEnums
  have hok : (sharedContext.scan {}).1.isOk = true := by decide +kernel
  have hqueues : Category.all.map
      (fun c => ((sharedContext.scan {}).2.frontier c).queue.map (·.name)) =
      [["SIZE"], ["count"], ["f"], ["Mode"]] := by decide +kernel
  have hreports : (sharedContext.scan {}).2.diagnostics.map Diagnostic.severity =
      [.warning, .info] := by
    decide +kernel
  obtain ⟨_, t, hrun⟩ := exists_returns hok
  rw [show sharedContext.scan {} = _ from hrun] at hqueues hreports
  obtain ⟨_, _, entrants, -, -, -, -, hqueue, -, hdiagnostics⟩ := Context.scan_exact henums hrun
  exact ⟨henums, t, hrun, hqueues, hreports, entrants, hqueue, hdiagnostics⟩

end HeaderSurvey
