import HeaderSurvey.Proofs.Dimensions
import HeaderSurvey.Proofs.Filter
import HeaderSurvey.Proofs.Inertness
import HeaderSurvey.Proofs.Signatures
import HeaderSurvey.Proofs.Uniqueness

/-! Stacks of pointers and arrays over a type from a system header. A pointer or an array counts if
what it leads to is declared nowhere, and that is so for other pointers and arrays. So system
headers that do not count keep out the first level on top of a type that they declare, and none of
those above. -/
namespace HeaderSurvey

namespace Builder

variable {b : Builder} {step : Step} {steps : List Step} {w t e : TypeId} {n : Nat}

def Step.target? : Step → Option TypeId
  | pointer t | constantArray t _ | incompleteArray t => some t
  | _ => none

private theorem Step.target?_mem (h : step.target? = some t) : t ∈ step.references := by
  cases step with
  | pointer | constantArray | incompleteArray =>
    cases h
    exact List.mem_singleton.2 rfl
  | _ => cases h

/-- `Levels b steps e n w`: from `w`, `n` pointers and arrays, one on top of the other, lead down to
`e`. -/
inductive Levels (b : Builder) (steps : List Step) (e : TypeId) : Nat → TypeId → Prop where
  | base : Levels b steps e 0 e
  | level {step : Step} {n : Nat} {t w : TypeId} (made : b.Makes steps step w)
      (target : step.target? = some t) (rest : Levels b steps e n t) : Levels b steps e (n + 1) w

/-- `w` is a pointer to `t` or an array of it, with whatever layout. -/
structure IsLevel (b : Builder) (w t : TypeId) : Prop where
  lt : w < b.nextType
  declaration : (b.typeAt w).declaration = none
  target : (b.typeAt w).target? = some t
  star : (b.typeAt w).kind = .pointer → (b.typeAt t).kind.isFunction = false →
    '*' ∈ (b.typeAt w).spelling.toList

private theorem star_mem_pointerSpelling (entry : TypeEntry) (h : entry.kind.isFunction = false) :
    '*' ∈ (pointerSpelling entry).toList := by
  unfold pointerSpelling
  rw [if_neg (by simp [h])]
  split <;> simp

private theorem Makes.isLevel (h : b.Makes steps step w) (htarget : step.target? = some t)
    (ht : t < w) :
    (b.after steps).IsLevel w t := by
  cases step with
  | pointer =>
    cases htarget
    obtain ⟨before, later, rfl, rfl, hlt, hfixed⟩ := h.fixed fun _ => rfl
    have hkept := typeAt_append_fixed ht (.pointer t :: later)
    have hkind := (congrArg TypeEntry.kind hkept :)
    refine ⟨hlt, congrArg TypeEntry.declaration hfixed, congrArg TypeEntry.target? hfixed,
      fun _ hfunction => ?_⟩
    have hspelling := (congrArg TypeEntry.spelling hfixed :)
    exact hspelling ▸ star_mem_pointerSpelling ((b.after before).typeAt t) (hkind ▸ hfunction)
  | constantArray | incompleteArray =>
    cases htarget
    obtain ⟨_, _, _, _, hlt, hfixed⟩ := h.fixed fun _ => rfl
    refine ⟨hlt, congrArg TypeEntry.declaration hfixed, congrArg TypeEntry.target? hfixed,
      fun hkind => ?_⟩
    have harray := (congrArg TypeEntry.kind hfixed :)
    cases harray.symm.trans hkind
  | _ => cases htarget

theorem IsLevel.kind_cases (h : b.IsLevel w t) : (b.typeAt w).kind = .pointer ∨
    (b.typeAt w).kind = .constantArray ∨ (b.typeAt w).kind = .incompleteArray := by
  have htarget := h.target
  unfold TypeEntry.target? at htarget
  split at htarget
  · next hpointer => exact Or.inl hpointer
  · split at htarget
    · next harray =>
      unfold TypeKind.isArray at harray
      split at harray
      · next hconstant => exact Or.inr (Or.inl hconstant)
      · next hincomplete => exact Or.inr (Or.inr hincomplete)
      · cases harray
    · cases htarget

theorem Levels.top (h : b.Levels steps e (n + 1) w) (hconnected : Connected b [] steps)
    (hb : b.Sound) :
    ∃ t, t < w ∧ (b.after steps).IsLevel w t ∧ b.Levels steps e n t := by
  cases h with
  | @level step _ t _ made target rest =>
    have ht := made.reference_lt hconnected hb (Step.target?_mem target)
    exact ⟨t, ht, made.isLevel target ht, rest⟩

theorem Levels.isFunction (h : b.Levels steps e n w) (hconnected : Connected b [] steps)
    (hb : b.Sound) (he : ((b.after steps).typeAt e).kind.isFunction = false) :
    ((b.after steps).typeAt w).kind.isFunction = false := by
  cases n with
  | zero =>
    cases h
    exact he
  | succ n =>
    obtain ⟨t, -, hlevel, -⟩ := h.top hconnected hb
    rcases hlevel.kind_cases with hkind | hkind | hkind <;> rw [hkind] <;> rfl

end Builder

namespace Context

variable {x : Context} {b : Builder} {w t container : TypeId} {parent : Option String} {index : Nat}
  {node : VisitNode} {verdict : Verdict} {s s' : Session}

/-! ## The node of a pointer or an array -/

theorem classify_level (hunit : x.unit = b.unit) (hlinked : x.unit.Linked) (hvalid : x.unit.Valid)
    (h : b.IsLevel w t) :
    ∃ kind, x.unit.classify w = .ok (kind, w) ∧ kind.isType = true ∧ kind ≠ .typeAlias := by
  have hentry : x.unit.typeAt w = .ok (b.typeAt w) := hunit ▸ Builder.typeAt_of_lt h.lt
  obtain ⟨cursor, hself⟩ := hlinked.declaredType_self hentry h.declaration
  rw [TranslationUnit.classify, TranslationUnit.classifyWithin, hself]
  rcases h.kind_cases with hkind | hkind | hkind
  · obtain ⟨toFunction, hpointee⟩ := hvalid.pointsToFunction_ok (hvalid.entry_inRange hentry)
    refine ⟨if toFunction then .functionPointer else .pointer, ?_, ?_⟩
    · simp [bind, Except.bind, hkind, TypeKind.isPrimitive, hpointee, pure, Except.pure]
    · cases toFunction <;> exact ⟨rfl, by simp⟩
  · exact ⟨.array, by simp [bind, Except.bind, hkind, TypeKind.isPrimitive, pure,
      Except.pure], rfl, by simp⟩
  · exact ⟨.array, by simp [bind, Except.bind, hkind, TypeKind.isPrimitive, pure,
      Except.pure], rfl, by simp⟩

private theorem exists_typeName_level (hunit : x.unit = b.unit) (hlinked : x.unit.Linked)
    (hvalid : x.unit.Valid) (h : b.IsLevel w t) (ht : (b.typeAt t).kind.isFunction = false)
    {kind : Kind} (hkind : kind.isType = true) (parent : Option String) (index : Nat) :
    ∃ name, x.typeName kind w parent index = .ok name := by
  have hentry : x.unit.typeAt w = .ok (b.typeAt w) := hunit ▸ Builder.typeAt_of_lt h.lt
  obtain ⟨name, hname, hempty⟩ := spelledName_ok hvalid hentry
  refine ⟨_, typeName_undeclared kind hkind hlinked hentry h.declaration hname ?_ parent index⟩
  rw [Ne, hempty]
  rintro ⟨harray, hstripped⟩
  have hpointer : (b.typeAt w).kind = .pointer := by
    rcases h.kind_cases with hkind | hkind | hkind
    · exact hkind
    · simp [hkind, TypeKind.isArray] at harray
    · simp [hkind, TypeKind.isArray] at harray
  have hfree : ∀ tag ∈ tagWords, '*' ∉ tag.toList := by decide +kernel
  have hstar := (mem_stripTags_iff (by decide) hfree _).2 (h.star hpointer ht)
  simp [hstripped] at hstar

/-- `resolve` gives a pointer or an array a node for that very type. -/
theorem resolve_level (hunit : x.unit = b.unit) (hlinked : x.unit.Linked) (hvalid : x.unit.Valid)
    (h : b.IsLevel w t) (ht : (b.typeAt t).kind.isFunction = false) (parent : Option String)
    (index : Nat) :
    ∃ node, x.resolve w parent index = .ok (node, w) ∧ node.type = w ∧ node.kind.isType = true ∧
      x.typeName node.kind w parent index = .ok node.typeName := by
  have hentry : x.unit.typeAt w = .ok (b.typeAt w) := hunit ▸ Builder.typeAt_of_lt h.lt
  obtain ⟨kind, hclass, hkind, halias⟩ := classify_level hunit hlinked hvalid h
  obtain ⟨cursor, hcursor, -⟩ := hlinked.paired.undeclared h.declaration
  obtain ⟨name, hname⟩ := exists_typeName_level hunit hlinked hvalid h ht hkind parent index
  have hplace : x.places.locate cursor (b.typeAt w) = .ok Location.none := by
    rw [Places.locate, if_pos]
    rcases h.kind_cases with hkind | hkind | hkind <;> simp [hkind, TypeKind.isArray]
  obtain ⟨node, hnode⟩ : ∃ node,
      x.visitNode kind cursor.spelling (b.typeAt w).declarationId w parent index =
      .ok node := by
    simp only [visitNode, hname, hentry, bind, Except.bind]
    rw [show x.unit.cursorAt (b.typeAt w).declarationId = .ok cursor from hcursor]
    simp only [hplace]
    exact ⟨_, rfl⟩
  obtain ⟨hnodeKind, -, hnodeType, -, hnodeName, -⟩ := visitNode_ok hnode
  have hresolve : x.resolve w parent index =
      .ok (if x.isOverridden node then { node with kind := .opaqueType } else node, w) := by
    rw [resolve_of_ne_alias hclass halias, hentry]
    simp only [bind, Except.bind]
    rw [show x.unit.cursorAt (b.typeAt w).declarationId = .ok cursor from hcursor]
    simp only [hnode]
    rfl
  refine ⟨_, hresolve, ?_⟩
  split
  · exact ⟨hnodeType, rfl, (typeName_congr rfl hkind w parent index).trans hnodeName⟩
  · exact ⟨hnodeType, hnodeKind ▸ hkind, hnodeKind ▸ hnodeName⟩

/-! ## The gate -/

theorem view_lift_modify {σ α β : Type} (r : Except SurveyError α) {g : α → σ → σ} (view : σ → β)
    (h : ∀ a s, view (g a s) = view s) (s : σ) :
    view ((do let a ← (liftM r : StepM σ α); modify (g a); return a : StepM σ α) s).2 = view s := by
  cases r with
  | error e => rfl
  | ok a => exact h a s

/-- What a `visit` leaves to wait, its `offer` left. -/
theorem visit_frontier (hresolve : x.resolve w parent index = .ok (node, container))
    (hkind : node.kind ≠ .function) (hoffer : Returns (x.offer node) s verdict s') (c : Category) :
    (x.visit w parent index s).2.frontier c = s'.frontier c := by
  have hlift : Returns (liftM (x.resolve w parent index) : SurveyM (VisitNode × TypeId)) s
      (node, container) s :=
    returns_lift.2 ⟨hresolve, rfl⟩
  rw [visit, hlift.bind_eq]
  dsimp only
  rw [if_pos hkind, hoffer.bind_eq]
  exact view_lift_modify (x.use node.kind node.typeName node.type container) (Session.frontier · c)
    (fun use s => Session.frontier_record (.described use) c) s'

/-- Without `systemDeclarations`, the node of a pointer or an array with a new name is `accepted`
exactly if its target is in no system header. -/
theorem offer_accepted_iff (hlinked : x.unit.Linked)
    (hsystem : x.switches.systemDeclarations = false) (hkind : node.kind.isType = true)
    (hname : node.typeName ≠ "") {entry inner : TypeEntry}
    (hentry : x.unit.typeAt node.type = .ok entry) (htarget : entry.target? = some t)
    (hinner : x.unit.typeAt t = .ok inner) (hoffer : Returns (x.offer node) s verdict s') :
    verdict = .accepted ↔
      ¬ x.unit.InSystemHeader inner.declarationId ∧ s.isVisited .types node.typeName = false := by
  have hoffers := offer_returns hoffer
  have hcategory : node.category = .types := Kind.category_types hkind
  have henabled : node.category.isEnabled x.switches = true := by
    rw [hcategory]
    rfl
  have hkey : node.key = node.typeName := by simp [VisitNode.key, hkind, hname]
  have hvisited : s.isVisited .types node.typeName = true ↔
      node.key ∈ (s.frontier node.category).visited := by
    rw [hkey, hcategory]
    exact Session.isVisited_iff
  have hjudged : x.JudgedBy node inner.declarationId := .target hcategory hentry htarget hinner
  cases verdict with
  | disabled => simp [hoffers.disabled.1 rfl] at henabled
  | duplicate => simp [hvisited.2 (hoffers.duplicate rfl)]
  | accepted =>
    have hfresh := mt hvisited.1 (hoffers.fresh (.inl rfl))
    have haccepts := hjudged.accepts_iff hlinked.paired hsystem (hoffers.passed rfl)
    simpa [hfresh] using haccepts
  | filtered =>
    have haccepts := hjudged.accepts_iff hlinked.paired hsystem (hoffers.stopped rfl)
    simpa using fun hnot => absurd hnot (by simpa using haccepts)

end Context

namespace TranslationUnit

variable {u : TranslationUnit} {e : TypeId} {base : TypeEntry}

theorem Linked.isFunction_of_inSystemHeader (h : u.Linked) (hbase : u.typeAt e = .ok base)
    (hheader : u.InSystemHeader base.declarationId) : base.kind.isFunction = false := by
  cases hc : base.declaration with
  | none => exact absurd hheader (h.paired.not_inSystemHeader hc)
  | some c =>
    obtain ⟨hkind, -⟩ := h.paired.owner hbase hc
    obtain hk | hk | hk | hk := of_decide_eq_true hkind <;> rw [hk] <;> rfl

end TranslationUnit

theorem Builder.Levels.inSystemHeader_iff {b : Builder} {steps : List Step} {e t : TypeId} {n : Nat}
    (h : b.Levels steps e n t) (hconnected : Connected b [] steps) (hb : b.Sound)
    (hlinked : (b.after steps).unit.Linked)
    (hheader : (b.after steps).unit.InSystemHeader ((b.after steps).typeAt e).declarationId) :
    ¬ (b.after steps).unit.InSystemHeader ((b.after steps).typeAt t).declarationId ↔ 1 ≤ n := by
  cases n with
  | zero =>
    cases h
    simp [hheader]
  | succ n =>
    obtain ⟨_, -, hlevel, -⟩ := h.top hconnected hb
    simp [hlinked.paired.not_inSystemHeader hlevel.declaration]

/-- Without `systemDeclarations`, `visit` offers a stack of pointers and arrays over a type of a
system header as a node of its own. The node is in the queue of types afterwards if there are at
least two levels and its `typeName` is new; nothing else comes to wait. -/
theorem visit_levels_queue {file triple : String} {pointerBits : Nat} {steps : List Builder.Step}
    {x : Context} (hconnected : Builder.Connected (Builder.start file triple pointerBits) [] steps)
    (hunit : x.unit = Builder.build file triple pointerBits steps)
    (hsystem : x.switches.systemDeclarations = false) {e w : TypeId} {n : Nat}
    (hlevels : (Builder.start file triple pointerBits).Levels steps e (n + 1) w) {base : TypeEntry}
    (hbase : x.unit.typeAt e = .ok base) (hheader : x.unit.InSystemHeader base.declarationId)
    (parent : Option String) (index : Nat) (s : Session) :
    ∃ node, node.type = w ∧ x.typeName node.kind w parent index = .ok node.typeName ∧
      ∀ c, ((x.visit w parent index s).2.frontier c).queue = (s.frontier c).queue ++
        if c = .types ∧ 1 ≤ n ∧ s.isVisited .types node.typeName = false then [node] else [] := by
  have hsound := Builder.start_sound file triple pointerBits
  have hlinked : x.unit.Linked := hunit ▸ Builder.build_linked file triple pointerBits steps
  have hvalid : x.unit.Valid := hunit ▸ hconnected.valid
  obtain ⟨t, ht, hw, hrest⟩ := hlevels.top hconnected hsound
  change x.unit = ((Builder.start file triple pointerBits).after steps).unit at hunit
  rw [hunit] at hbase hheader
  rw [hunit] at hlinked
  have he := Builder.typeAt_of_ok hbase
  have hfunction := hrest.isFunction hconnected hsound
    (he ▸ hlinked.isFunction_of_inSystemHeader hbase hheader)
  have houtside := hrest.inSystemHeader_iff hconnected hsound hlinked (he ▸ hheader)
  rw [← hunit] at hlinked houtside
  obtain ⟨node, hresolve, htype, hkind, hname⟩ :=
    Context.resolve_level hunit hlinked hvalid hw hfunction parent index
  have hentry : x.unit.typeAt w = .ok _ := hunit ▸ Builder.typeAt_of_lt hw.lt
  have hinner : x.unit.typeAt t = .ok _ := hunit ▸ Builder.typeAt_of_lt (Nat.lt_trans ht hw.lt)
  refine ⟨node, htype, hname, fun c => ?_⟩
  rcases returns_or_fails (x.offer node) s with ⟨verdict, s', hoffer⟩ | ⟨error, s', hoffer⟩
  · have haccepted := Context.offer_accepted_iff hlinked hsystem hkind
      (Context.typeName_ne_empty hkind hname)
      (htype ▸ hentry) hw.target hinner hoffer
    have hcategory : node.category = .types := Kind.category_types hkind
    have hnode : node.kind ≠ .function := by
      intro hk
      rw [hk] at hkind
      cases hkind
    rw [Context.visit_frontier hresolve hnode hoffer, (Context.offer_returns hoffer).queue]
    simp only [hcategory, haccepted, houtside]
  · exact absurd hoffer (Context.offer_not_fails hvalid (Context.resolve_sound hresolve).inRange)

def systemStart : Builder := Builder.start "a.h" "x86_64-unknown-linux-gnu" 64

/-- A record of a system header, a pointer to it, and an array of such pointers. -/
def systemSteps : List Builder.Step :=
  [.inFile "sys.h", .systemHeader true, .forwardRecord .struct "Sys", .systemHeader false,
    .pointer 1, .constantArray 2 3]

def systemContext : Context :=
  .ofSettings (Builder.build "a.h" "x86_64-unknown-linux-gnu" 64 systemSteps)
    { switches := { systemDeclarations := false } } 64

/-- The pointer `2` is kept out, and the array `3` of pointers is not. -/
theorem visit_systemContext_queue : Builder.Connected systemStart [] systemSteps ∧
    systemContext.switches.systemDeclarations = false ∧ systemStart.Levels systemSteps 1 1 2 ∧
    systemStart.Levels systemSteps 1 2 3 ∧
    (∃ base, systemContext.unit.typeAt 1 = .ok base ∧
      systemContext.unit.InSystemHeader base.declarationId) ∧
    ((systemContext.visit 2 none 0 {}).2.frontier .types).queue = [] ∧
    ∃ node, node.type = 3 ∧ ((systemContext.visit 3 none 0 {}).2.frontier .types).queue =
      [node] := by
  have hconnected : Builder.Connected systemStart [] systemSteps := by decide +kernel
  have hpointer : systemStart.Levels systemSteps 1 1 2 := .level (.of_take 4 rfl rfl) rfl .base
  have harray : systemStart.Levels systemSteps 1 2 3 := .level (.of_take 5 rfl rfl) rfl hpointer
  obtain ⟨base, hbase, hheader⟩ : ∃ base, systemContext.unit.typeAt 1 = .ok base ∧
      systemContext.unit.InSystemHeader base.declarationId := ⟨_, rfl, _, rfl, rfl⟩
  refine ⟨hconnected, rfl, hpointer, harray, ⟨base, hbase, hheader⟩, ?_, ?_⟩
  · obtain ⟨node, -, -, hqueue⟩ :=
      visit_levels_queue hconnected rfl rfl hpointer hbase hheader none 0 {}
    rw [hqueue]
    rfl
  · obtain ⟨node, htype, -, hqueue⟩ :=
      visit_levels_queue hconnected rfl rfl harray hbase hheader none 0 {}
    refine ⟨node, htype, ?_⟩
    rw [hqueue]
    rfl

end HeaderSurvey
