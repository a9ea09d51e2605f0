import HeaderSurvey.Proofs.CopiedLayouts

/-! Sizes of arrays under wrappers. A wrapper takes over the layout of an array but not its number
of elements, and a use shows what the type has that was referred to. So the number is to be seen
only without a wrapper, and the size through any number of them. -/
namespace HeaderSurvey

namespace Builder

variable {b : Builder} {step : Step} {steps before later : List Step} {w t a e : TypeId} {n : Int}

/-! ## Types without a declaration -/

theorem types_run_undeclared (ht : t < b.nextType) (hnone : (b.typeAt t).declaration = none)
    (step : Step) :
    (step.run b).1.unit.types[t]? = b.unit.types[t]? := by
  by_cases hcompletes : t ∈ step.completes?
  · cases step with
    | defineRecord s fields =>
      cases hcompletes
      simp only [Step.run, defineRecord, hnone]
    | _ => cases hcompletes
  · exact types_run ht hcompletes

theorem layoutAt_after_undeclared (ht : t < b.nextType) (hnone : (b.typeAt t).declaration = none)
    (steps : List Step) : (b.after steps).layoutAt t = b.layoutAt t := by
  induction steps generalizing b with
  | nil => rfl
  | cons step steps ih =>
    have hlt : t < (step.run b).1.nextType := Nat.lt_of_lt_of_le ht (b.nextType_le_after [step])
    have hkept : ((step.run b).1.typeAt t).declaration = none :=
      (congrArg TypeEntry.declaration (typeAt_after_fixed ht [step])).trans hnone
    exact (ih hlt hkept).trans (layoutAt_congr (types_run_undeclared ht hnone step))

/-! ## Stacks of wrappers -/

/-- `Wrapped b steps t w`: `w` is `t` under `attributed`, `elaborated` and `unexposed` wrappers. -/
inductive Wrapped (b : Builder) (steps : List Step) (t : TypeId) : TypeId → Prop where
  | base : Wrapped b steps t t
  | wrap {step : Step} {s w : TypeId} (made : b.Makes steps step w) (base : step.base? = some s)
      (wrapper : ∀ name, step ≠ .typedef name s) (rest : Wrapped b steps t s) : Wrapped b steps t w

theorem Makes.wrapper (h : b.Makes steps step w) (hbase : step.base? = some t)
    (hwrapper : ∀ name, step ≠ .typedef name t) (ht : t < w)
    (hnone : ((b.after steps).typeAt t).declaration = none) : w < (b.after steps).nextType ∧
      ((b.after steps).typeAt w).declaration = none ∧
      ((b.after steps).typeAt w).arraySize = Layout.invalid := by
  cases step with
  | attributed | unexposed =>
    obtain ⟨_, _, _, _, hlt, hfixed⟩ := h.fixed fun _ => rfl
    exact ⟨hlt, congrArg TypeEntry.declaration hfixed, congrArg TypeEntry.arraySize hfixed⟩
  | elaborated =>
    cases hbase
    obtain ⟨before, later, rfl, rfl, hlt, hfixed⟩ := h.fixed fun _ => rfl
    have hkept := typeAt_append_fixed ht (.elaborated t :: later)
    have hsame := (congrArg TypeEntry.declaration hkept :)
    exact ⟨hlt, (congrArg TypeEntry.declaration hfixed).trans (hsame.symm.trans hnone),
      congrArg TypeEntry.arraySize hfixed⟩
  | typedef name =>
    cases hbase
    exact absurd rfl (hwrapper name)
  | _ => cases hbase

private theorem Step.mem_wraps_of_base? (h : step.base? = some t) :
    (b.nextType, t) ∈ step.wraps b := by
  cases step with
  | elaborated | attributed | unexposed | typedef =>
    cases h
    exact List.mem_singleton.2 rfl
  | _ => cases h

theorem Makes.layoutAt_wrapper (h : b.Makes steps step w) (hbase : step.base? = some t) (ht : t < w)
    (hw : ((b.after steps).typeAt w).declaration = none)
    (hnone : ((b.after steps).typeAt t).declaration = none) :
    (b.after steps).layoutAt w = (b.after steps).layoutAt t := by
  obtain ⟨before, later, rfl, rfl⟩ := h
  have hwraps := Step.mem_wraps_of_base? (b := b.after before) hbase
  have hlt := (Step.lt_of_wraps hwraps).2.1
  have hlt' := Nat.lt_trans ht hlt
  rw [after_split] at hw hnone ⊢
  have hundeclared : ∀ {s}, s < (step.run (b.after before)).1.nextType →
      (((step.run (b.after before)).1.after later).typeAt s).declaration = none →
      ((step.run (b.after before)).1.typeAt s).declaration = none :=
    fun hs hlast => (congrArg TypeEntry.declaration (typeAt_after_fixed hs later)).symm.trans hlast
  rw [layoutAt_after_undeclared hlt (hundeclared hlt hw),
    layoutAt_after_undeclared hlt' (hundeclared hlt' hnone)]
  exact Step.layoutAt_wraps hwraps hlt'

section Stack

variable (hconnected : Connected b [] steps) (hb : b.Sound)

include hconnected hb

/-- A stack that is `Wrapped` around a type without a declaration has none either, and the same
layout. -/
theorem Wrapped.undeclared (h : b.Wrapped steps a w) (ha : a < (b.after steps).nextType)
    (hnone : ((b.after steps).typeAt a).declaration = none) : a ≤ w ∧ w < (b.after steps).nextType ∧
      ((b.after steps).typeAt w).declaration = none ∧
      (b.after steps).layoutAt w = (b.after steps).layoutAt a := by
  induction h with
  | base => exact ⟨Nat.le_refl _, ha, hnone, rfl⟩
  | wrap made base wrapper rest ih =>
    obtain ⟨hle, -, hinner, hlayout⟩ := ih
    have hlt := made.reference_lt hconnected hb (Step.base?_mem base)
    obtain ⟨hw, hdeclaration, -⟩ := made.wrapper base wrapper hlt hinner
    exact ⟨Nat.le_trans hle (Nat.le_of_lt hlt), hw, hdeclaration,
      (made.layoutAt_wrapper base hlt hdeclaration hinner).trans hlayout⟩

theorem Wrapped.arraySize (h : b.Wrapped steps a w) (ha : a < (b.after steps).nextType)
    (hnone : ((b.after steps).typeAt a).declaration = none) :
    ((b.after steps).typeAt w).arraySize =
      if w = a then ((b.after steps).typeAt a).arraySize else Layout.invalid := by
  cases h with
  | base => rw [if_pos rfl]
  | wrap made base wrapper rest =>
    obtain ⟨hle, -, hinner, -⟩ := rest.undeclared hconnected hb ha hnone
    have hlt := made.reference_lt hconnected hb (Step.base?_mem base)
    rw [if_neg (Nat.ne_of_gt (Nat.lt_of_le_of_lt hle hlt)),
      (made.wrapper base wrapper hlt hinner).2.2]

theorem Wrapped.classifyWithin (h : b.Wrapped steps a w) (hlinked : (b.after steps).unit.Linked)
    {m : Nat} {c : Kind × TypeId} (hclass : (b.after steps).unit.classifyWithin m w = .ok c) :
    ∃ m', (b.after steps).unit.classifyWithin m' a = .ok c := by
  induction h generalizing m with
  | base => exact ⟨m, hclass⟩
  | wrap made base wrapper rest ih =>
    cases m with
    | zero => simp [TranslationUnit.classifyWithin, bind_eq_ok_iff] at hclass
    | succ m =>
      have hne := Nat.ne_of_lt (made.reference_lt hconnected hb (Step.base?_mem base))
      rcases hlinked.classifyWithin_wraps_or (made.wraps base wrapper) hne with hsame | hless
      · exact ih ((hsame m).symm.trans hclass)
      · exact ih ((hless m).symm.trans hclass)

end Stack

theorem IsArray.classifyWithin (h : b.IsArray a e n) (hlinked : b.unit.Linked) {m : Nat}
    {c : Kind × TypeId} (hclass : b.unit.classifyWithin m a = .ok c) : c = (.array, a) := by
  obtain ⟨cursor, hself⟩ := hlinked.declaredType_self (typeAt_of_lt h.lt) h.declaration
  cases m with
  | zero => simp [TranslationUnit.classifyWithin, bind_eq_ok_iff] at hclass
  | succ m =>
    rw [TranslationUnit.classifyWithin, hself] at hclass
    simp only [bind, Except.bind, h.kind] at hclass
    exact (Except.ok.inj hclass).symm

private theorem wrapped_eq_self {n : Int} (h : 0 ≤ n) (hroom : n < 0x8000000000000000) :
    wrapped n = n :=
  Int.bmod_eq_of_le (by omega) (by omega)

theorem size_constantArray (b : Builder) (e : TypeId) (n : Int) (later : List Step) :
    ((((Step.constantArray e n).run b).1.after later).layoutAt b.nextType).size =
      wrapped (n * max (b.typeAt e).size 0) := by
  have htypes : ((Step.constantArray e n).run b).1.unit.types = b.unit.types.push _ := rfl
  have hmade := typeAt_push htypes
  have hlt : b.nextType < ((Step.constantArray e n).run b).1.nextType := by simp [nextType, htypes]
  rw [layoutAt_after_undeclared hlt (by rw [hmade]), layoutAt, hmade]
  exact congrArg wrapped (Int.mul_comm _ n)

/-- All of a stack that is `Wrapped` around an array shows the size that `constantArray` gave it. -/
theorem Wrapped.size_array (h : b.Wrapped steps a w) (hconnected : Connected b [] steps)
    (hb : b.Sound) (hsteps : steps = before ++ .constantArray e n :: later)
    (ha : a = (b.after before).nextType) :
    ((b.after steps).typeAt w).size = wrapped (n * max ((b.after before).typeAt e).size 0) := by
  have hmade : b.Makes steps (.constantArray e n) a := ⟨before, later, hsteps, ha⟩
  have harray := hmade.isArray (hmade.reference_lt hconnected hb (List.mem_singleton.2 rfl))
  obtain ⟨-, -, -, hlayout⟩ := h.undeclared hconnected hb harray.lt harray.declaration
  calc ((b.after steps).typeAt w).size
    _ = ((b.after steps).layoutAt a).size := congrArg Extent.size hlayout
    _ = wrapped (n * max ((b.after before).typeAt e).size 0) := by
      rw [hsteps, ha, after_split]
      exact size_constantArray (b.after before) e n later

theorem layoutAt_element (hsteps : steps = before ++ .constantArray e n :: later)
    (he : e < (b.after before).nextType) (hfinal : ∀ step ∈ later, e ∉ step.completes?) :
    (b.after steps).layoutAt e = (b.after before).layoutAt e := by
  rw [hsteps, after_append]
  refine layoutAt_after he fun step hstep => ?_
  rcases List.mem_cons.1 hstep with rfl | hlast
  · exact nofun
  · exact hfinal step hlast

end Builder

namespace Context

variable {x : Context} {b : Builder} {w a e t container : TypeId} {n : Int} {parent : Option String}
  {index : Nat} {node : VisitNode} {use : TypeUse} {name : String}

private theorem shownSize_of_complete {kind : Kind} {entry : TypeEntry} (h : 0 ≤ entry.size) :
    x.shownSize kind entry = entry.size := if_pos h

/-- Unless it `isOpaque`, an array is resolved to a node of its own, whatever wrappers it was
referred to by. -/
theorem resolve_isArray (hunit : x.unit = b.unit) (hlinked : x.unit.Linked) (ha : b.IsArray a e n)
    (hclass : ∀ c, x.unit.classify w = .ok c → c = (.array, a))
    (hconcrete : ∀ name, x.typeName .array a parent index = .ok name →
      x.switches.isOpaque name = false)
    (h : x.resolve w parent index = .ok (node, container)) :
    node.kind = .array ∧ node.type = a ∧ container = w := by
  have hentry : x.unit.typeAt a = .ok (b.typeAt a) := hunit ▸ Builder.typeAt_of_lt ha.lt
  obtain ⟨cursor, hcursor, hfixed⟩ := hlinked.paired.undeclared ha.declaration
  have hspelling : cursor.spelling = "" := congrArg Cursor.spelling hfixed
  cases hc : x.unit.classify w with
  | error e =>
    simp only [resolve, resolveWithin, hc, bind, Except.bind] at h
    cases h
  | ok c =>
    cases hclass c hc
    simp only [resolve_of_ne_alias hc (by decide), bind_eq_ok_iff, pure_eq_ok_iff] at h
    obtain ⟨entry, hentry', cursor', hcursor', node', hnode, heq⟩ := h
    cases hentry.symm.trans hentry'
    cases hcursor.symm.trans hcursor'
    obtain ⟨hkind, -, htype, -, htypeName, hname⟩ := visitNode_ok hnode
    have hfree := hconcrete _ htypeName
    rw [hspelling, if_pos rfl] at hname
    have hplain : x.isOverridden node' = false := by simp [isOverridden, hname, hfree]
    rw [hplain] at heq
    cases heq
    exact ⟨hkind, htype, rfl⟩

private theorem use_of_visit_isArray (hunit : x.unit = b.unit) (hlinked : x.unit.Linked)
    (ha : b.IsArray a e n) (hclass : ∀ c, x.unit.classify w = .ok c → c = (.array, a))
    (hconcrete : ∀ name, x.typeName .array a parent index = .ok name →
      x.switches.isOpaque name = false)
    {s s' : Session} (h : Returns (x.visit w parent index) s use s') :
    ∃ name, x.use .array name a w = .ok use := by
  have hdescription := description_of_returns h
  simp only [description, bind_eq_ok_iff] at hdescription
  obtain ⟨⟨node, container⟩, hresolve, huse⟩ := hdescription
  obtain ⟨hkind, htype, rfl⟩ := resolve_isArray hunit hlinked ha hclass hconcrete hresolve
  exact ⟨node.typeName, by rwa [← hkind, ← htype]⟩

/-- In the `use` of an array, `count` and `size` are those of the type `w` it was referred to by,
and `elementSize` is that of what the elements are classified as. -/
theorem layer_isArray (hunit : x.unit = b.unit) (ha : b.IsArray a e n) (hw : w < b.nextType)
    (h : x.use .array name a w = .ok use) :
    use.layer.kind = .array ∧ use.layer.count = known (b.typeAt w).arraySize ∧
      use.layer.size = x.shownSize .array (b.typeAt w) ∧
      ∃ kind r element, x.unit.classify e = .ok (kind, r) ∧ x.unit.typeAt r = .ok element ∧
        use.layer.elementSize = some (x.shownSize kind element) := by
  have hentry : x.unit.typeAt a = .ok (b.typeAt a) := hunit ▸ Builder.typeAt_of_lt ha.lt
  have hholder : x.unit.typeAt w = .ok (b.typeAt w) := hunit ▸ Builder.typeAt_of_lt hw
  have hself : x.unit.unwrapAttributed a = .ok a := by
    simp [TranslationUnit.unwrapAttributed, hentry, ha.kind, bind, Except.bind, pure, Except.pure]
  cases use_sound h with
  | leaf unwrapped entry_eq holder_eq layer_eq last => cases last
  | @layered _ _ _ _ _ _ _ layer _ _ _ _ _ unwrapped entry_eq holder_eq layer_eq next classified
    target_eq rest =>
    cases hself.symm.trans unwrapped
    cases hentry.symm.trans entry_eq
    cases hholder.symm.trans holder_eq
    simp only [layerOf, if_true, bind_eq_ok_iff, pure_eq_ok_iff] at layer_eq
    obtain ⟨size, hsize, cursor, -, location, -, rfl⟩ := layer_eq
    refine ⟨rfl, rfl, rfl, ?_⟩
    cases helement : x.elementSize (b.typeAt a) with
    | error e =>
      rw [helement] at hsize
      cases hsize
    | ok shown =>
      rw [helement] at hsize
      cases hsize
      simp only [elementSize, ha.element, bind_eq_ok_iff, pure_eq_ok_iff] at helement
      obtain ⟨⟨kind, r⟩, hclass, element, helement, rfl⟩ := helement
      exact ⟨kind, r, element, hclass, helement, rfl⟩

end Context

/-- The size that is shown for an array of `n` elements: their product `Builder.wrapped` to 64 bits,
or that of a pointer where this is negative. -/
def Context.shownProduct (x : Context) (n size : Int) : Int :=
  if 0 ≤ Builder.wrapped (n * size) then Builder.wrapped (n * size) else x.pointerSize

private theorem Context.shownProduct_of_room {n size : Int} (x : Context) (hn : 0 ≤ n)
    (hsize : 0 ≤ size) (hroom : n * size < 0x8000000000000000) :
    x.shownProduct n size = n * size := by
  have hproduct := Int.mul_nonneg hn hsize
  rw [shownProduct, Builder.wrapped_eq_self hproduct hroom, if_pos hproduct]

/-- A `visit` of an array under attributed, elaborated and unexposed wrappers, if it succeeds, gives
a `TypeUse` of kind `array`. Its `count` is there only without a wrapper. Its `size` is
`shownProduct` of the count and the size that the element type had when the array was made; this is
their product if 64 bits have room for it, and the size is the one that the element type has if it
is not given fields later. Its `elementSize` is that of what the element type stands for, which is
that of the element type itself if the steps are `CompletesInTime` for it. -/
theorem visit_wrapped_array {file triple : String} {pointerBits : Nat}
    {steps before later : List Builder.Step} {x : Context} {a e w : TypeId} {n : Int}
    (hconnected : Builder.Connected (Builder.start file triple pointerBits) [] steps)
    (hunit : x.unit = Builder.build file triple pointerBits steps)
    (hsteps : steps = before ++ .constantArray e n :: later)
    (ha : a = ((Builder.start file triple pointerBits).after before).nextType) (hn : 0 ≤ n)
    (hstack : (Builder.start file triple pointerBits).Wrapped steps a w) {parent : Option String}
    {index : Nat}
    (hconcrete : ∀ name, x.typeName .array a parent index = .ok name →
      x.switches.isOpaque name = false)
    {s s' : Session} {use : TypeUse} (hvisit : Returns (x.visit w parent index) s use s') :
    use.layer.kind = .array ∧ use.layer.count = (if w = a then some n else none) ∧
      use.layer.size = x.shownProduct n
        (max (((Builder.start file triple pointerBits).after before).typeAt e).size 0) ∧
      (∃ kind r target, x.unit.Classifies e kind r ∧ x.unit.typeAt r = .ok target ∧
        use.layer.elementSize = some (x.shownSize kind target)) ∧
      ∀ element, x.unit.typeAt e = .ok element → 0 ≤ element.size →
        (n * element.size < 0x8000000000000000 → (∀ step ∈ later, e ∉ step.completes?) →
          use.layer.size = n * element.size) ∧
        ∀ kin, e ∈ kin →
          Builder.CompletesInTime (Builder.start file triple pointerBits) kin [] steps →
          use.layer.elementSize = some element.size := by
  have hsound := Builder.start_sound file triple pointerBits
  have hlinked : x.unit.Linked := hunit ▸ Builder.build_linked file triple pointerBits steps
  have hmade : (Builder.start file triple pointerBits).Makes steps (.constantArray e n) a :=
    ⟨before, later, hsteps, ha⟩
  have he := hmade.reference_lt hconnected hsound (List.mem_singleton.2 rfl)
  have harray := hmade.isArray he
  change x.unit = ((Builder.start file triple pointerBits).after steps).unit at hunit
  obtain ⟨-, hw, -⟩ := hstack.undeclared hconnected hsound harray.lt harray.declaration
  have hcount := hstack.arraySize hconnected hsound harray.lt harray.declaration
  have hset := hstack.size_array hconnected hsound hsteps ha
  have hclass : ∀ c, x.unit.classify w = .ok c → c = (.array, a) := by
    rw [hunit] at hlinked ⊢
    intro c hc
    obtain ⟨m, hm⟩ := hstack.classifyWithin hconnected hsound hlinked hc
    exact harray.classifyWithin hlinked hm
  obtain ⟨name, huse⟩ := Context.use_of_visit_isArray hunit hlinked harray hclass hconcrete hvisit
  obtain ⟨hkind, hshownCount, hshownSize, kind, r, target, hstands, htarget, hshownElement⟩ :=
    Context.layer_isArray hunit harray hw huse
  have hsize : use.layer.size = x.shownProduct n
      (max (((Builder.start file triple pointerBits).after before).typeAt e).size 0) := by
    rw [hshownSize, Context.shownSize, hset]
    rfl
  refine ⟨hkind, ?_, hsize,
    ⟨kind, r, target, TranslationUnit.classify_sound hstands, htarget, hshownElement⟩,
    fun element helement hcomplete => ⟨fun hroom hfinal => ?_, fun kin hmem hintime => ?_⟩⟩
  · rw [hshownCount, hcount, harray.count]
    split
    · exact if_pos hn
    · rfl
  · have hkept := congrArg Extent.size (Builder.layoutAt_element hsteps (ha ▸ he) hfinal)
    rw [hunit] at helement
    simp only [Builder.layoutAt, Builder.typeAt_of_ok helement] at hkept
    rw [hsize, ← hkept, Int.max_eq_left hcomplete, x.shownProduct_of_room hn hcomplete hroom]
  · rw [hunit] at hlinked hstands htarget helement
    obtain ⟨tied, heven⟩ := hintime.even hsound hconnected (by simp)
      (Builder.start_even file triple pointerBits kin)
    have hsame := congrArg Extent.size
      (heven.layoutAt_classified hlinked hmem (TranslationUnit.classify_sound hstands))
    simp only [Builder.layoutAt, Builder.typeAt_of_ok helement,
      Builder.typeAt_of_ok htarget] at hsame
    rw [hshownElement, Context.shownSize_of_complete (hsame ▸ hcomplete), hsame]

def pointsStart : Builder := Builder.start "a.h" "x86_64-unknown-linux-gnu" 64

/-- Four elements of a record that is referred to by its tag, and a wrapper on the array. -/
def pointsSteps : List Builder.Step :=
  [.primitive .int, .record .struct "Point" [("x", 1), ("y", 1)], .elaborated 2, .constantArray 3 4,
    .attributed 4]

def pointsContext : Context :=
  .ofSettings (Builder.build "a.h" "x86_64-unknown-linux-gnu" 64 pointsSteps) {} 64

/-- The `size` is seen through the wrapper, and the `count` is not. -/
theorem visit_pointsContext : Builder.Connected pointsStart [] pointsSteps ∧
    pointsStart.Wrapped pointsSteps 4 5 ∧
    (∃ element, pointsContext.unit.typeAt 3 = .ok element ∧ element.size = 8) ∧
    Builder.CompletesInTime pointsStart [2, 3] [] pointsSteps ∧
    (∃ use s', Returns (pointsContext.visit 4 none 0) {} use s' ∧ use.layer.kind = .array ∧
      use.layer.count = some 4 ∧ use.layer.elementSize = some 8 ∧ use.layer.size = 32) ∧
    ∃ use s', Returns (pointsContext.visit 5 none 0) {} use s' ∧ use.layer.kind = .array ∧
      use.layer.count = none ∧ use.layer.elementSize = some 8 ∧ use.layer.size = 32 := by
  have hconnected : Builder.Connected pointsStart [] pointsSteps := by decide +kernel
  have hintime : Builder.CompletesInTime pointsStart [2, 3] [] pointsSteps := by decide +kernel
  have hstack : pointsStart.Wrapped pointsSteps 4 5 := .wrap (.of_take 4 rfl rfl) rfl nofun .base
  obtain ⟨element, helement, hsize⟩ : ∃ element, pointsContext.unit.typeAt 3 = .ok element ∧
      element.size = 8 :=
    ⟨_, rfl, rfl⟩
  have hconcrete : ∀ name, pointsContext.typeName .array 4 none 0 = .ok name →
      pointsContext.switches.isOpaque name = false := fun _ _ => rfl
  have hcomplete : 0 ≤ element.size := by rw [hsize]; decide
  have hroom : 4 * element.size < 0x8000000000000000 := by rw [hsize]; decide
  have hsplit : pointsSteps = pointsSteps.take 3 ++ .constantArray 3 4 :: pointsSteps.drop 4 := rfl
  obtain ⟨use, s, hvisit⟩ : ∃ use s, Returns (pointsContext.visit 4 none 0) {} use s := ⟨_, _, rfl⟩
  obtain ⟨use', s', hvisit'⟩ : ∃ use s, Returns (pointsContext.visit 5 none 0) {} use s :=
    ⟨_, _, rfl⟩
  have hfinal : ∀ step ∈ pointsSteps.drop 4, 3 ∉ step.completes? := by decide
  obtain ⟨hkind, hcount, -, -, hsizes⟩ :=
    visit_wrapped_array hconnected rfl hsplit rfl (by decide) .base hconcrete hvisit
  obtain ⟨hkind', hcount', -, -, hsizes'⟩ :=
    visit_wrapped_array hconnected rfl hsplit rfl (by decide) hstack hconcrete hvisit'
  obtain ⟨hall, heach⟩ := hsizes element helement hcomplete
  obtain ⟨hall', heach'⟩ := hsizes' element helement hcomplete
  refine ⟨hconnected, hstack, ⟨element, helement, hsize⟩, hintime,
    ⟨use, s, hvisit, hkind, hcount, ?_, ?_⟩, ⟨use', s', hvisit', hkind', hcount', ?_, ?_⟩⟩
  · rw [heach [2, 3] (by decide) hintime, hsize]
  · rw [hall hroom hfinal, hsize]; rfl
  · rw [heach' [2, 3] (by decide) hintime, hsize]
  · rw [hall' hroom hfinal, hsize]; rfl

end HeaderSurvey
