import HeaderSurvey.Proofs.Descriptions
import HeaderSurvey.Proofs.References

/-! The names that types without a name get from a signature. A function and a function pointer
number the types of their signatures for it, the result and the first parameter both with zero. -/
namespace HeaderSurvey

/-! ## Synthesized names -/

namespace Marker

/-- The part of `Marker.text` in which markers differ. -/
def stem : Marker → List Char
  | anonymous => "_ANONYMOUS".toList
  | unnamed => "_UNNAMED".toList

private theorem toList_text (m : Marker) : m.text.toList = m.stem ++ "_FIEL".toList ++ ['D'] := by
  cases m <;> decide

/-- Two lists that end in letters with `P` after one without. -/
theorem append_cons_inj {α : Type} {P : α → Bool} {l l' d d' : List α} {c c' : α} (hc : P c = false)
    (hc' : P c' = false) (hd : ∀ a ∈ d, P a = true) (hd' : ∀ a ∈ d', P a = true)
    (h : l ++ c :: d = l' ++ c' :: d') : l = l' ∧ c = c' ∧ d = d' := by
  rcases List.append_eq_append_iff.1 h with ⟨mid, rfl, hmid⟩ | ⟨mid, rfl, hmid⟩
  · cases mid with
    | nil => simpa using hmid
    | cons a mid =>
      have hmem : c' ∈ d := by simp [(List.cons.inj hmid).2]
      simp [hd c' hmem] at hc'
  · cases mid with
    | nil => simpa [eq_comm] using hmid
    | cons a mid =>
      have hmem : c ∈ d' := by simp [(List.cons.inj hmid).2]
      simp [hd' c hmem] at hc

theorem stem_inj {m m' : Marker} {l l' : List Char} (h : l ++ m.stem = l' ++ m'.stem) : m = m' := by
  have hlast : m.stem.getLast? = m'.stem.getLast? := by
    have hsome : ∀ m : Marker, m.stem.getLast?.isSome = true := fun m => by cases m <;> decide
    have hboth := congrArg List.getLast? h
    rwa [List.getLast?_append, List.getLast?_append, Option.or_of_isSome (hsome m),
      Option.or_of_isSome (hsome m')] at hboth
  revert hlast
  cases m <;> cases m' <;> decide

/-- `Marker.name` is injective in the marker, the parent and the number. -/
theorem name_inj {m m' : Marker} {parent parent' : String} {i j : Nat}
    (h : m.name parent i = m'.name parent' j) : m = m' ∧ parent = parent' ∧ i = j := by
  have hdigits : ∀ (n : Nat), ∀ c ∈ Nat.toDigits 10 n, c.isDigit = true :=
    fun n c hc => Nat.isDigit_of_mem_toDigits (by decide) (by decide) hc
  have hlists := congrArg String.toList h
  simp only [name, String.toList_append, toList_text, Nat.toString_eq_repr, Nat.toList_repr,
    List.append_assoc, List.singleton_append] at hlists
  simp only [← List.append_assoc] at hlists
  obtain ⟨hfronts, -, hnumbers⟩ :=
    append_cons_inj (by decide) (by decide) (hdigits i) (hdigits j) hlists
  have hstems := List.append_cancel_right hfronts
  obtain rfl := stem_inj hstems
  have hvalue := congrArg (Nat.ofDigitChars 10 · 0) hnumbers
  exact ⟨rfl, String.toList_inj.1 (List.append_cancel_right hstems), by simpa using hvalue⟩

end Marker

namespace Context

variable {x : Context} {node : VisitNode} {s s' : Session} {t r : TypeId} {m : Marker}
  {parent : String} {index : Nat} {use : TypeUse}

/-- `t` is classified as `r`, which is named after its parent by `m`, and which is no alias and no
function. -/
structure Nameless (x : Context) (t r : TypeId) (m : Marker) : Prop where
  classified : ∃ kind, x.unit.classify t = .ok (kind, r) ∧ kind ≠ .typeAlias ∧ kind ≠ .function
  marked : ∃ entry declaration, x.unit.typeAt r = .ok entry ∧
    x.unit.declarationOf entry = .ok declaration ∧
    Marker.of? entry declaration = some m

/-- `typeName` of a type with a `Marker` is its `Marker.name`, unless it is `anonymous` and the
parent has no name. -/
theorem typeName_of_marker {kind : Kind} {entry : TypeEntry} {declaration : Cursor}
    (hkind : ¬ (kind = .macroObject ∨ kind = .function)) (hentry : x.unit.typeAt t = .ok entry)
    (hdeclaration : x.unit.declarationOf entry = .ok declaration)
    (hm : Marker.of? entry declaration = some m) :
    x.typeName kind t (some parent) index =
      if m = .anonymous ∧ parent =
        "" then .error (.namelessDeclaration declaration.kind entry.spelling)
      else .ok (m.name parent index) := by
  unfold typeName
  rw [if_neg hkind, hentry]
  simp only [bind, Except.bind, hdeclaration, hm, Option.getD_some]
  rfl

private theorem typeName_marked {kind : Kind} {name : String} {entry : TypeEntry}
    {declaration : Cursor} (hentry : x.unit.typeAt t = .ok entry)
    (hdeclaration : x.unit.declarationOf entry = .ok declaration)
    (hm : Marker.of? entry declaration = some m) (hkind : kind.isType = true)
    (h : x.typeName kind t (some parent) index = .ok name) : name = m.name parent index := by
  have hother : ¬ (kind = .macroObject ∨ kind = .function) := by
    rintro (rfl | rfl) <;> cases hkind
  rw [typeName_of_marker hother hentry hdeclaration hm] at h
  split at h
  · cases h
  · exact (Except.ok.inj h).symm

theorem Nameless.resolve (h : x.Nameless t r m) {offered : VisitNode} {container : TypeId}
    (hresolve : x.resolve t (some parent) index = .ok (offered, container)) :
    offered.type = r ∧ offered.typeName = m.name parent index ∧ offered.kind.isType = true := by
  obtain ⟨kind, hclass, halias, hfunction⟩ := h.classified
  obtain ⟨entry, declaration, hentry, hdeclaration, hm⟩ := h.marked
  have htype := (TranslationUnit.classify_sound hclass).kind_isType.resolve_left hfunction
  rw [resolve_of_ne_alias hclass halias] at hresolve
  simp only [bind_eq_ok_iff, pure_eq_ok_iff, Prod.mk.injEq] at hresolve
  obtain ⟨_, -, cursor, -, made, hmade, rfl, -⟩ := hresolve
  obtain ⟨hkind, -, hr, -, hname, -⟩ := visitNode_ok hmade
  have hsynthesized := typeName_marked hentry hdeclaration hm htype hname
  split
  · exact ⟨hr, hsynthesized, rfl⟩
  · exact ⟨hr, hsynthesized, hkind ▸ htype⟩

/-! ## Offers -/

/-- Between the sessions the type `r` was offered under `name`, with that `verdict`. -/
def OfferedBetween (s s' : Session) (r : TypeId) (name : String) (verdict : Verdict) : Prop :=
  ∃ new offered, s'.journal = new ++ s.journal ∧ .offered offered verdict ∈ new ∧ offered.type = r ∧
    offered.key = name

theorem OfferedBetween.extend {s₁ s₂ : Session} {name : String} {verdict : Verdict}
    (h : OfferedBetween s₁ s₂ r name verdict) (hbefore : s.journal <:+ s₁.journal)
    (hafter : s₂.journal <:+ s'.journal) : OfferedBetween s s' r name verdict := by
  obtain ⟨new, offered, hnew, hmem, htype, hkey⟩ := h
  obtain ⟨before, hbefore⟩ := hbefore
  obtain ⟨after, hafter⟩ := hafter
  refine ⟨after ++ (new ++ before), offered, ?_, by simp [hmem], htype, hkey⟩
  rw [← hafter, hnew, ← hbefore, List.append_assoc, List.append_assoc]

theorem Offers.eq_duplicate {offered : VisitNode} {verdict : Verdict}
    (h : x.Offers offered verdict s s') (henabled : offered.category.isEnabled x.switches = true)
    (hvisited : offered.key ∈ (s.frontier offered.category).visited) : verdict = .duplicate := by
  cases verdict with
  | duplicate => rfl
  | disabled => simp [h.disabled.1 rfl] at henabled
  | filtered => exact absurd hvisited (h.fresh (.inr rfl))
  | accepted => exact absurd hvisited (h.fresh (.inl rfl))

/-- `visit` of a `Nameless` type describes it under its `Marker.name`, and offers it under that. -/
theorem Nameless.visit (h : x.Nameless t r m)
    (hvisit : Returns (x.visit t (some parent) index) s use s') :
    use.name = m.name parent index ∧ use.name ∈ (s'.frontier .types).visited ∧
      ∃ verdict, OfferedBetween s s' r use.name verdict ∧
        (use.name ∈ (s.frontier .types).visited → verdict = .duplicate) := by
  simp only [Context.visit, returns_bind, returns_lift] at hvisit
  obtain ⟨⟨offered, container⟩, _, ⟨hresolve, rfl⟩, hvisit⟩ := hvisit
  obtain ⟨hr, hname, htype⟩ := h.resolve hresolve
  have hfunction : offered.kind ≠ .function := by
    intro hfunction
    rw [hfunction] at htype
    cases htype
  rw [if_pos hfunction] at hvisit
  simp only [returns_bind, returns_lift, returns_modify, returns_pure] at hvisit
  obtain ⟨verdict, s₁, hoffer, described, _, ⟨huse, rfl⟩, _, _, rfl, rfl, rfl⟩ := hvisit
  have hoffers := offer_returns hoffer
  have hdescribed := (use_sound huse).name_kind.1
  have hkey : offered.key = described.name := by
    rw [hdescribed, VisitNode.key, htype, hname]
    simp [m.name_ne_empty]
  have hcategory : offered.category = .types := Kind.category_types htype
  have henabled : offered.category.isEnabled x.switches = true := by
    rw [hcategory]
    rfl
  have hvisited := hoffers.mem_visited henabled
  rw [hcategory, hkey] at hvisited
  refine ⟨hdescribed.trans hname, by simpa using hvisited, verdict, ?_, fun hmem => ?_⟩
  · refine ⟨[.described described, .offered offered verdict], offered, ?_, by simp, hr, hkey⟩
    rw [Session.journal_record, hoffers.journal]
    rfl
  · exact hoffers.eq_duplicate henabled (by rwa [hcategory, hkey])

theorem Grows.extends {P : VisitNode → Prop} (h : x.Grows P s s') : s.journal <:+ s'.journal ∧
    ∀ c, (s.frontier c).visited <:+ (s'.frontier c).visited := by
  cases h with
  | offer source offered =>
    refine ⟨offered.journal ▸ List.suffix_cons .., fun c => ?_⟩
    rw [offered.visited]
    exact List.suffix_append ..
  | describe => exact ⟨List.suffix_cons .., fun c => by simp⟩

theorem Unfolds.extends (h : x.Unfolds s s') : s.journal <:+ s'.journal ∧
    ∀ c, (s.frontier c).visited <:+ (s'.frontier c).visited := by
  refine keeps_run (Q := fun t => s.journal <:+ t.journal ∧
    ∀ c, (s.frontier c).visited <:+ (t.frontier c).visited)
    (fun t t' hstep ht => ?_) h ⟨List.suffix_rfl, fun _ => List.suffix_rfl⟩
  exact ⟨ht.1.trans hstep.extends.1, fun c => (ht.2 c).trans (hstep.extends.2 c)⟩

/-! ## Signatures -/

/-- The types of a function or a function pointer, the result before the parameters. -/
def signature (x : Context) (node : VisitNode) : Except SurveyError (List TypeId) := do
  let entry ← x.unit.typeAt node.type
  if node.kind = .function then
    let cursor ← x.unit.cursorAt node.cursor
    let children ← x.unit.childrenOfKind cursor .parmDecl
    return entry.resultId :: children.map (·.2.type)
  else
    let function ← x.pointedFunction entry
    return function.resultId :: function.arguments

/-- Visits `types` in order, the first two with the same number. -/
def visitSignature (x : Context) (parent : String) (types : List TypeId) : SurveyM (List TypeUse) :=
  types.zipIdx.mapM fun (t, position) => x.visit t (some parent) (position - 1)

private theorem visitSignature_cons {result : TypeUse} {parameters : List TypeUse}
    {ts : List TypeId} {s₁ : Session} (hresult : Returns (x.visit t (some parent) 0) s result s₁)
    (hparameters : Returns (ts.zipIdx.mapM fun (t, i) => x.visit t (some parent) i) s₁
      parameters s') :
    Returns (x.visitSignature parent (t :: ts)) s (result :: parameters) s' := by
  have hshifted : Returns ((ts.zipIdx 1).mapM fun (t, position) =>
      x.visit t (some parent) (position - 1)) s₁
      parameters s' := by
    have hmoved := mapM_map_returns
      (g := fun (t, position) => x.visit t (some parent) (position - 1))
      (p := fun (t, i) => (t, i + 1)) (q := id) (fun _ _ _ _ h => h) hparameters
    simpa [List.zipIdx_succ] using hmoved
  simp only [visitSignature, List.zipIdx_cons, List.mapM_cons, returns_bind, returns_pure]
  exact ⟨result, s₁, hresult, parameters, s', hshifted, rfl, rfl⟩

private theorem finishParameter_visits {c : Cursor} {parameter : FunctionParameter}
    (h : Returns (x.finishParameter node c index) s parameter s') :
    Returns (x.visit c.type (some node.name) index) s parameter.type s' := by
  simp only [finishParameter, returns_bind, returns_lift, returns_pure] at h
  obtain ⟨type, _, hvisit, entry, _, ⟨-, rfl⟩, location, _, ⟨-, rfl⟩, rfl, rfl⟩ := h
  exact hvisit

/-- `finish` of a function or a function pointer is `visitSignature`. -/
theorem finish_signature {result : Node}
    (hkind : node.kind = .function ∨ node.kind = .functionPointer)
    (h : Returns (x.finish node) s result s') : ∃ types, x.signature node = .ok types ∧
      Returns (x.visitSignature node.name types) (s.record (.handled node)) result.uses s' := by
  simp only [finish, returns_bind, returns_modify] at h
  obtain ⟨_, _, rfl, h⟩ := h
  rcases hkind with hkind | hkind
  · simp only [hkind, finishFunction, returns_bind, returns_lift, returns_pure] at h
    obtain ⟨entry, _, ⟨hentry, rfl⟩, resultUse, s₁, hresult, cursor, _, ⟨hcursor, rfl⟩, children, _,
      ⟨hchildren, rfl⟩, parameters, s₂, hparameters, rfl, rfl⟩ := h
    refine ⟨entry.resultId :: children.map (·.2.type), ?_, visitSignature_cons hresult ?_⟩
    · simp [signature, hentry, hkind, hcursor, hchildren, bind, Except.bind, pure, Except.pure]
    · rw [List.zipIdx_map]
      exact mapM_map_returns (fun _ _ _ _ h => finishParameter_visits h) hparameters
  · simp only [hkind, finishFunctionPointer, returns_bind, returns_lift, returns_pure] at h
    obtain ⟨entry, _, ⟨hentry, rfl⟩, function, _, ⟨hfunction, rfl⟩, resultUse, s₁, hresult,
        parameters, s₂,
      hparameters, rfl, rfl⟩ := h
    refine ⟨function.resultId :: function.arguments, ?_, visitSignature_cons hresult ?_⟩
    · simp [signature, hentry, hkind, hfunction, bind, Except.bind, pure, Except.pure]
    · have hvisits := mapM_map_returns (g := fun (t, i) => x.visit t (some node.name) i) (p := id)
        (q := PointerParameter.type) (fun a s parameter s' h => ?_) hparameters
      · simpa using hvisits
      · simp only [returns_bind, returns_pure] at h
        obtain ⟨use, _, hvisit, rfl, rfl⟩ := h
        exact hvisit

theorem mapM_visit_unfolds {as : List (TypeId × Nat)} {uses : List TypeUse}
    (h : Returns (as.mapM fun (t, position) => x.visit t (some parent) (position - 1)) s uses s') :
    x.Unfolds s s' :=
  (mapM_returns (Q := fun _ _ => True) (fun _ _ _ _ _ h => ⟨(visit_returns h).1, trivial⟩)
    (fun _ _ _ _ _ => trivial)
    h).1

theorem visitSignature_pair {types : List TypeId} {uses : List TypeUse} {p q : Nat} {t' : TypeId}
    (h : Returns (x.visitSignature parent types) s uses s') (hpq : p < q) (ht : types[p]? = some t)
    (ht' : types[q]? = some t') :
    ∃ use use' s₁ s₂ s₃ s₄, uses[p]? = some use ∧ uses[q]? = some use' ∧
      x.Unfolds s s₁ ∧ Returns (x.visit t (some parent) (p - 1)) s₁ use s₂ ∧ x.Unfolds s₂ s₃ ∧
      Returns (x.visit t' (some parent) (q - 1)) s₃ use' s₄ ∧ x.Unfolds s₄ s' := by
  have hp : (types.zipIdx.take q)[p]? = some (t, p) := by simp [hpq, List.getElem?_zipIdx, ht]
  have hq : types.zipIdx[q]? = some (t', q) := by simp [List.getElem?_zipIdx, ht']
  obtain ⟨use', s₃, s₄, huse', hfirst, hvisit', hlast⟩ := mapM_at h hq
  obtain ⟨use, s₁, s₂, huse, hbefore, hvisit, hbetween⟩ := mapM_at hfirst hp
  rw [List.getElem?_take_of_lt hpq] at huse
  exact ⟨use, use', s₁, s₂, s₃, s₄, huse, huse', mapM_visit_unfolds hbefore, hvisit,
    mapM_visit_unfolds hbetween, hvisit', mapM_visit_unfolds hlast⟩

end Context

open Context

/-- The names that `finish` of a function or a function pointer gives to two `Nameless` types of its
signature. They are the same only for the result and the first parameter, if both have the same
`Marker`; then the type of the parameter is dropped as a `duplicate` of the other. -/
theorem finish_signature_names {x : Context} {node : VisitNode} {s s' : Session} {result : Node}
    (hkind : node.kind = .function ∨ node.kind = .functionPointer)
    (h : Returns (x.finish node) s result s') :
    ∃ types, x.signature node = .ok types ∧ result.uses.length = types.length ∧
      ∀ p q t t' r r' m m', p < q → types[p]? = some t → types[q]? = some t' → x.Nameless t r m →
        x.Nameless t' r' m' → ∃ use use' verdict verdict',
          result.uses[p]? = some use ∧ result.uses[q]? = some use' ∧
          OfferedBetween s s' r use.name verdict ∧ OfferedBetween s s' r' use'.name verdict' ∧
          (use.name = use'.name ↔ p = 0 ∧ q = 1 ∧ m = m') ∧
          (use.name = use'.name → verdict' = .duplicate) := by
  obtain ⟨types, hsignature, hvisits⟩ := finish_signature hkind h
  refine ⟨types, hsignature, by simpa using (mapM_getElem? hvisits).1, ?_⟩
  intro p q t t' r r' m m' hpq ht ht' hnameless hnameless'
  obtain ⟨use, use', s₁, s₂, s₃, s₄, huse, huse', hbefore, hvisit, hbetween, hvisit', hlast⟩ :=
    visitSignature_pair hvisits hpq ht ht'
  obtain ⟨hname, hvisited, verdict, hoffered, -⟩ := hnameless.visit hvisit
  obtain ⟨hname', -, verdict', hoffered', hduplicate⟩ := hnameless'.visit hvisit'
  have hstart : s.journal <:+ (s.record (.handled node)).journal := List.suffix_cons ..
  have htail : x.Unfolds s₂ s' := hbetween.trans ((visit_returns hvisit').1.trans hlast)
  have hfront : x.Unfolds (s.record (.handled node)) s₃ :=
    hbefore.trans ((visit_returns hvisit).1.trans hbetween)
  refine ⟨use, use', verdict, verdict', huse, huse',
    hoffered.extend (hstart.trans hbefore.extends.1) htail.extends.1,
    hoffered'.extend (hstart.trans hfront.extends.1) hlast.extends.1, ?_,
    fun hsame => hduplicate ?_⟩
  · rw [hname, hname']
    constructor
    · intro hsame
      obtain ⟨hm, -, hnumber⟩ := Marker.name_inj hsame
      exact ⟨by omega, by omega, hm⟩
    · rintro ⟨rfl, rfl, rfl⟩
      rfl
  · rw [← hsame]
    exact (hbetween.extends.2 .types).subset hvisited

/-- A function that takes an anonymous struct and returns another one. -/
def twinSteps : List Builder.Step :=
  [.primitive .int, .anonymousRecord .struct [("x", 1)], .anonymousRecord .struct [("y", 1)],
    .function "f" 2 [("p", 3)] false]

def twinContext : Context :=
  .ofSettings (Builder.build "a.h" "x86_64-unknown-linux-gnu" 64 twinSteps) {} 64

def twinNode : VisitNode :=
  { kind := .function, name := "f", typeName := "", cursor := 7, type := 4, parent := none,
    location := ⟨"a.h", "a.h", 5, 1⟩, size := 1, align := some 4 }

theorem finish_twinNode_names : twinContext.visitNode .function "f" 7 4 none 0 = .ok twinNode ∧
    ∃ result s' use use', Returns (twinContext.finish twinNode) {} result s' ∧
    twinContext.signature twinNode = .ok [2, 3] ∧ twinContext.Nameless 2 2 .anonymous ∧
    twinContext.Nameless 3 3 .anonymous ∧ result.uses[0]? = some use ∧ result.uses[1]? = some use' ∧
    use.name = use'.name ∧ OfferedBetween {} s' 3 use'.name .duplicate := by
  have hsignature : twinContext.signature twinNode = .ok [2, 3] := rfl
  have hfirst : twinContext.Nameless 2 2 .anonymous :=
    ⟨⟨.struct, rfl, by decide, by decide⟩, _, _, rfl, rfl, rfl⟩
  have hsecond : twinContext.Nameless 3 3 .anonymous :=
    ⟨⟨.struct, rfl, by decide, by decide⟩, _, _, rfl, rfl, rfl⟩
  refine ⟨rfl, ?_⟩
  have hok : (twinContext.finish twinNode {}).1.isOk = true := by decide +kernel
  obtain ⟨result, s', hrun⟩ := exists_returns hok
  obtain ⟨types, htypes, -, hnames⟩ := finish_signature_names (.inl rfl) hrun
  cases hsignature.symm.trans htypes
  obtain ⟨use, use', verdict, verdict', huse, huse', -, hoffered, hsame, hdropped⟩ :=
    hnames 0 1 2 3 2 3 .anonymous .anonymous (by decide) rfl rfl hfirst hsecond
  have hsame := hsame.2 ⟨rfl, rfl, rfl⟩
  rw [hdropped hsame] at hoffered
  exact ⟨result, s', use, use', hrun, hsignature, hfirst, hsecond, huse, huse', hsame, hoffered⟩

end HeaderSurvey
