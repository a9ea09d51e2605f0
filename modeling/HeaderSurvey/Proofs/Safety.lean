import HeaderSurvey.Proofs.Discovery
import HeaderSurvey.Proofs.Validity

/-! What cannot go wrong on a valid unit: no handle outside its arena is looked up. If the invalid
type is declared nowhere, no walk along pointers, arrays and aliases goes on without end either. -/
namespace HeaderSurvey

/-- No look-up outside an arena and, if `strict`, no walk that was given up. -/
def SurveyError.Tame (strict : Prop) (e : SurveyError) : Prop :=
  (∀ h, e ≠ .dangling h) ∧ (strict → e ≠ .unending)

/-- If `r` is an error, it is `SurveyError.Tame`. -/
abbrev Tame {α : Type} (strict : Prop) (r : Except SurveyError α) : Prop :=
  OnlyErrors (SurveyError.Tame strict) r

/-- If the step fails from `s`, it fails with a tame error. -/
abbrev TameStep {σ α : Type} (strict : Prop) (m : StepM σ α) (s : σ) : Prop :=
  OnlyFails (SurveyError.Tame strict) m s

namespace TranslationUnit

variable {u : TranslationUnit} {strict : Prop} {t : TypeId} {c : CursorId}

theorem typeAt_tame (ht : t < u.types.size) : Tame strict (u.typeAt t) := by
  unfold typeAt
  rw [Array.getElem?_eq_getElem ht]
  exact .ok _

theorem cursorAt_tame (hc : c < u.cursors.size) : Tame strict (u.cursorAt c) := by
  unfold cursorAt
  rw [Array.getElem?_eq_getElem hc]
  exact .ok _

theorem unwrapAttributed_tame (ht : t < u.types.size) : Tame strict (u.unwrapAttributed t) :=
  (typeAt_tame ht).bind fun _ _ => .ok _

theorem classify_lt {kind : Kind} {r : TypeId} (hc : u.classify t = .ok (kind, r)) :
    r < u.types.size := by
  obtain ⟨_, hr, -⟩ := (classify_sound hc).covered
  exact lt_of_typeAt hr

theorem childrenWhere_tame {cursor : Cursor} (hc : cursor.InRange u) (test : Cursor → Bool) :
    Tame strict (u.childrenWhere cursor test) := by
  refine (OnlyErrors.mapM fun id hid => ?_).bind fun _ _ => .ok _
  exact (cursorAt_tame (hc.children id hid)).bind fun _ _ => .ok _

namespace Valid

theorem unwrapAttributed_lt (h : u.Valid) {t' : TypeId} (ht : u.unwrapAttributed t = .ok t') :
    t' < u.types.size := by
  simp only [unwrapAttributed, bind_eq_ok_iff, pure_eq_ok_iff] at ht
  obtain ⟨entry, he, rfl⟩ := ht
  split
  · exact (h.entry_inRange he).modified
  · exact lt_of_typeAt he

private theorem declaredType_tame (h : u.Valid) (ht : t < u.types.size) :
    Tame strict (u.declaredType t) := by
  refine (typeAt_tame ht).bind fun entry he => ?_
  refine (cursorAt_tame (h.entry_inRange he).declaration).bind fun c hc => ?_
  split
  · exact .ok _
  · exact (typeAt_tame (h.cursor_inRange hc).type).bind fun _ _ => .ok _

private theorem pointsToFunction_tame (h : u.Valid) {entry : TypeEntry} (he : entry.InRange u) :
    Tame strict (u.pointsToFunction entry) := by
  refine (unwrapAttributed_tame he.pointee).bind fun t ht => ?_
  have hlt := h.unwrapAttributed_lt ht
  refine (typeAt_tame hlt).bind fun pointee hp => ?_
  exact (typeAt_tame ((h.entry_inRange hp).canonical t hlt)).bind fun _ _ => .ok _

private theorem classifyWithin_tame (h : u.Valid) {n : Nat} (ht : t < u.types.size) :
    Tame strict (u.classifyWithin n t) := by
  induction n generalizing t with
  | zero => exact (typeAt_tame ht).bind fun _ _ => .error ⟨by simp, by simp⟩
  | succ n ih =>
    refine (h.declaredType_tame ht).bind fun d hd => ?_
    obtain ⟨entry, -, hdecl, he, -⟩ := declaredType_ok hd
    have hrange := h.entry_inRange he
    have hcursor := h.cursor_inRange hdecl
    dsimp only
    split
    · exact .ok _
    · split
      case h_3 =>
        refine (typeAt_tame hcursor.underlying).bind fun underlying _ => ?_
        split
        · exact .ok _
        · refine (ih hcursor.underlying).bind fun r hr => ?_
          obtain ⟨_, hr', -⟩ := (classifyWithin_sound hr).covered
          exact (typeAt_tame (lt_of_typeAt hr')).bind fun _ _ => .ok _
      case h_6 => exact (h.pointsToFunction_tame hrange).bind fun _ _ => .ok _
      case h_7 => exact ih hrange.modified
      case h_8 => exact ih hrange.named
      case h_11 =>
        split
        · exact .error ⟨by simp, by simp⟩
        · exact ih (hrange.canonical _ (lt_of_typeAt he))
      case h_12 => exact .error ⟨by simp, by simp⟩
      all_goals exact .ok _

theorem classify_tame (h : u.Valid) (ht : t < u.types.size) : Tame strict (u.classify t) :=
  h.classifyWithin_tame ht

end Valid

end TranslationUnit

namespace Context

variable {x : Context} {strict : Prop} {rank : TypeId → Nat} {kind : Kind} {name : String}
  {t : TypeId} {entry : TypeEntry} {parent : Option String} {index : Nat}

theorem locate_tame (p : Places) (c : Cursor) (entry : TypeEntry) :
    Tame strict (p.locate c entry) := by
  unfold Places.locate
  split_ifs
  · exact .ok _
  · exact .error ⟨by simp, by simp⟩
  · exact .ok _

section Errors

variable {P : SurveyError → Prop}

private theorem spelledName_onlyErrors (helement : OnlyErrors P (x.unit.typeAt entry.elementId)) :
    OnlyErrors P (x.spelledName entry) := by
  have harray : ∀ count, OnlyErrors P (x.arrayName entry count) := fun count =>
    helement.bind fun _ _ => .ok _
  unfold spelledName
  split
  · exact harray _
  · exact harray _
  · exact .ok _

/-- `typeName` fails as its look-ups do, or with `namelessDeclaration` or `emptyTypeName`. -/
theorem typeName_onlyErrors (hnameless : ∀ kind spelling, P (.namelessDeclaration kind spelling))
    (hempty : ∀ spelling, P (.emptyTypeName spelling)) (htype : OnlyErrors P (x.unit.typeAt t))
    (hdeclaration : ∀ entry, x.unit.typeAt t = .ok entry →
      OnlyErrors P (x.unit.declarationOf entry))
    (helement : ∀ entry, x.unit.typeAt t = .ok entry →
      OnlyErrors P (x.unit.typeAt entry.elementId)) :
    OnlyErrors P (x.typeName kind t parent index) := by
  unfold typeName
  split
  · exact .ok _
  · refine htype.bind fun entry he => (hdeclaration entry he).bind fun declaration _ => ?_
    dsimp only
    split
    · split
      · exact .error (hnameless _ _)
      · exact .ok _
    · refine (spelledName_onlyErrors (helement entry he)).bind fun name _ => ?_
      split
      · exact .ok _
      · split
        · exact .ok _
        · exact .error (hempty _)

theorem layerOf_onlyErrors (holder : TypeEntry) (hsize : OnlyErrors P (x.elementSize entry))
    (hdeclaration : OnlyErrors P (x.unit.declarationOf entry))
    (hplace : ∀ declaration, x.unit.declarationOf entry = .ok declaration →
      OnlyErrors P (x.places.locate declaration entry)) :
    OnlyErrors P (x.layerOf kind name entry holder) := by
  have hrest : ∀ size, OnlyErrors P (do
      let declaration ← x.unit.declarationOf entry
      let location ← x.places.locate declaration entry
      return ({ name, kind, size := x.shownSize kind holder, align := known holder.align,
                elementSize := size, count := known holder.arraySize, location,
                anonymous := declaration.anonymous } : TypeLayer)) := fun size =>
    hdeclaration.bind fun declaration hd => (hplace declaration hd).bind fun _ _ => .ok _
  unfold layerOf
  split
  · exact (hsize.map _).bind fun size _ => hrest size
  · exact hrest none

end Errors

theorem typeName_tame (h : x.unit.Valid) (ht : t < x.unit.types.size) :
    Tame strict (x.typeName kind t parent index) := by
  refine typeName_onlyErrors (fun _ _ => ⟨by simp, by simp⟩) (fun _ => ⟨by simp, by simp⟩)
    (TranslationUnit.typeAt_tame ht) (fun entry he => ?_) fun entry he => ?_
  · exact TranslationUnit.cursorAt_tame (h.entry_inRange he).declaration
  · exact TranslationUnit.typeAt_tame (h.entry_inRange he).element

theorem layerOf_tame (h : x.unit.Valid) (he : entry.InRange x.unit) (holder : TypeEntry) :
    Tame strict (x.layerOf kind name entry holder) := by
  refine layerOf_onlyErrors holder ?_ (TranslationUnit.cursorAt_tame he.declaration)
    fun _ _ => locate_tame _ _ _
  refine (h.classify_tame he.element).bind fun r hr => ?_
  exact (TranslationUnit.typeAt_tame (TranslationUnit.classify_lt hr)).bind fun _ _ => .ok _

theorem visitNode_tame (h : x.unit.Valid) {c : CursorId} (hc : c < x.unit.cursors.size)
    (ht : t < x.unit.types.size) : Tame strict (x.visitNode kind name c t parent index) := by
  refine (typeName_tame h ht).bind fun typeName _ => ?_
  refine (TranslationUnit.cursorAt_tame hc).bind fun cursor _ => ?_
  refine (TranslationUnit.typeAt_tame ht).bind fun entry _ => ?_
  exact (locate_tame _ _ _).bind fun _ _ => .ok _

private theorem namedBy_tame (h : x.unit.Valid) {referrer : Option TypeId}
    (hr : ∀ r ∈ referrer, r < x.unit.types.size) (node : VisitNode) :
    Tame strict (x.namedBy referrer node) := by
  unfold namedBy
  split
  · next r _ =>
    refine (TranslationUnit.typeAt_tame (hr r rfl)).bind fun entry he => ?_
    refine (TranslationUnit.cursorAt_tame (h.entry_inRange he).declaration).bind
      fun declaration _ => ?_
    exact (locate_tame _ _ _).bind fun _ _ => .ok _
  · exact .ok _

/-! ## Walks -/

/-- `innerId?` goes down in the rank. -/
theorem innerId?_falls (h : x.unit.Ranked rank) (he : x.unit.typeAt t = .ok entry)
    (hcovers : kind.covers entry.kind = true) {candidate : TypeId}
    (hc : innerId? kind entry = some candidate) : rank candidate < rank t := by
  unfold innerId? at hc
  split at hc
  · cases hc
    exact h.pointee_falls he (h.ne_invalid he (by intro hk; simp [Kind.covers, hk] at hcovers))
  · cases hc
    refine h.element_falls he (h.ne_invalid he ?_)
    intro hk
    simp [Kind.covers, hk, TypeKind.isArray] at hcovers
  · cases hc

theorem innerId?_inRange (he : entry.InRange x.unit) {candidate : TypeId}
    (hc : innerId? kind entry = some candidate) : candidate < x.unit.types.size := by
  unfold innerId? at hc
  split at hc
  · cases hc
    exact he.pointee
  · cases hc
    exact he.element
  · cases hc

/-- `useWithin` goes down in the rank with each layer, so `rank t` layers are enough. -/
theorem useWithin_tame (h : x.unit.Ranked rank) (h0 : strict → x.unit.Rootless) {layers : Nat}
    {container : TypeId} (ht : t < x.unit.types.size) (hcontainer : container < x.unit.types.size)
    (hcovers : strict → kind = .opaqueType ∨
      ∃ entry, x.unit.typeAt t = .ok entry ∧ kind.covers entry.kind = true)
    (hlayers : strict → rank t < layers) :
    Tame strict (x.useWithin layers kind name t container) := by
  induction layers generalizing kind name t container with
  | zero => exact .error ⟨by simp, fun hs => absurd (hlayers hs) (Nat.not_lt_zero _)⟩
  | succ layers ih =>
    refine (TranslationUnit.unwrapAttributed_tame ht).bind fun t' ht' => ?_
    refine (TranslationUnit.typeAt_tame (h.unwrapAttributed_lt ht')).bind fun entry he => ?_
    have hrange := h.entry_inRange he
    refine (TranslationUnit.typeAt_tame hcontainer).bind fun holder _ => ?_
    refine (layerOf_tame h.toValid hrange holder).bind fun layer _ => ?_
    split
    · exact .ok _
    · next candidate hinner =>
      refine (h.classify_tame (innerId?_inRange hrange hinner)).bind fun r hr => ?_
      have hr' := TranslationUnit.classify_lt hr
      refine (TranslationUnit.typeAt_tame hr').bind fun target _ => ?_
      refine (ih hr' (innerId?_inRange hrange hinner)
        (fun _ => Or.inr (TranslationUnit.classify_sound hr).covered) fun hs =>
          ?_).bind fun _ _ => .ok _
      rcases hcovers hs with rfl | ⟨entry', he', hcovers⟩
      · cases hinner
      · -- a pointer or an array is not attributed, so no wrapper was taken off
        have hplain : entry'.kind ≠ .attributed := by
          intro hk
          unfold innerId? at hinner
          split at hinner <;> simp_all [Kind.covers, TypeKind.isArray]
        have heq : t' = t := by
          rw [TranslationUnit.unwrapAttributed, he'] at ht'
          exact (by simpa [hplain, bind, Except.bind, pure, Except.pure] using ht'.symm)
        subst heq
        rw [he] at he'
        cases he'
        have hfalls := innerId?_falls h he hcovers hinner
        have hlayer := hlayers hs
        rcases (TranslationUnit.classify_sound hr).falls h (h0 hs) with heq | hlt
        · rw [heq]
          omega
        · omega

private theorem locate_typedef {p : Places} {c : Cursor} {location : Location}
    (h : p.locate c entry = .ok location) (hk : entry.kind = .typedef) : c.kind ≠ .noDeclFound := by
  intro hc
  simp [Places.locate, hc, hk, TypeKind.isFunction, TypeKind.isArray, TypeKind.isPrimitive] at h

theorem visitNode_locate {c : CursorId} {node : VisitNode}
    (h : x.visitNode kind name c t parent index = .ok node) :
    ∃ cursor entry, x.unit.cursorAt c = .ok cursor ∧ x.unit.typeAt t = .ok entry ∧
      x.places.locate cursor entry = .ok node.location := by
  simp only [visitNode, bind_eq_ok_iff, pure_eq_ok_iff] at h
  obtain ⟨_, -, cursor, hcursor, entry, hentry, location, hlocation, rfl⟩ := h
  exact ⟨cursor, entry, hcursor, hentry, hlocation⟩

/-- An alias that is flattened is replaced by a type of lower rank. -/
theorem underlying_below (h : x.unit.Ranked rank) (h0 : x.unit.Rootless) {candidate r : TypeId}
    {referrer : Option TypeId} (g : x.Sighting parent index candidate referrer)
    (hk : g.kind = .typeAlias) (hr : x.unit.classify g.declaration.underlyingId = .ok (kind, r))
    (hflat : kind.isFlattened = true) : rank r < rank candidate := by
  have hcand := TranslationUnit.classify_sound g.classified
  obtain ⟨entry, he, hcovers⟩ := hcand.covered
  rw [g.entry_eq] at he
  cases he
  have htypedef : g.entry.kind = .typedef := by simpa [hk, Kind.covers] using hcovers
  have hdecl : g.declaration.kind ≠ .noDeclFound := by
    obtain ⟨cursor, entry, hcursor, hentry, hlocation⟩ := visitNode_locate g.made_eq
    rw [g.declaration_eq] at hcursor
    rw [g.entry_eq] at hentry
    cases hcursor
    cases hentry
    exact locate_typedef hlocation htypedef
  have hne : g.type ≠ TypeId.invalid := h.ne_invalid g.entry_eq (by simp [htypedef])
  have hsound := TranslationUnit.classify_sound hr
  -- what replaces the alias is no typedef, so it is not the alias itself
  have hother : r ≠ g.type := by
    rintro rfl
    obtain ⟨entry, he, hcovers'⟩ := hsound.covered
    rw [g.entry_eq] at he
    cases he
    rw [htypedef] at hcovers'
    cases kind <;> simp [Kind.covers, Kind.isFlattened] at hcovers' hflat
  have hbelow : rank r < rank g.type := by
    rcases h.underlying_falls g.entry_eq hne g.declaration_eq hdecl with heq | hlt
    · rw [heq] at hsound
      exact (hsound.falls h h0).resolve_left hother
    · rcases hsound.falls h h0 with heq | hlt'
      · rw [heq]
        exact hlt
      · omega
  rcases hcand.falls h h0 with heq | hlt
  · rw [← heq]
    exact hbelow
  · omega

theorem resolveWithin_tame (h : x.unit.Ranked rank) (h0 : strict → x.unit.Rootless) {aliases : Nat}
    {candidate : TypeId} {referrer : Option TypeId} (hc : candidate < x.unit.types.size)
    (hr : ∀ r ∈ referrer, r < x.unit.types.size) (haliases : strict → rank candidate < aliases) :
    Tame strict (x.resolveWithin parent index aliases candidate referrer) := by
  induction aliases generalizing candidate referrer with
  | zero => exact .error ⟨by simp, fun hs => absurd (haliases hs) (Nat.not_lt_zero _)⟩
  | succ aliases ih =>
    refine (h.classify_tame hc).bind fun c hclass => ?_
    have hlt := TranslationUnit.classify_lt hclass
    refine (TranslationUnit.typeAt_tame hlt).bind fun entry he => ?_
    have hdecl := (h.entry_inRange he).declaration
    refine (TranslationUnit.cursorAt_tame hdecl).bind fun declaration hdeclaration => ?_
    refine (visitNode_tame h.toValid hdecl hlt).bind fun made hmade => ?_
    refine (namedBy_tame h.toValid hr made).bind fun node hnode => ?_
    let g : x.Sighting parent index candidate referrer :=
      ⟨c.1, c.2, entry, declaration, made, node, hclass, he, hdeclaration, hmade, hnode⟩
    split
    · exact .ok _
    · split
      · next hk =>
        have hrange := h.cursor_inRange hdeclaration
        refine (h.classify_tame hrange.underlying).bind fun ⟨kind', r⟩ hclass' => ?_
        dsimp only
        split
        · next hflat =>
          refine ih (TranslationUnit.classify_lt hclass') ?_ fun hs => ?_
          · rintro r ⟨⟩
            exact hlt
          · have := underlying_below h (h0 hs) g hk hclass' hflat
            have := haliases hs
            omega
        · exact .ok _
      · exact .ok _

theorem resolve_tame (h : x.unit.Ranked rank) (h0 : strict → x.unit.Rootless) {candidate : TypeId}
    (hc : candidate < x.unit.types.size) : Tame strict (x.resolve candidate parent index) :=
  resolveWithin_tame h h0 hc (by simp) fun _ => Nat.lt_succ_of_le (h.bounded candidate)

theorem acceptsTypeWithin_tame (h : x.unit.Ranked rank) {layers : Nat} {c : Cursor}
    (he : x.unit.typeAt t = .ok entry) (hlayers : rank t < layers) :
    Tame strict (x.acceptsTypeWithin layers c entry) := by
  induction layers generalizing t c entry with
  | zero => exact absurd hlayers (Nat.not_lt_zero _)
  | succ layers ih =>
    have hrange := h.entry_inRange he
    have hstep : ∀ t', t' < x.unit.types.size → rank t' < rank t → Tame strict (do
        let inner ← x.unit.typeAt t'
        let declaration ← x.unit.declarationOf inner
        if declaration.kind = .noDeclFound then return true
        x.acceptsTypeWithin layers declaration inner) := by
      intro t' ht' hfalls
      refine (TranslationUnit.typeAt_tame ht').bind fun inner hinner => ?_
      refine (TranslationUnit.cursorAt_tame (h.entry_inRange hinner).declaration).bind
        fun declaration _ => ?_
      split
      · exact .ok _
      · exact ih hinner (by omega)
    unfold acceptsTypeWithin
    dsimp only
    split
    · exact .ok _
    · next t' hinner =>
      split_ifs at hinner with hpointer harray
      · cases hinner
        exact hstep _ hrange.pointee (h.pointee_falls he (h.ne_invalid he (by simp [hpointer])))
      · cases hinner
        refine hstep _ hrange.element (h.element_falls he (h.ne_invalid he ?_))
        intro hk
        simp [hk, TypeKind.isArray] at harray

end Context
end HeaderSurvey
