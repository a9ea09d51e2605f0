import HeaderSurvey.Proofs.Canonical
import HeaderSurvey.Proofs.Resolution

/-! Wrappers and what they are put on. In a unit that was built step by step a reference under
wrappers stands for the same as without them, or fails the same way, as long as its chain of links
ends in time. -/
namespace HeaderSurvey

open Relation

namespace TranslationUnit

variable {u : TranslationUnit} {t t' w : TypeId} {n m : Nat} {N : String → String → Bool → Prop}

/-- The link of a wrapper or a typedef. An `unexposed` type without a `canonical` one has none. -/
def linkOf? (u : TranslationUnit) (entry : TypeEntry) : Option TypeId :=
  match entry.kind with
  | .attributed => some entry.modifiedId
  | .elaborated => some entry.namedId
  | .unexposed => entry.canonical
  | .typedef => (u.cursors[entry.declarationId]?).map Cursor.underlyingId
  | _ => none

def link? (u : TranslationUnit) (t : TypeId) : Option TypeId := (u.types[t]?).bind u.linkOf?

/-- The chain of `link?` from a type ends after at most so many of them. -/
inductive Ends (u : TranslationUnit) : TypeId → Nat → Prop where
  | last {t : TypeId} {n : Nat} (last : u.link? t = none) : Ends u t n
  | link {t t' : TypeId} {n : Nat} (link : u.link? t = some t')
      (rest : Ends u t' n) : Ends u t (n + 1)

/-- `w` is an `attributed`, `elaborated` or `unexposed` wrapper on `t`. -/
def Wraps (u : TranslationUnit) (w t : TypeId) : Prop :=
  ∃ entry, u.typeAt w = .ok entry ∧ entry.kind ≠ .typedef ∧ u.link? w = some t

/-! ## Limits -/

theorem classifyWithin_agree
    (h : ∀ t', u.Follows t t' → u.classifyWithin n t' = u.classifyWithin m t') :
    u.classifyWithin (n + 1) t = u.classifyWithin (m + 1) t := by
  rw [classifyWithin, classifyWithin]
  cases hd : u.declaredType t with
  | error e => rfl
  | ok d =>
    simp only [bind, Except.bind]
    split
    · rfl
    · split
      case h_3 hk =>
        cases hu : u.typeAt d.declaration.underlyingId with
        | error e => rfl
        | ok underlying =>
          dsimp only
          split
          · rfl
          · next hptr => rw [h _ (.typedef hd hk hu hptr)]
      case h_7 hk => exact h _ (.attributed hd hk)
      case h_8 hk => exact h _ (.elaborated hd hk)
      case h_11 hk =>
        split
        · rfl
        · next hw => exact h _ (.unexposed hd hk hw)
      all_goals rfl

/-- A higher limit makes no difference to a type that `Follows` does not lead on from `n + 1`
times. -/
theorem classifyWithin_eq_of_not_walks (h : ¬ Walks u.Follows (n + 1) t) (hnm : n ≤ m) :
    u.classifyWithin (m + 1) t = u.classifyWithin (n + 1) t := by
  induction n generalizing t m with
  | zero => exact classifyWithin_agree fun t' hfollows => absurd ⟨t', hfollows, trivial⟩ h
  | succ n ih =>
    obtain ⟨m, rfl⟩ : ∃ m', m = m' + 1 := ⟨m - 1, by omega⟩
    refine classifyWithin_agree fun t' hfollows => ?_
    exact ih (fun hwalks => h ⟨t', hfollows, hwalks⟩) (Nat.le_of_succ_le_succ hnm)

private theorem Ends.of_link (h : u.Ends t n) (hlink : u.link? t = some t') :
    ∃ n', n = n' + 1 ∧ u.Ends t' n' := by
  cases h with
  | last last => cases last.symm.trans hlink
  | link link rest =>
    cases link.symm.trans hlink
    exact ⟨_, rfl, rest⟩

theorem Ends.mono (h : u.Ends t n) (hnm : n ≤ m) : u.Ends t m := by
  induction h generalizing m with
  | last last => exact .last last
  | link link rest ih =>
    obtain ⟨m, rfl⟩ : ∃ m', m = m' + 1 := ⟨m - 1, by omega⟩
    exact .link link (ih (Nat.le_of_succ_le_succ hnm))

/-! ## References by a tag -/

/-- An `elaborated` type that has a declaration shares it with the type that it names. -/
def NamesDeclared (u : TranslationUnit) : Prop :=
  ∀ t ∈ u.fixedTypes, t.kind = .elaborated → ∀ c ∈ t.declaration,
    ∃ named, u.fixedTypes[t.namedId]? = some named ∧ named.declaration = some c

end TranslationUnit

namespace Builder

variable {step : Step} {b b' : Builder}

theorem Step.Composes.namesDeclared {t : TypeEntry} (h : step.Composes b t)
    (hb : b.unit.NamesDeclared) (hk : t.kind = .elaborated) {c : CursorId}
    (hc : c ∈ t.declaration) :
    ∃ named, b.unit.fixedTypes[t.namedId]? = some named ∧ named.declaration = some c := by
  cases h with
  | primitive => cases hc
  | constQualified s =>
    rcases b.typeAt_cases s with hfound | hmissing
    · have hmem := List.mem_of_getElem? (TranslationUnit.fixedTypes_getElem? hfound)
      exact hb (b.typeAt s).fixed hmem hk c hc
    · rw [hmissing] at hk
      cases hk
  | @elaborated s =>
    rcases b.typeAt_cases s with hfound | hmissing
    · exact ⟨_, TranslationUnit.fixedTypes_getElem? hfound, hc⟩
    · rw [hmissing] at hc
      cases hc
  | pointer | array | function | attributed | unexposed => cases hc

theorem Step.Edit.namesDeclared (e : step.Edit b b') (h : b.unit.NamesDeclared) :
    b'.unit.NamesDeclared := by
  have hextends := e.extends
  have hts := hextends.prefixes.2
  unfold TranslationUnit.NamesDeclared
  generalize b'.unit.fixedCursors = cs, b'.unit.fixedTypes = ts at hextends hts
  have hold : ∀ {t : TypeEntry} {c : CursorId},
      (∃ named, b.unit.fixedTypes[t.namedId]? = some named ∧ named.declaration = some c) →
        ∃ named, ts[t.namedId]? = some named ∧ named.declaration = some c := by
    rintro t c ⟨named, hnamed, hc⟩
    exact ⟨named, getElem?_extended hts hnamed, hc⟩
  intro t ht hk c hc
  cases hextends with
  | nothing | cursors => exact h t ht hk c hc
  | compose composed =>
    rcases List.mem_append.1 ht with hmem | hnew
    · exact hold (h t hmem hk c hc)
    · obtain rfl := List.mem_singleton.1 hnew
      exact hold (composed.namesDeclared h hk hc)
  | declare declaration =>
    rcases List.mem_append.1 ht with hmem | hnew
    · exact hold (h t hmem hk c hc)
    · obtain rfl := List.mem_singleton.1 hnew
      have hsort := CursorKind.mem_of_declares? (declaration.sort.trans (congrArg some hk))
      simp at hsort

private theorem build_namesDeclared (file triple : String) (pointerBits : Nat) (steps : List Step) :
    (build file triple pointerBits steps).NamesDeclared := by
  refine foldl_run_keeps ?_ fun step _ b b' e h => e.namesDeclared h
  intro t ht hk
  rw [List.mem_singleton.1 ht] at hk
  cases hk

end Builder

namespace TranslationUnit

variable {u : TranslationUnit} {t t' w : TypeId} {n m : Nat} {N : String → String → Bool → Prop}

/-- What is known of the links of a unit that is built. -/
structure Linked (u : TranslationUnit) : Prop where
  paired : u.Paired fun _ _ _ => True
  declares : u.DeclaresBySort
  names : u.NamesDeclared

namespace Linked

variable {entry : TypeEntry}

theorem declaredType_self (h : u.Linked) (hentry : u.typeAt t = .ok entry)
    (hnone : entry.declaration = none) :
    ∃ cursor, u.declaredType t = .ok ⟨t, entry, cursor⟩ := by
  obtain ⟨cursor, hcursor, hfixed⟩ := h.paired.undeclared hnone
  exact ⟨cursor, declaredType_undeclared hentry hcursor (congrArg Cursor.kind hfixed)⟩

theorem kind_of_undeclared (h : u.Linked) (hentry : u.typeAt t = .ok entry)
    (hnone : entry.declaration = none) :
    entry.kind.isDeclared = false := by
  rw [← Bool.not_eq_true]
  intro hkind
  have hmem := List.mem_of_getElem? (fixedTypes_getElem? (typeAt_eq_ok.1 hentry))
  obtain ⟨c, -, hc, -⟩ := h.declares entry.fixed hmem hkind
  cases hnone.symm.trans hc

/-- A type with a declaration has the type that it declares as `declaredType`. That is of the same
kind, or the type is `elaborated` and names one with this declaration. -/
theorem owner (h : u.Linked) (hentry : u.typeAt t = .ok entry) {c : CursorId}
    (hc : entry.declaration = some c) :
    ∃ cursor own, u.cursorAt c = .ok cursor ∧ u.declaredType t = .ok ⟨cursor.type, own, cursor⟩ ∧
      own.kind.isDeclared = true ∧ (entry.kind = own.kind ∨ entry.kind = .elaborated ∧
        ∃ named, u.typeAt entry.namedId = .ok named ∧ named.declaration = some c) := by
  obtain ⟨hdeclarable, cursor, own, howns⟩ := h.paired.owner hentry hc
  have hmem := List.mem_of_getElem? (fixedTypes_getElem? (typeAt_eq_ok.1 hentry))
  have hown : own.kind.isDeclared = true := by
    have hsort := howns.sort_mem
    simpa [TypeKind.isDeclared] using hsort
  refine ⟨cursor, own, howns.cursor_eq, howns.declaredType hentry hc, hown, ?_⟩
  by_cases helaborated : entry.kind = .elaborated
  · obtain ⟨named, hnamed, hdeclaration⟩ := h.names entry.fixed hmem helaborated c hc
    obtain ⟨named', hnamed', rfl⟩ := typeAt_of_fixedTypes hnamed
    exact Or.inr ⟨helaborated, named', hnamed', hdeclaration⟩
  · have hdeclared : entry.kind.isDeclared = true := by
      simpa [TypeKind.isDeclarable, TypeKind.isDeclared, helaborated] using hdeclarable
    obtain ⟨c', cursor', hc', hcursor', hsort⟩ := h.declares entry.fixed hmem hdeclared
    cases hc.symm.trans hc'
    cases (fixedCursors_getElem? (cursorAt_eq_ok.1 howns.cursor_eq)).symm.trans hcursor'
    exact Or.inl (Option.some.inj (hsort.symm.trans howns.sort))

theorem declaredType_named (h : u.Linked) {named : TypeEntry} {c : CursorId}
    (hentry : u.typeAt t = .ok entry) (hc : entry.declaration = some c)
    (hnamed : u.typeAt t' = .ok named) (hc' : named.declaration = some c) :
    u.declaredType t = u.declaredType t' := by
  obtain ⟨-, cursor, own, howns⟩ := h.paired.owner hentry hc
  rw [howns.declaredType hentry hc, howns.declaredType hnamed hc']

end Linked

theorem Follows.congr (h : u.Follows t t') (hw : u.declaredType w = u.declaredType t) :
    u.Follows w t' := by
  cases h with
  | typedef declared sort found noPointer => exact .typedef (hw.trans declared) sort found noPointer
  | attributed declared sort => exact .attributed (hw.trans declared) sort
  | elaborated declared sort => exact .elaborated (hw.trans declared) sort
  | unexposed declared sort wrapped => exact .unexposed (hw.trans declared) sort wrapped

theorem link?_eq {entry : TypeEntry} (hentry : u.typeAt t = .ok entry) :
    u.link? t = u.linkOf? entry := by
  rw [link?, typeAt_eq_ok.1 hentry]
  rfl

/-- `Follows` goes along `link?`. At an `elaborated` type with a declaration it goes on from the
declared type, as it does at the type that is named. -/
theorem Linked.link_of_follows (h : u.Linked) (hfollows : u.Follows t t') :
    u.link? t = some t' ∨ ∃ s, u.link? t = some s ∧ u.Follows s t' := by
  obtain ⟨d, hd⟩ : ∃ d, u.declaredType t = .ok d := by cases hfollows <;> exact ⟨_, ‹_›⟩
  obtain ⟨entry, hentry, -⟩ := declaredType_ok hd
  rw [link?_eq hentry]
  cases hc : entry.declaration with
  | none =>
    left
    obtain ⟨cursor, hself⟩ := h.declaredType_self hentry hc
    have hkind := h.kind_of_undeclared hentry hc
    cases hfollows with
    | typedef declared sort =>
      cases hself.symm.trans declared
      rw [show entry.kind = .typedef from sort] at hkind
      cases hkind
    | attributed declared sort | elaborated declared sort =>
      cases hself.symm.trans declared
      simp only [linkOf?, show entry.kind = _ from sort]
    | unexposed declared sort wrapped =>
      cases hself.symm.trans declared
      simp only [linkOf?, show entry.kind = _ from sort]
      cases hcanonical : entry.canonical with
      | none => simp [TypeEntry.canonicalId, hcanonical] at wrapped
      | some s => simp [TypeEntry.canonicalId, hcanonical]
  | some c =>
    obtain ⟨cursor, own, hcursor, hdeclared, hown, hsort⟩ := h.owner hentry hc
    cases hfollows with
    | @typedef d underlying declared sort found noPointer =>
      cases hdeclared.symm.trans declared
      rcases hsort with hsame | ⟨helaborated, named, hnamed, hc'⟩
      · left
        simp [linkOf?, hsame.trans sort, TypeEntry.declarationId, hc, cursorAt_eq_ok.1 hcursor]
      · refine Or.inr ⟨entry.namedId, by simp [linkOf?, helaborated], ?_⟩
        exact (Follows.typedef declared sort found noPointer).congr
          (h.declaredType_named hentry hc hnamed hc').symm
    | attributed declared sort | elaborated declared sort | unexposed declared sort =>
      cases hdeclared.symm.trans declared
      rw [show own.kind = _ from sort] at hown
      cases hown

theorem Linked.not_walks (h : u.Linked) (hends : u.Ends t n) : ¬ Walks u.Follows (n + 1) t := by
  induction hends with
  | last last =>
    rintro ⟨t', hfollows, -⟩
    rcases h.link_of_follows hfollows with hlink | ⟨s, hlink, -⟩ <;> cases last.symm.trans hlink
  | @link t s n link rest ih =>
    rintro ⟨t', hfollows, hwalks⟩
    rcases h.link_of_follows hfollows with hlink | ⟨s', hlink, hs'⟩
    · cases link.symm.trans hlink
      exact ih hwalks
    · cases link.symm.trans hlink
      exact ih (Walks.of_succ ⟨t', hs', hwalks⟩)

/-! ## Wrappers -/

theorem Wraps.classifyWithin_succ {cursor : Cursor} {entry : TypeEntry} (h : u.Wraps w t)
    (hentry : u.typeAt w = .ok entry) (hd : u.declaredType w = .ok ⟨w, entry, cursor⟩)
    (hne : entry.kind = .unexposed → t ≠ w) (n : Nat) :
    u.classifyWithin (n + 1) w = u.classifyWithin n t := by
  obtain ⟨_, hentry', hkind, hlink⟩ := h
  cases hentry.symm.trans hentry'
  rw [link?_eq hentry] at hlink
  unfold linkOf? at hlink
  rw [classifyWithin, hd]
  split at hlink
  case h_1 hk | h_2 hk =>
    cases hlink
    simp [bind, Except.bind, hk, TypeKind.isPrimitive]
  case h_3 hk =>
    have hcanonical : entry.canonicalId w = t := by simp [TypeEntry.canonicalId, hlink]
    simp [bind, Except.bind, hk, TypeKind.isPrimitive, hcanonical, hne hk]
  case h_4 hk => exact absurd hk hkind
  case h_5 => cases hlink

/-- A wrapper is classified as what it is put on, with the same limit or with one less. -/
theorem Linked.classifyWithin_wraps_or (h : u.Linked) (hwraps : u.Wraps w t) (hne : t ≠ w) :
    (∀ n, u.classifyWithin (n + 1) w = u.classifyWithin (n + 1) t) ∨
      ∀ n, u.classifyWithin (n + 1) w = u.classifyWithin n t := by
  have ⟨entry, hentry, hkind, hlink⟩ := hwraps
  cases hc : entry.declaration with
  | none =>
    obtain ⟨cursor, hself⟩ := h.declaredType_self hentry hc
    exact Or.inr fun n => hwraps.classifyWithin_succ hentry hself (fun _ => hne) n
  | some c =>
    obtain ⟨cursor, own, -, -, hown, hsame | ⟨helaborated, named, hnamed, hc'⟩⟩ := h.owner hentry hc
    · -- A wrapper is of another sort than what is declared.
      rw [link?_eq hentry, linkOf?] at hlink
      rcases of_decide_eq_true hown with hk | hk | hk
      · simp [hsame.trans hk] at hlink
      · simp [hsame.trans hk] at hlink
      · exact absurd (hsame.trans hk) hkind
    · obtain rfl : entry.namedId = t := by simpa [link?_eq hentry, linkOf?, helaborated] using hlink
      exact Or.inl fun n => classifyWithin_congr (h.declaredType_named hentry hc hnamed hc') n

theorem Linked.classifyWithin_wraps (h : u.Linked) (hwraps : u.Wraps w t) (hends : u.Ends w n) :
    u.classifyWithin (n + 1) w = u.classifyWithin (n + 1) t := by
  have ⟨_, _, _, hlink⟩ := hwraps
  obtain ⟨n, rfl, hrest⟩ := hends.of_link hlink
  by_cases heq : t = w
  · rw [heq]
  rcases h.classifyWithin_wraps_or hwraps heq with hsame | hless
  · exact hsame _
  · calc u.classifyWithin (n + 2) w = u.classifyWithin (n + 1) t := hless _
      _ = u.classifyWithin (n + 2) t :=
        (classifyWithin_eq_of_not_walks (h.not_walks hrest) (Nat.le_succ n)).symm

end TranslationUnit

namespace Builder

theorem build_linked (file triple : String) (pointerBits : Nat) (steps : List Step) :
    (build file triple pointerBits steps).Linked :=
  ⟨build_paired_any .., build_declaresBySort file triple pointerBits steps,
    build_namesDeclared file triple pointerBits steps⟩

end Builder

/-- In any unit that `build` makes, `classify` gives the same result or the same error for a type
and for a stack of `attributed`, `elaborated` and `unexposed` wrappers on it, in any order, if the
links from the top of the stack end within 64. -/
theorem classify_wrapped (file triple : String) (pointerBits : Nat) (steps : List Builder.Step)
    {w t : TypeId} (hstack : ReflTransGen (Builder.build file triple pointerBits steps).Wraps w t)
    (hends : (Builder.build file triple pointerBits steps).Ends w 64) :
    (Builder.build file triple pointerBits steps).classify w =
      (Builder.build file triple pointerBits steps).classify t := by
  have hlinked := Builder.build_linked file triple pointerBits steps
  generalize Builder.build file triple pointerBits steps = u at hstack hends hlinked
  induction hstack using ReflTransGen.head_induction_on with
  | refl => rfl
  | @head w w' hwraps hstack ih =>
    have ⟨_, _, _, hlink⟩ := hwraps
    obtain ⟨n, hn, hrest⟩ := hends.of_link hlink
    calc u.classify w = u.classify w' := hlinked.classifyWithin_wraps hwraps hends
      _ = u.classify t := ih (hrest.mono (by omega))

/-- A stack of all three wrappers on a typedef, and on a qualified type that has lost its canonical
form. -/
def stackedSteps : List Builder.Step :=
  [.primitive .int, .pointer 1, .typedef wrappedName 2, .constQualified 3, .elaborated 4,
    .attributed 5, .unexposed 6, .elaborated 7, .unexposed 2, .constQualified 9, .attributed 10,
    .unexposed 11]

def stackedUnit : TranslationUnit := Builder.build "a.h" "x86_64-unknown-linux-gnu" 64 stackedSteps

theorem classify_stackedUnit_wrapped :
    ReflTransGen stackedUnit.Wraps 8 4 ∧ stackedUnit.classify 8 = stackedUnit.classify 4 ∧
      stackedUnit.classify 4 = .ok (.typeAlias, 3) ∧
      ReflTransGen stackedUnit.Wraps 12 10 ∧ stackedUnit.classify 12 = stackedUnit.classify 10 ∧
      stackedUnit.classify 10 = .error (.unknownTypeKind .unexposed "const int *") := by
  have hnamed : ReflTransGen stackedUnit.Wraps 8 4 :=
    .head ⟨_, rfl, by decide, rfl⟩ (.head ⟨_, rfl, by decide, rfl⟩ (.head ⟨_, rfl, by decide, rfl⟩
      (.single ⟨_, rfl, by decide, rfl⟩)))
  have hlost : ReflTransGen stackedUnit.Wraps 12 10 :=
    .head ⟨_, rfl, by decide, rfl⟩ (.single ⟨_, rfl, by decide, rfl⟩)
  refine ⟨hnamed, classify_wrapped _ _ _ stackedSteps hnamed ?_, rfl, hlost,
    classify_wrapped _ _ _ stackedSteps hlost ?_, rfl⟩
  · exact .link rfl (.link rfl (.link rfl (.link rfl (.link rfl (.last rfl)))))
  · exact .link rfl (.link rfl (.last rfl))

end HeaderSurvey
