import HeaderSurvey.Survey.Run
import Mathlib.Logic.Relation

/-! Steps that may fail, taken apart: a sequence succeeds exactly if its parts do, one after the
other, and fails exactly if one of them does. -/
namespace HeaderSurvey

section Except

variable {α β : Type} {r : Except SurveyError α} {f : α → Except SurveyError β}

theorem bind_eq_ok_iff {ε : Type} {r : Except ε α} {f : α → Except ε β} {b : β} :
    (r >>= f) = .ok b ↔ ∃ a, r = .ok a ∧ f a = .ok b := by
  cases r with
  | error e => simp [bind, Except.bind]
  | ok a => simp [bind, Except.bind]

theorem mapError_eq_ok_iff {ε ε' : Type} {r : Except ε α} {g : ε → ε'} {a : α} :
    r.mapError g = .ok a ↔ r = .ok a := by
  cases r with
  | error e => constructor <;> intro h <;> cases h
  | ok b => constructor <;> intro h <;> cases h <;> rfl

theorem toOption_any_iff {p : α → Bool} :
    r.toOption.any p = true ↔ ∃ a, r = .ok a ∧ p a = true := by
  cases r <;> simp [Except.toOption]

theorem bind_eq_error_iff {e : SurveyError} :
    (r >>= f) = .error e ↔ r = .error e ∨ ∃ a, r = .ok a ∧ f a = .error e := by
  cases r with
  | error e' => simp [bind, Except.bind]
  | ok a => simp [bind, Except.bind]

@[simp] theorem pure_eq_ok_iff {a b : α} : (pure a : Except SurveyError α) = .ok b ↔ a = b := by
  simp [pure, Except.pure]

theorem mem_of_mapM_eq_ok {as : List α} {bs : List β} {b : β} (h : as.mapM f = .ok bs)
    (hb : b ∈ bs) :
    ∃ a ∈ as, f a = .ok b := by
  induction as generalizing bs with
  | nil =>
    cases h
    cases hb
  | cons a as ih =>
    simp only [List.mapM_cons, bind_eq_ok_iff, pure_eq_ok_iff] at h
    obtain ⟨b', hb', bs', hbs, rfl⟩ := h
    rcases List.mem_cons.1 hb with rfl | hb
    · exact ⟨a, List.mem_cons_self, hb'⟩
    · obtain ⟨a', ha', h'⟩ := ih hbs hb
      exact ⟨a', List.mem_cons_of_mem a ha', h'⟩

end Except

/-- Steps over a state of any sort. -/
abbrev StepM (σ : Type) := ExceptT SurveyError (StateM σ)

variable {σ α β : Type}

/-- From `s` the step succeeds with `a` and leaves `t`. -/
def Returns (m : StepM σ α) (s : σ) (a : α) (t : σ) : Prop := m s = (.ok a, t)

/-- From `s` the step fails with `e` and leaves `t`. -/
def Fails (m : StepM σ α) (s : σ) (e : SurveyError) (t : σ) : Prop := m s = (.error e, t)

section Basic

variable {s t : σ} {a b : α} {e e' : SurveyError} {r : Except SurveyError α} {g : σ → σ}

@[simp] theorem returns_pure : Returns (pure a : StepM σ α) s b t ↔ a = b ∧ s = t := by
  change ((.ok a, s) : Except SurveyError α × σ) = (.ok b, t) ↔ _
  simp

@[simp] theorem not_fails_pure : ¬ Fails (pure a : StepM σ α) s e t := by
  intro h
  injection (h : ((.ok a, s) : Except SurveyError α × σ) = (.error e, t)) with h
  cases h

@[simp] theorem not_returns_throw : ¬ Returns (throw e : StepM σ α) s a t := by
  intro h
  injection (h : ((.error e, s) : Except SurveyError α × σ) = (.ok a, t)) with h
  cases h

@[simp] theorem fails_throw : Fails (throw e : StepM σ α) s e' t ↔ e = e' ∧ s = t := by
  change ((.error e, s) : Except SurveyError α × σ) = (.error e', t) ↔ _
  simp

@[simp] theorem returns_lift : Returns (liftM r : StepM σ α) s a t ↔ r = .ok a ∧ s = t := by
  change ((r, s) : Except SurveyError α × σ) = (.ok a, t) ↔ _
  simp

@[simp] theorem fails_lift : Fails (liftM r : StepM σ α) s e t ↔ r = .error e ∧ s = t := by
  change ((r, s) : Except SurveyError α × σ) = (.error e, t) ↔ _
  simp

@[simp] theorem returns_get {s' : σ} : Returns (get : StepM σ σ) s s' t ↔ s = s' ∧ s = t := by
  change ((.ok s, s) : Except SurveyError σ × σ) = (.ok s', t) ↔ _
  simp

@[simp] theorem not_fails_get : ¬ Fails (get : StepM σ σ) s e t := not_fails_pure (a := s)

@[simp] theorem returns_set {s' : σ} {u : PUnit} :
    Returns (set s' : StepM σ PUnit) s u t ↔ s' = t := by
  change ((.ok ⟨⟩, s') : Except SurveyError PUnit × σ) = (.ok u, t) ↔ _
  simp

@[simp] theorem not_fails_set {s' : σ} : ¬ Fails (set s' : StepM σ PUnit) s e t :=
  not_fails_pure (s := s') (a := PUnit.unit)

@[simp] theorem returns_modify {u : PUnit} :
    Returns (modify g : StepM σ PUnit) s u t ↔ g s = t := by
  change ((.ok ⟨⟩, g s) : Except SurveyError PUnit × σ) = (.ok u, t) ↔ _
  simp

@[simp] theorem not_fails_modify : ¬ Fails (modify g : StepM σ PUnit) s e t :=
  not_fails_pure (s := g s) (a := PUnit.unit)

end Basic

section Bind

variable {m : StepM σ α} {f : α → StepM σ β} {s s' t : σ} {a : α} {b : β} {e : SurveyError}

theorem returns_or_fails (m : StepM σ α) (s : σ) :
    (∃ a t, Returns m s a t) ∨ ∃ e t, Fails m s e t := by
  unfold Returns Fails
  rcases m s with ⟨e | a, t⟩
  · exact Or.inr ⟨e, t, rfl⟩
  · exact Or.inl ⟨a, t, rfl⟩

theorem exists_returns (h : (m s).1.isOk = true) : ∃ a t, Returns m s a t := by
  rcases returns_or_fails m s with hreturns | ⟨e, t, hfails⟩
  · exact hreturns
  · rw [show m s = _ from hfails] at h
    cases h

theorem Returns.not_fails (h : Returns m s a t) : ¬ Fails m s e s' := by
  intro h'
  have heq : ((.ok a, t) : Except SurveyError α × σ) = (.error e, s') := h.symm.trans h'
  simp at heq

theorem Returns.bind_eq (h : Returns m s a s') : (m >>= f) s = f a s' := by
  change ExceptT.bindCont f (m s).1 (m s).2 = _
  rw [h]
  rfl

theorem Fails.bind_eq (h : Fails m s e t) : (m >>= f) s = (.error e, t) := by
  change ExceptT.bindCont f (m s).1 (m s).2 = _
  rw [h]
  rfl

@[simp] theorem returns_bind :
    Returns (m >>= f) s b t ↔ ∃ a s', Returns m s a s' ∧ Returns (f a) s' b t := by
  constructor
  · intro h
    rcases returns_or_fails m s with ⟨a, s', hm⟩ | ⟨e, s', hm⟩
    · exact ⟨a, s', hm, hm.bind_eq.symm.trans h⟩
    · exact absurd (show Fails (m >>= f) s e s' from hm.bind_eq) h.not_fails
  · rintro ⟨a, s', hm, hf⟩
    exact hm.bind_eq.trans hf

@[simp] theorem fails_bind :
    Fails (m >>= f) s e t ↔ Fails m s e t ∨ ∃ a s', Returns m s a s' ∧ Fails (f a) s' e t := by
  constructor
  · intro h
    rcases returns_or_fails m s with ⟨a, s', hm⟩ | ⟨e', s', hm⟩
    · exact Or.inr ⟨a, s', hm, hm.bind_eq.symm.trans h⟩
    · have heq : ((.error e', s') : Except SurveyError β × σ) = (.error e, t) :=
        hm.bind_eq.symm.trans h
      cases heq
      exact Or.inl hm
  · rintro (hm | ⟨a, s', hm, hf⟩)
    · exact hm.bind_eq
    · exact hm.bind_eq.trans hf

end Bind

/-- `m'` does what `m` does, unless `m` is given up as `SurveyError.unending`. -/
def Prolongs (m m' : StepM σ α) : Prop := ∀ s, (∃ t, Fails m s .unending t) ∨ m' s = m s

namespace Prolongs

protected theorem refl (m : StepM σ α) : Prolongs m m := fun _ => .inr rfl

protected theorem throw (m' : StepM σ α) : Prolongs (throw .unending) m' :=
  fun s => .inl ⟨s, fails_throw.2 ⟨rfl, rfl⟩⟩

protected theorem bind {m m' : StepM σ α} {f f' : α → StepM σ β} (hm : Prolongs m m')
    (hf : ∀ a, Prolongs (f a) (f' a)) : Prolongs (m >>= f) (m' >>= f') := by
  intro s
  rcases hm s with ⟨t, hgiven⟩ | hsame
  · exact .inl ⟨t, hgiven.bind_eq⟩
  rcases returns_or_fails m s with ⟨a, s', hreturns⟩ | ⟨e, s', hfails⟩
  · have hreturns' : Returns m' s a s' := hsame.trans hreturns
    rcases hf a s' with ⟨t, hgiven⟩ | hsame'
    · exact .inl ⟨t, hreturns.bind_eq.trans hgiven⟩
    · exact .inr (by rw [hreturns.bind_eq, hreturns'.bind_eq, hsame'])
  · have hfails' : Fails m' s e s' := hsame.trans hfails
    exact .inr (by rw [hfails.bind_eq, hfails'.bind_eq])

end Prolongs

section Lists

variable {f : α → StepM σ β} {s t : σ}

/-- An invariant `Q` of every step `R` holds after `Relation.ReflTransGen R`. -/
theorem keeps_run {R : σ → σ → Prop} {Q : σ → Prop} (keeps : ∀ s t, R s t → Q s → Q t)
    (h : Relation.ReflTransGen R s t) (hs : Q s) : Q t := by
  induction h with
  | refl => exact hs
  | tail _ hlast ih => exact keeps _ _ hlast ih

/-- What single steps do, a list of them does: the state goes on by `R`, and `Q`, which such steps
keep, holds of each value in the end. -/
theorem mapM_returns {R : σ → σ → Prop} {Q : σ → β → Prop} {as : List α} {bs : List β}
    (step : ∀ a ∈ as, ∀ s b t, Returns (f a) s b t → Relation.ReflTransGen R s t ∧ Q t b)
    (keeps : ∀ s t b, R s t → Q s b → Q t b) (h : Returns (as.mapM f) s bs t) :
    Relation.ReflTransGen R s t ∧ ∀ b ∈ bs, Q t b := by
  induction as generalizing s bs with
  | nil =>
    obtain ⟨rfl, rfl⟩ := returns_pure.1 h
    exact ⟨.refl, by simp⟩
  | cons a as ih =>
    simp only [List.mapM_cons, returns_bind, returns_pure] at h
    obtain ⟨b, s', hb, bs', t', hbs, rfl, rfl⟩ := h
    obtain ⟨hr, hq⟩ := step a List.mem_cons_self s b s' hb
    obtain ⟨hr', hq'⟩ := ih (fun a' ha' => step a' (List.mem_cons_of_mem a ha')) hbs
    refine ⟨hr.trans hr', ?_⟩
    intro b' hb'
    rcases List.mem_cons.1 hb' with rfl | hb'
    · exact keeps_run (Q := (Q · b')) (fun s t => keeps s t b') hr' hq
    · exact hq' b' hb'

theorem mapM_forall {Q : β → Prop} {as : List α} {bs : List β}
    (step : ∀ a ∈ as, ∀ s b t, Returns (f a) s b t → Q b) (h : Returns (as.mapM f) s bs t) :
    ∀ b ∈ bs, Q b :=
  (mapM_returns (R := fun _ _ => True) (Q := fun _ => Q)
    (fun a ha s b t hb => ⟨.single trivial, step a ha s b t hb⟩) (fun _ _ _ _ hb => hb) h).2

/-- `mapM` returns one value per item: the `i`-th is returned by the step for the `i`-th item. -/
theorem mapM_getElem? {as : List α} {bs : List β} (h : Returns (as.mapM f) s bs t) :
    bs.length = as.length ∧
      ∀ (i : Nat) a, as[i]? = some a → ∃ b s' t', bs[i]? = some b ∧ Returns (f a) s' b t' := by
  induction as generalizing s bs with
  | nil =>
    obtain ⟨rfl, rfl⟩ := returns_pure.1 h
    exact ⟨rfl, by simp⟩
  | cons a as ih =>
    simp only [List.mapM_cons, returns_bind, returns_pure] at h
    obtain ⟨b, s', hb, bs', t', hbs, rfl, rfl⟩ := h
    obtain ⟨hlength, hall⟩ := ih hbs
    refine ⟨congrArg (· + 1) hlength, fun i a' ha' => ?_⟩
    cases i with
    | zero =>
      cases ha'
      exact ⟨b, s, s', rfl, hb⟩
    | succ i => exact hall i a' ha'

/-- A `mapM` that returns, split at its `i`-th step. -/
theorem mapM_at {as : List α} {bs : List β} (h : Returns (as.mapM f) s bs t) {i : Nat} {a : α}
    (ha : as[i]? = some a) :
    ∃ b s₁ s₂, bs[i]? = some b ∧ Returns ((as.take i).mapM f) s (bs.take i) s₁ ∧
      Returns (f a) s₁ b s₂ ∧ Returns ((as.drop (i + 1)).mapM f) s₂ (bs.drop (i + 1)) t := by
  induction as generalizing s bs i with
  | nil => cases ha
  | cons a' as ih =>
    simp only [List.mapM_cons, returns_bind, returns_pure] at h
    obtain ⟨b', s', hb', bs', t', hbs, rfl, rfl⟩ := h
    cases i with
    | zero =>
      cases ha
      exact ⟨b', s, s', rfl, returns_pure.2 ⟨rfl, rfl⟩, hb', hbs⟩
    | succ i =>
      obtain ⟨b, s₁, s₂, hb, hbefore, hstep, hafter⟩ := ih hbs ha
      refine ⟨b, s₁, s₂, hb, ?_, hstep, hafter⟩
      simp only [List.take_succ_cons, List.mapM_cons, returns_bind, returns_pure]
      exact ⟨b', s', hb', bs'.take i, s₁, hbefore, rfl, rfl⟩

/-- If `g (p a)` returns `q b` where `f a` returns `b`, so does `mapM`, item by item. -/
theorem mapM_map_returns {γ δ : Type} {g : γ → StepM σ δ} {p : α → γ} {q : β → δ} {as : List α}
    {bs : List β} (step : ∀ a s b t, Returns (f a) s b t → Returns (g (p a)) s (q b) t)
    (h : Returns (as.mapM f) s bs t) :
    Returns ((as.map p).mapM g) s (bs.map q) t := by
  induction as generalizing s bs with
  | nil =>
    obtain ⟨rfl, rfl⟩ := returns_pure.1 h
    exact returns_pure.2 ⟨rfl, rfl⟩
  | cons a as ih =>
    simp only [List.mapM_cons, returns_bind, returns_pure] at h
    obtain ⟨b, s', hb, bs', t', hbs, rfl, rfl⟩ := h
    simp only [List.map_cons, List.mapM_cons, returns_bind, returns_pure]
    exact ⟨q b, s', step a s b s' hb, bs'.map q, t', ih hbs, rfl, rfl⟩

theorem forM_returns {R : σ → σ → Prop} {g : α → StepM σ PUnit} {as : List α} {u : PUnit}
    (step : ∀ a ∈ as, ∀ s u t, Returns (g a) s u t → Relation.ReflTransGen R s t)
    (h : Returns (as.forM g) s u t) : Relation.ReflTransGen R s t := by
  induction as generalizing s with
  | nil =>
    obtain ⟨-, rfl⟩ := returns_pure.1 h
    exact .refl
  | cons a as ih =>
    obtain ⟨v, s', ha, has⟩ := returns_bind.1 h
    exact (step a List.mem_cons_self s v s' ha).trans
      (ih (fun a' ha' => step a' (List.mem_cons_of_mem a ha')) has)

end Lists

/-! ## How steps may fail -/

/-- If the result is an error, `P` holds of it. -/
def OnlyErrors (P : SurveyError → Prop) (r : Except SurveyError α) : Prop := ∀ e, r = .error e → P e

namespace OnlyErrors

variable {P : SurveyError → Prop} {r : Except SurveyError α} {f : α → Except SurveyError β}

theorem ok (a : α) : OnlyErrors P (.ok a : Except SurveyError α) := by
  intro e h
  cases h

theorem error {e : SurveyError} (h : P e) : OnlyErrors P (.error e : Except SurveyError α) := by
  intro e' h'
  cases h'
  exact h

theorem bind (hr : OnlyErrors P r) (hf : ∀ a, r = .ok a → OnlyErrors P (f a)) :
    OnlyErrors P (r >>= f) := by
  intro e h
  rcases bind_eq_error_iff.1 h with h | ⟨a, ha, h⟩
  · exact hr e h
  · exact hf a ha e h

theorem map (hr : OnlyErrors P r) (g : α → β) : OnlyErrors P (g <$> r) := by
  intro e h
  cases r with
  | error e' =>
    cases h
    exact hr _ rfl
  | ok a => cases h

theorem mapM {as : List α} (h : ∀ a ∈ as, OnlyErrors P (f a)) : OnlyErrors P (as.mapM f) := by
  induction as with
  | nil => exact ok _
  | cons a as ih =>
    rw [List.mapM_cons]
    refine bind (h a List.mem_cons_self) fun b _ => ?_
    exact bind (ih fun a' ha' => h a' (List.mem_cons_of_mem a ha')) fun bs _ => ok _

theorem mapError {ε : Type} {r : Except ε α} {g : ε → SurveyError} (hg : ∀ e, P (g e)) :
    OnlyErrors P (r.mapError g) := by
  cases r with
  | error e => exact error (hg e)
  | ok a => exact ok a

theorem mono {Q : SurveyError → Prop} (hr : OnlyErrors P r) (hPQ : ∀ e, P e → Q e) :
    OnlyErrors Q r :=
  fun e h => hPQ e (hr e h)

end OnlyErrors

/-- If the step fails from `s`, `P` holds of the error. -/
def OnlyFails (P : SurveyError → Prop) (m : StepM σ α) (s : σ) : Prop := ∀ e t, Fails m s e t → P e

namespace OnlyFails

variable {P : SurveyError → Prop} {s : σ} {m : StepM σ α} {f : α → StepM σ β}

theorem pure (a : α) : OnlyFails P (Pure.pure a : StepM σ α) s :=
  fun _ _ h => absurd h not_fails_pure

theorem get : OnlyFails P (MonadState.get : StepM σ σ) s := fun _ _ h => absurd h not_fails_get

theorem set (s' : σ) : OnlyFails P (MonadStateOf.set s' : StepM σ PUnit) s :=
  fun _ _ h => absurd h not_fails_set

theorem modify (g : σ → σ) : OnlyFails P (modify g : StepM σ PUnit) s :=
  fun _ _ h => absurd h not_fails_modify

theorem lift {r : Except SurveyError α} (h : OnlyErrors P r) :
    OnlyFails P (liftM r : StepM σ α) s :=
  fun e _ hf => h e (fails_lift.1 hf).1

theorem bind (hm : OnlyFails P m s) (hf : ∀ a t, Returns m s a t → OnlyFails P (f a) t) :
    OnlyFails P (m >>= f) s := by
  intro e t h
  rcases fails_bind.1 h with h | ⟨a, s', ha, h⟩
  · exact hm e t h
  · exact hf a s' ha e t h

theorem mapM {as : List α} (h : ∀ a ∈ as, ∀ s, OnlyFails P (f a) s) :
    OnlyFails P (as.mapM f) s := by
  induction as generalizing s with
  | nil => exact pure _
  | cons a as ih =>
    rw [List.mapM_cons]
    refine bind (h a List.mem_cons_self s) fun b t _ => ?_
    exact bind (ih fun a' ha' => h a' (List.mem_cons_of_mem a ha')) fun bs t _ => pure _

theorem forM {g : α → StepM σ PUnit} {as : List α} (h : ∀ a ∈ as, ∀ s, OnlyFails P (g a) s) :
    OnlyFails P (as.forM g) s := by
  induction as generalizing s with
  | nil => exact pure _
  | cons a as ih =>
    exact bind (h a List.mem_cons_self s) fun _ _ _ => ih fun a' ha' =>
      h a' (List.mem_cons_of_mem a ha')

theorem mono {Q : SurveyError → Prop} (hm : OnlyFails P m s) (hPQ : ∀ e, P e → Q e) :
    OnlyFails Q m s :=
  fun e t h => hPQ e (hm e t h)

theorem onSession {m : SurveyM α} {p : Progress} (h : OnlyFails P m p.session) :
    OnlyFails P (onSession m) p := by
  intro e q hf
  refine h e q.session ?_
  have hpair : ((m p.session).1, { p with session := (m p.session).2 }) =
      ((.error e, q) : Except SurveyError α × Progress) := hf
  obtain ⟨h₁, h₂⟩ := Prod.mk.inj hpair
  exact Prod.ext h₁ (congrArg Progress.session h₂)

end OnlyFails

end HeaderSurvey
