import Lorepia.Lib.Concurrent

/-!
# Tasks that run alone

Between two actions of a task nothing else happens. A `Setting` says which inputs are
considered in which state, which states the task may pass through, and whether it may be
blocked for want of an input. `Ends S Q p s`: the task `p`, run from `s`, passes through those
states only and ends with `Q` after finitely many actions. A loop ends when a measure of the
state decreases in every round. `Reaches` is a run that may stop anywhere, which is what a
crash leaves; `Runs` is a run to the end.
-/

namespace Lorepia.Proc

variable {σ ι ε α β γ : Type}

/-- What a task that runs alone is specified against. -/
structure Setting (σ ι : Type) where
  /-- The inputs considered in a state. -/
  allowed : σ → ι → Prop := fun _ _ => True
  /-- The states the task may pass through. -/
  through : σ → Prop := fun _ => True
  /-- Whether an action may find no input that lets it act. -/
  blocks : Prop := False

/-- Run alone from `s`, the task ends with `Q`. -/
inductive Ends (S : Setting σ ι) {α : Type} (Q : Except ε α → σ → Prop) : Proc σ ι ε α → σ → Prop
  | done {r : Except ε α} {s : σ} : Q r s → Ends S Q (.done r) s
  | act {β : Type} {f : ι → σ → Option (Except ε β × σ)} {k : Except ε β → Proc σ ι ε α} {s : σ}
      (acts : S.blocks ∨ ∃ i, S.allowed s i ∧ (f i s).isSome = true)
      (passes : ∀ i r s', S.allowed s i → f i s = some (r, s') → S.through s')
      (next : ∀ i r s', S.allowed s i → f i s = some (r, s') → Ends S Q (k r) s') :
      Ends S Q (.act f k) s
  | loop {β : Type} {body : Proc σ ι ε (Option β)} {k : Except ε β → Proc σ ι ε α} {s : σ} :
      Ends S Q (body.andThen (nextRound body k)) s → Ends S Q (.loop body k) s

theorem andThen_assoc (p : Proc σ ι ε α) (g : Except ε α → Proc σ ι ε β)
    (h : Except ε β → Proc σ ι ε γ) :
    (p.andThen g).andThen h = p.andThen fun r => (g r).andThen h := by
  induction p with
  | done r => rfl
  | act f k ih => exact congrArg (act f) (funext fun r => ih r g)
  | loop body k _ ihk => exact congrArg (loop body) (funext fun r => ihk r g)

theorem bind_bind (p : Proc σ ι ε α) (f : α → Proc σ ι ε β) (g : β → Proc σ ι ε γ) :
    p >>= f >>= g = p >>= fun a => f a >>= g := by
  refine (andThen_assoc p _ _).trans (congrArg p.andThen (funext fun r => ?_))
  cases r with
  | ok a => rfl
  | error e => rfl

theorem bind_pure (p : Proc σ ι ε α) : p >>= pure = p := by
  induction p with
  | done r => cases r <;> rfl
  | act f k ih => exact congrArg (act f) (funext fun r => ih r)
  | loop body k _ ihk => exact congrArg (loop body) (funext fun r => ihk r)

theorem nextRound_andThen (body : Proc σ ι ε (Option β)) (k : Except ε β → Proc σ ι ε α)
    (g : Except ε α → Proc σ ι ε γ) :
    (fun r => (nextRound body k r).andThen g) = nextRound body fun r => (k r).andThen g := by
  funext r
  match r with
  | .ok none => rfl
  | .ok (some b) => rfl
  | .error e => rfl

namespace Ends

variable {S : Setting σ ι} {s : σ}

variable {p : Proc σ ι ε α} {Q M : Except ε α → σ → Prop}

theorem mono {Q' : Except ε α → σ → Prop} (h : Ends S Q p s)
    (hQ : ∀ r s, Q r s → Q' r s) : Ends S Q' p s := by
  induction h with
  | done hr => exact .done (hQ _ _ hr)
  | act acts passes _ ih => exact .act acts passes ih
  | loop _ ih => exact .loop ih

theorem andThen {g : Except ε α → Proc σ ι ε β}
    {Q : Except ε β → σ → Prop} (h : Ends S M p s) (hg : ∀ r t, M r t → Ends S Q (g r) t) :
    Ends S Q (p.andThen g) s := by
  induction h with
  | done hr => exact hg _ _ hr
  | act acts passes _ ih => exact .act acts passes ih
  | loop _ ih =>
    refine .loop ?_
    rw [andThen_assoc, nextRound_andThen] at ih
    exact ih

theorem pure {a : α} (h : Q (.ok a) s) : Ends S Q (Pure.pure a : Proc σ ι ε α) s :=
  .done h

theorem fail {e : ε} (h : Q (.error e) s) : Ends S Q (Proc.fail e : Proc σ ι ε α) s :=
  .done h

theorem bind {f : α → Proc σ ι ε β}
    {Q : Except ε β → σ → Prop} (hp : Ends S M p s) (hok : ∀ a t, M (.ok a) t → Ends S Q (f a) t)
    (herr : ∀ e t, M (.error e) t → Q (.error e) t) : Ends S Q (p >>= f) s :=
  hp.andThen fun r t hr => match r with
    | .ok a => hok a t hr
    | .error e => .done (herr e t hr)

theorem attempt {Q : Except ε (Except ε α) → σ → Prop} (hp : Ends S M p s)
    (hQ : ∀ r t, M r t → Q (.ok r) t) : Ends S Q p.attempt s :=
  hp.andThen fun r t hr => .done (hQ r t hr)

theorem atomic {f : ι → σ → Option (Except ε β × σ)} {Q : Except ε β → σ → Prop}
    (acts : S.blocks ∨ ∃ i, S.allowed s i ∧ (f i s).isSome = true)
    (step : ∀ i r s', S.allowed s i → f i s = some (r, s') → S.through s' ∧ Q r s') :
    Ends S Q (Proc.atomic f) s :=
  .act acts (fun i r s' hi hf => (step i r s' hi hf).1)
    fun i r s' hi hf => .done (step i r s' hi hf).2

end Ends

/-! ## Runs that stop anywhere -/

/-- From `s` the task can get to where it stands as `p'` in `s'`. -/
inductive Reaches (A : σ → ι → Prop) {α : Type} :
    Proc σ ι ε α → σ → Proc σ ι ε α → σ → Prop
  | refl {p : Proc σ ι ε α} {s : σ} : Reaches A p s p s
  | step {p p₁ p' : Proc σ ι ε α} {s s₁ s' : σ} (i : ι) (allowed : A s i)
      (first : p.step i s = some (p₁, s₁)) (rest : Reaches A p₁ s₁ p' s') : Reaches A p s p' s'

/-- The task run on the given inputs, as far as it goes with them. -/
def runOn : List ι → Proc σ ι ε α → σ → Proc σ ι ε α × σ
  | [], p, s => (p, s)
  | i :: rest, p, s =>
    match p.step i s with
    | some (p', s') => runOn rest p' s'
    | none => (p, s)

theorem reaches_runOn {A : σ → ι → Prop} {inputs : List ι} (hA : ∀ i ∈ inputs, ∀ s, A s i)
    (p : Proc σ ι ε α) (s : σ) : Reaches A p s (runOn inputs p s).1 (runOn inputs p s).2 := by
  induction inputs generalizing p s with
  | nil => exact .refl
  | cons i rest ih =>
    rw [runOn]
    split
    next p' s' hstep =>
      exact .step i (hA i List.mem_cons_self s) hstep
        (ih (fun j hj => hA j (List.mem_cons_of_mem _ hj)) p' s')
    next => exact .refl

theorem runOn_done (inputs : List ι) (r : Except ε α) (s : σ) :
    runOn inputs (.done r) s = (.done r, s) := by
  cases inputs <;> rfl

theorem runOn_andThen {inputs : List ι} {p : Proc σ ι ε α} {g : Except ε α → Proc σ ι ε β} {s t : σ}
    {r : Except ε α} {r' : Except ε β} (h : runOn inputs p s = (.done r, t)) (hg : g r = .done r') :
    runOn inputs (p.andThen g) s = (.done r', t) := by
  induction inputs generalizing p s with
  | nil =>
    obtain ⟨rfl, rfl⟩ := Prod.mk.inj h
    exact congrArg (·, s) hg
  | cons i rest ih =>
    cases p with
    | done r =>
      obtain ⟨h, rfl⟩ := Prod.mk.inj h
      cases h
      rw [andThen, hg, runOn_done]
    | act f k =>
      simp only [andThen, runOn, step] at h ⊢
      cases hf : f i s with
      | none => simp [hf] at h
      | some next =>
        rw [hf] at h
        exact ih h
    | loop body k =>
      simp only [andThen, runOn, step] at h ⊢
      rw [← nextRound_andThen, ← andThen_assoc]
      exact ih h

variable {p p' : Proc σ ι ε α} {s' : σ}

theorem Ends.reaches {S : Setting σ ι} {Q : Except ε α → σ → Prop}
    {s : σ} (h : Ends S Q p s) (hr : Reaches S.allowed p s p' s') (hs : S.through s) :
    S.through s' ∧ Ends S Q p' s' := by
  induction hr with
  | refl => exact ⟨hs, h⟩
  | step i allowed first _ ih =>
    cases h with
    | done _ => cases first
    | act acts passes next =>
      obtain ⟨⟨r, t⟩, hf, he⟩ := Option.map_eq_some_iff.mp first
      obtain ⟨rfl, rfl⟩ := Prod.mk.inj he
      exact ih (next i r t allowed hf) (passes i r t allowed hf)
    | loop hbody =>
      obtain ⟨rfl, rfl⟩ := Prod.mk.inj (Option.some.inj first)
      exact ih hbody hs

theorem Always.step {T : σ → σ → Prop} [Std.Refl T] {s : σ} {i : ι}
    (h : p.Always T) (hstep : p.step i s = some (p', s')) : T s s' ∧ p'.Always T := by
  cases p with
  | done r => cases hstep
  | act f k =>
    obtain ⟨⟨r, t⟩, hf, he⟩ := Option.map_eq_some_iff.mp hstep
    obtain ⟨rfl, rfl⟩ := Prod.mk.inj he
    exact ⟨h.1 i s r t hf, h.2 r⟩
  | loop body k =>
    obtain ⟨rfl, rfl⟩ := Prod.mk.inj (Option.some.inj hstep)
    refine ⟨Std.Refl.refl _, always_andThen h.1 fun r => ?_⟩
    match r with
    | .ok none => exact h
    | .ok (some b) => exact h.2 _
    | .error e => exact h.2 _

theorem Always.reaches {T : σ → σ → Prop} [Std.Refl T] [IsTrans σ T] {A : σ → ι → Prop} {s : σ}
    (h : p.Always T) (hr : Reaches A p s p' s') : T s s' := by
  induction hr with
  | refl => exact Std.Refl.refl _
  | step i allowed first _ ih =>
    obtain ⟨hfirst, hrest⟩ := h.step first
    exact IsTrans.trans _ _ _ hfirst (ih hrest)

/-! ## Runs that have ended

A run of a sequence of tasks is a sequence of their runs. -/

/-- The task runs from `s` and ends with `r` in `t`. -/
def Runs (A : σ → ι → Prop) (p : Proc σ ι ε α) (s : σ) (r : Except ε α) (t : σ) : Prop :=
  Reaches A p s (.done r) t

def ended : Proc σ ι ε α → Option (Except ε α)
  | .done r => some r
  | _ => none

theorem ended_eq {r : Except ε α} (h : p.ended = some r) : p = .done r := by
  cases p with
  | done r' => exact congrArg done (Option.some.inj h)
  | act f k => cases h
  | loop body k => cases h

section Runs

variable {A : σ → ι → Prop} {s t : σ}

variable {p : Proc σ ι ε α} {r : Except ε α}

theorem runs_runOn (inputs : List ι)
    (hA : ∀ i ∈ inputs, ∀ s, A s i) (h : (runOn inputs p s).1.ended = some r) :
    Runs A p s r (runOn inputs p s).2 := by
  have hr := reaches_runOn hA p s
  rw [ended_eq h] at hr
  exact hr

theorem runs_andThen {g : Except ε α → Proc σ ι ε β} {r : Except ε β}
    (h : Runs A (p.andThen g) s r t) : ∃ r' u, Runs A p s r' u ∧ Runs A (g r') u r t := by
  generalize hq : p.andThen g = q at h
  unfold Runs at h
  generalize hd : (Proc.done r : Proc σ ι ε β) = d at h
  induction h generalizing p with
  | refl =>
    subst hd
    cases p with
    | done r' =>
      have hg : g r' = .done r := hq
      refine ⟨r', _, .refl, ?_⟩
      rw [hg]
      exact .refl
    | act f k => cases hq
    | loop body k => cases hq
  | step i allowed first rest ih =>
    subst hq hd
    cases p with
    | done r' => exact ⟨r', _, .refl, .step i allowed first rest⟩
    | act f k =>
      obtain ⟨⟨r', u⟩, hf, he⟩ := Option.map_eq_some_iff.mp first
      obtain ⟨rfl, rfl⟩ := Prod.mk.inj he
      obtain ⟨r₁, v, h₁, h₂⟩ := ih rfl rfl
      exact ⟨r₁, v, .step i allowed (by simp [Proc.step, hf]) h₁, h₂⟩
    | loop body k =>
      obtain ⟨he, rfl⟩ := Prod.mk.inj (Option.some.inj first)
      -- the rounds of the loop in the sequence are those of the loop alone
      obtain ⟨r₁, v, h₁, h₂⟩ := ih (p := body.andThen (nextRound body k))
        (by rw [andThen_assoc, nextRound_andThen]; exact he) rfl
      exact ⟨r₁, v, .step i allowed rfl h₁, h₂⟩

theorem runs_bind {f : α → Proc σ ι ε β} {r : Except ε β} (h : Runs A (p >>= f) s r t) :
    (∃ a u, Runs A p s (.ok a) u ∧ Runs A (f a) u r t) ∨ ∃ e, Runs A p s (.error e) t ∧ r = .error e := by
  obtain ⟨r', u, hp, hr⟩ := runs_andThen h
  cases r' with
  | ok a => exact .inl ⟨a, u, hp, hr⟩
  | error e =>
    cases hr with
    | refl => exact .inr ⟨e, hp, rfl⟩
    | step i allowed first rest => cases first

theorem runs_bind_ok {f : α → Proc σ ι ε β} {b : β} (h : Runs A (p >>= f) s (.ok b) t) :
    ∃ a u, Runs A p s (.ok a) u ∧ Runs A (f a) u (.ok b) t := by
  obtain h | ⟨e, -, he⟩ := runs_bind h
  · exact h
  · cases he

theorem runs_done {r' : Except ε α} (h : Runs A (.done r' : Proc σ ι ε α) s r t) :
    r = r' ∧ t = s := by
  cases h with
  | refl => exact ⟨rfl, rfl⟩
  | step i allowed first rest => cases first

theorem runs_ofExcept {x : Except ε α} (h : Runs A (ofExcept x : Proc σ ι ε α) s r t) :
    r = x ∧ t = s :=
  runs_done h

theorem runs_pure {a : α} (h : Runs A (pure a : Proc σ ι ε α) s r t) : r = .ok a ∧ t = s :=
  runs_done h

theorem runs_fail {e : ε} (h : Runs A (fail e : Proc σ ι ε α) s r t) : r = .error e ∧ t = s :=
  runs_done h

theorem runs_attempt {r : Except ε (Except ε α)} (h : Runs A p.attempt s r t) :
    ∃ r', r = .ok r' ∧ Runs A p s r' t := by
  obtain ⟨r', u, hp, hr⟩ := runs_andThen h
  obtain ⟨rfl, rfl⟩ := runs_done hr
  exact ⟨r', rfl, hp⟩

theorem runs_atomic {f : ι → σ → Option (Except ε β × σ)} {r : Except ε β}
    (h : Runs A (atomic f) s r t) : ∃ i, A s i ∧ f i s = some (r, t) := by
  cases h with
  | step i allowed first rest =>
    obtain ⟨⟨r', u⟩, hf, he⟩ := Option.map_eq_some_iff.mp first
    obtain ⟨rfl, rfl⟩ := Prod.mk.inj he
    obtain ⟨rfl, rfl⟩ := runs_done rest
    exact ⟨i, allowed, hf⟩

end Runs

/-! ## What the runs of a task do -/

/-- Every run of the task to its end does `T`. -/
def Does (T : σ → σ → Prop) (p : Proc σ ι ε α) : Prop :=
  ∀ (A : σ → ι → Prop) s r t, Runs A p s r t → T s t

/-- Every run of the task that succeeds does `T`. -/
def Succeeds (T : σ → σ → Prop) (p : Proc σ ι ε α) : Prop :=
  ∀ (A : σ → ι → Prop) s a t, Runs A p s (.ok a) t → T s t

/-- Every run of the task that fails does `T`. -/
def Fails (T : σ → σ → Prop) (p : Proc σ ι ε α) : Prop :=
  ∀ (A : σ → ι → Prop) s e t, Runs A p s (.error e) t → T s t

section Does

variable {T : σ → σ → Prop}

variable {p : Proc σ ι ε α} {f : α → Proc σ ι ε β}

theorem Does.mono {T' : σ → σ → Prop} (hT : ∀ s t, T s t → T' s t) (h : p.Does T) : p.Does T' :=
  fun A s r t hr => hT s t (h A s r t hr)

theorem does_atomic {f : ι → σ → Option (Except ε β × σ)}
    (h : ∀ i s r t, f i s = some (r, t) → T s t) : (atomic f).Does T := by
  intro A s r t hr
  obtain ⟨i, -, hf⟩ := runs_atomic hr
  exact h i s r t hf

theorem does_bind [IsTrans σ T] (hp : p.Does T) (hf : ∀ a, (f a).Does T) : (p >>= f).Does T := by
  intro A s r t hr
  obtain ⟨a, u, h₁, h₂⟩ | ⟨e, h₁, -⟩ := runs_bind hr
  · exact IsTrans.trans _ _ _ (hp A s _ u h₁) (hf a A u r t h₂)
  · exact hp A s _ t h₁

/-- A loop from the middle of a round: what is left of the round ends with `T`, and so does
every round after it. -/
theorem does_rounds [IsTrans σ T] {body q : Proc σ ι ε (Option α)} (hbody : body.Does T)
    {A : σ → ι → Prop} {s u t : σ} {r : Except ε α}
    (h : Runs A (q.andThen (nextRound body done)) u r t)
    (hq : ∀ r' v, Runs A q u r' v → T s v) : T s t := by
  generalize hp : q.andThen (nextRound body done) = p at h
  unfold Runs at h
  generalize hd : (Proc.done r : Proc σ ι ε α) = d at h
  induction h generalizing q with
  | refl =>
    subst hd
    cases q with
    | done r' => exact hq r' _ .refl
    | act f k => cases hp
    | loop body' k => cases hp
  | step i allowed first rest ih =>
    subst hp hd
    cases q with
    | done r' =>
      match r' with
      | .ok none =>
        obtain ⟨rfl, rfl⟩ := Prod.mk.inj (Option.some.inj first)
        refine ih (fun r'' v hv => ?_) rfl rfl
        exact IsTrans.trans _ _ _ (hq _ _ .refl) (hbody A _ r'' v hv)
      | .ok (some b) => cases first
      | .error e => cases first
    | act f k =>
      obtain ⟨⟨r', v⟩, hf, he⟩ := Option.map_eq_some_iff.mp first
      obtain ⟨rfl, rfl⟩ := Prod.mk.inj he
      refine ih (q := k r') (fun r'' x hx => hq r'' x (.step i allowed ?_ hx)) rfl rfl
      simp [Proc.step, hf]
    | loop body' k =>
      obtain ⟨he, rfl⟩ := Prod.mk.inj (Option.some.inj first)
      refine ih (q := body'.andThen (nextRound body' k))
        (fun r'' x hx => hq r'' x (.step i allowed rfl hx)) ?_ rfl
      rw [andThen_assoc, nextRound_andThen]
      exact he

theorem does_repeatUntil [IsTrans σ T] {body : Proc σ ι ε (Option α)} (hbody : body.Does T) :
    (repeatUntil body).Does T := by
  intro A s r t hr
  cases hr with
  | step i allowed first rest =>
    obtain ⟨rfl, rfl⟩ := Prod.mk.inj (Option.some.inj first)
    exact does_rounds hbody rest fun r' v hv => hbody A _ r' v hv

variable [Std.Refl T]

theorem does_done (r : Except ε α) : (done r : Proc σ ι ε α).Does T := by
  intro A s r' t hr
  obtain ⟨-, rfl⟩ := runs_done hr
  exact Std.Refl.refl _

@[simp] theorem does_pure (a : α) : (pure a : Proc σ ι ε α).Does T := does_done _

@[simp] theorem does_fail (e : ε) : (fail e : Proc σ ι ε α).Does T := does_done _

@[simp] theorem does_ofExcept (r : Except ε α) : (ofExcept r : Proc σ ι ε α).Does T := does_done _

/-! A task that only goes on after a success does `T` if its parts do so when they succeed. -/

omit [Std.Refl T] in
theorem Does.succeeds (h : p.Does T) : p.Succeeds T :=
  fun A s a t hr => h A s (.ok a) t hr

omit [Std.Refl T] in
theorem succeeds_bind [IsTrans σ T] (hp : p.Succeeds T)
    (hf : ∀ a, (f a).Succeeds T) : (p >>= f).Succeeds T := by
  intro A s b t hr
  obtain ⟨a, u, h₁, h₂⟩ := runs_bind_ok hr
  exact IsTrans.trans _ _ _ (hp A s a u h₁) (hf a A u b t h₂)

omit [Std.Refl T] in
theorem Does.fails (h : p.Does T) : p.Fails T :=
  fun A s e t hr => h A s (.error e) t hr

omit [Std.Refl T] in
theorem fails_bind [IsTrans σ T] (hp : p.Does T) (hf : ∀ a, (f a).Fails T) : (p >>= f).Fails T := by
  intro A s e t hr
  obtain ⟨a, u, h₁, h₂⟩ | ⟨e', h₁, -⟩ := runs_bind hr
  · exact IsTrans.trans _ _ _ (hp A s _ u h₁) (hf a A u e t h₂)
  · exact hp A s _ t h₁

omit [Std.Refl T] in
theorem fails_bind_pure {f : α → β} (hp : p.Fails T) : (p >>= fun a => pure (f a)).Fails T := by
  intro A s e t hr
  obtain ⟨a, u, -, hpure⟩ | ⟨e', h, -⟩ := runs_bind hr
  · cases (runs_pure hpure).1
  · exact hp A s e' t h

omit [Std.Refl T] in
@[simp] theorem succeeds_fail (e : ε) : (fail e : Proc σ ι ε α).Succeeds T := by
  intro A s a t hr
  obtain ⟨he, -⟩ := runs_fail hr
  cases he

@[simp] theorem succeeds_pure (a : α) : (pure a : Proc σ ι ε α).Succeeds T := (does_pure a).succeeds

@[simp] theorem succeeds_ofExcept (r : Except ε α) : (ofExcept r : Proc σ ι ε α).Succeeds T :=
  (does_ofExcept r).succeeds

theorem Always.does [IsTrans σ T] (h : p.Always T) : p.Does T :=
  fun _ _ _ _ hr => h.reaches hr

end Does

end Lorepia.Proc
