import Mathlib
import Lorepia.Lib.Runs

/-!
# Tasks that share a state

A task is a program whose actions are atomic on a state it shares with other tasks.
Between two actions of one task the others may act any number of times; an action
that is not enabled waits. What an action does may depend on an input, and all inputs
together are all behaviours of the environment. An error ends a task unless it is held
back (`attempt`).

`wp` is the weakest precondition under an `Interference`: what the others may do between
two actions (`rely`), what an own action may do (`guar`), the inputs considered, and the
states in which the task may have to wait. Partial correctness allows loops and any wait;
with `loops := False` and a narrow `waits`, `wp` is total correctness: the task ends after
finitely many of its own actions, whatever the others do between them.

`Always` is the special case of a guarantee that each action gives by itself: it needs no
assertions and holds of a program by its parts. A `Pool` runs any number of tasks, and starts
new ones. `Pool.Sound` composes them: if what each task guarantees is what every other task
relies on, then every task keeps its specification in every interleaving.
-/

namespace Lorepia

/-- A task over states `σ` with inputs `ι` and errors `ε`. -/
inductive Proc (σ ι ε : Type) : Type → Type 1 where
  /-- The task has ended. -/
  | done {α : Type} (r : Except ε α) : Proc σ ι ε α
  /-- An atomic action; the task waits while it is `none`. -/
  | act {α β : Type} (f : ι → σ → Option (Except ε β × σ)) (k : Except ε β → Proc σ ι ε α) :
      Proc σ ι ε α
  /-- Repeat `body` until it has a result or fails. -/
  | loop {α β : Type} (body : Proc σ ι ε (Option β)) (k : Except ε β → Proc σ ι ε α) :
      Proc σ ι ε α

namespace Proc

variable {σ ι ε α β γ : Type}

/-- Run `p` and continue with how it ended. -/
def andThen : Proc σ ι ε α → (Except ε α → Proc σ ι ε β) → Proc σ ι ε β
  | done r, g => g r
  | act f k, g => act f fun r => (k r).andThen g
  | loop body k, g => loop body fun r => (k r).andThen g

instance : Monad (Proc σ ι ε) where
  pure a := done (.ok a)
  bind p f := p.andThen fun
    | .ok a => f a
    | .error e => done (.error e)

def atomic (f : ι → σ → Option (Except ε β × σ)) : Proc σ ι ε β := act f done

/-- An atomic action that never waits and has no input. -/
def locked (f : σ → Except ε β × σ) : Proc σ ι ε β := atomic fun _ s => some (f s)

def fail (e : ε) : Proc σ ι ε α := done (.error e)

def ofExcept (r : Except ε α) : Proc σ ι ε α := done r

def attempt (p : Proc σ ι ε α) : Proc σ ι ε (Except ε α) := p.andThen fun r => done (.ok r)

/-- Repeat `body` until it has a result or fails. -/
def repeatUntil (body : Proc σ ι ε (Option α)) : Proc σ ι ε α := loop body done

def nextRound (body : Proc σ ι ε (Option β)) (k : Except ε β → Proc σ ι ε α) :
    Except ε (Option β) → Proc σ ι ε α
  | .ok none => loop body k
  | .ok (some b) => k (.ok b)
  | .error e => k (.error e)

/-- The next action of a task. Entering a round of a loop counts as one and changes
nothing. -/
def step (i : ι) : Proc σ ι ε α → σ → Option (Proc σ ι ε α × σ)
  | done _, _ => none
  | act f k, s => (f i s).map fun (r, s') => (k r, s')
  | loop body k, s => some (body.andThen (nextRound body k), s)

/-! ## Weakest preconditions -/

/-- What a task is specified against. -/
structure Interference (σ ι : Type) where
  /-- What the others may do between two actions. -/
  rely : σ → σ → Prop
  /-- What an action of the task may do. -/
  guar : σ → σ → Prop
  /-- The inputs considered. -/
  allowed : ι → Prop := fun _ => True
  /-- The states in which the task may have to wait. -/
  waits : σ → Prop := fun _ => True
  /-- Whether the task may loop. -/
  loops : Prop := True

/-- `s'` is `s` after any number of actions of others. -/
def Interference.Later (C : Interference σ ι) : σ → σ → Prop := Relation.ReflTransGen C.rely

/-- The others do not invalidate `P`. -/
def Interference.Stable (C : Interference σ ι) (P : σ → Prop) : Prop :=
  ∀ s s', C.rely s s' → P s → P s'

theorem Interference.Stable.later {C : Interference σ ι} {P : σ → Prop} (h : C.Stable P)
    {s s' : σ} (hl : C.Later s s') (hs : P s) : P s' := by
  induction hl with
  | refl => exact hs
  | tail _ hr ih => exact h _ _ hr ih

/-- Run from `s` next to the others, `p` respects its guarantee and ends with `Q` if
it ends. -/
def wp (C : Interference σ ι) : {α : Type} → Proc σ ι ε α → (Except ε α → σ → Prop) → σ → Prop
  | _, done r, Q, s => ∀ s', C.Later s s' → Q r s'
  | _, act f k, Q, s => ∀ s', C.Later s s' →
      (C.waits s' ∨ ∃ i, C.allowed i ∧ (f i s').isSome = true) ∧
      ∀ i r s'', C.allowed i → f i s' = some (r, s'') → C.guar s' s'' ∧ wp C (k r) Q s''
  | _, loop body k, Q, s => C.loops ∧ ∃ I : σ → Prop, C.Stable I ∧ I s ∧ ∀ s', I s' →
      wp C body (fun r s'' =>
        match r with
        | .ok none => I s''
        | .ok (some b) => wp C (k (.ok b)) Q s''
        | .error e => wp C (k (.error e)) Q s'') s'

section Rules

variable {C : Interference σ ι} {s s' : σ}

variable {p : Proc σ ι ε α} {Q : Except ε α → σ → Prop}

theorem wp_later (h : wp C p Q s) (hl : C.Later s s') : wp C p Q s' := by
  cases p with
  | done r => exact fun t ht => h t (hl.trans ht)
  | act f k => exact fun t ht => h t (hl.trans ht)
  | loop body k =>
    obtain ⟨hloops, I, hI, hs, hbody⟩ := h
    exact ⟨hloops, I, hI, hI.later hl hs, hbody⟩

theorem wp_mono {Q' : Except ε α → σ → Prop} (h : wp C p Q s)
    (hQ : ∀ r s, Q r s → Q' r s) : wp C p Q' s := by
  induction p generalizing s with
  | done r => exact fun t ht => hQ _ _ (h t ht)
  | act f k ih =>
    intro t ht
    refine ⟨(h t ht).1, fun i r t' hi hf => ?_⟩
    obtain ⟨hguar, hk⟩ := (h t ht).2 i r t' hi hf
    exact ⟨hguar, ih r hk hQ⟩
  | loop body k ihbody ihk =>
    obtain ⟨hloops, I, hI, hs, hbody⟩ := h
    refine ⟨hloops, I, hI, hs, fun t ht => ihbody (hbody t ht) fun r t' hr => ?_⟩
    match r with
    | .ok none => exact hr
    | .ok (some b) => exact ihk (.ok b) hr hQ
    | .error e => exact ihk (.error e) hr hQ

theorem wp_andThen {g : Except ε α → Proc σ ι ε β}
    {Q : Except ε β → σ → Prop} (h : wp C p (fun r => wp C (g r) Q) s) :
    wp C (p.andThen g) Q s := by
  induction p generalizing s with
  | done r => exact h s .refl
  | act f k ih =>
    intro t ht
    refine ⟨(h t ht).1, fun i r t' hi hf => ?_⟩
    obtain ⟨hguar, hk⟩ := (h t ht).2 i r t' hi hf
    exact ⟨hguar, ih r hk⟩
  | loop body k _ ihk =>
    obtain ⟨hloops, I, hI, hs, hbody⟩ := h
    refine ⟨hloops, I, hI, hs, fun t ht => wp_mono (hbody t ht) fun r t' hr => ?_⟩
    match r with
    | .ok none => exact hr
    | .ok (some b) => exact ihk (.ok b) hr
    | .error e => exact ihk (.error e) hr

theorem wp_step {p' : Proc σ ι ε α} (h : wp C p Q s) {i : ι}
    (hi : C.allowed i) (hstep : p.step i s = some (p', s')) :
    (s' = s ∨ C.guar s s') ∧ wp C p' Q s' := by
  cases p with
  | done r => cases hstep
  | act f k =>
    obtain ⟨⟨r, t⟩, hf, he⟩ := Option.map_eq_some_iff.mp hstep
    obtain ⟨rfl, rfl⟩ := Prod.mk.inj he
    obtain ⟨hguar, hk⟩ := (h s .refl).2 i r t hi hf
    exact ⟨.inr hguar, hk⟩
  | loop body k =>
    obtain ⟨rfl, rfl⟩ := Prod.mk.inj (Option.some.inj hstep)
    obtain ⟨hloops, I, hI, hs, hbody⟩ := h
    refine ⟨.inl rfl, wp_andThen (wp_mono (hbody s hs) fun r t hr => ?_)⟩
    match r with
    | .ok none => exact ⟨hloops, I, hI, hr, hbody⟩
    | .ok (some b) => exact hr
    | .error e => exact hr

/-! ### Rules for programs

A specification names assertions that the others do not invalidate. -/

theorem wp_done {r : Except ε α} (hQ : C.Stable (Q r)) (h : Q r s) : wp C (done r) Q s :=
  fun _ hl => hQ.later hl h

theorem wp_atomic {f : ι → σ → Option (Except ε β × σ)} {Q : Except ε β → σ → Prop}
    {P : σ → Prop} (hP : C.Stable P) (hQ : ∀ r, C.Stable (Q r))
    (hwait : ∀ t, P t → C.waits t ∨ ∃ i, C.allowed i ∧ (f i t).isSome = true)
    (hstep : ∀ i t r t', P t → C.allowed i → f i t = some (r, t') → C.guar t t' ∧ Q r t')
    (h : P s) : wp C (atomic f) Q s := by
  intro t ht
  have hPt := hP.later ht h
  refine ⟨hwait t hPt, fun i r t' hi hf => ?_⟩
  obtain ⟨hguar, hr⟩ := hstep i t r t' hPt hi hf
  exact ⟨hguar, wp_done (hQ r) hr⟩

theorem wp_bind {f : α → Proc σ ι ε β} {M : Except ε α → σ → Prop}
    {Q : Except ε β → σ → Prop} (hp : wp C p M s) (hok : ∀ a t, M (.ok a) t → wp C (f a) Q t)
    (herr : ∀ e t, M (.error e) t → wp C (done (.error e)) Q t) : wp C (p >>= f) Q s :=
  wp_andThen (wp_mono hp fun r t hr => match r with
    | .ok a => hok a t hr
    | .error e => herr e t hr)

theorem wp_attempt {M : Except ε α → σ → Prop}
    {Q : Except ε (Except ε α) → σ → Prop} (hp : wp C p M s)
    (hM : ∀ r, C.Stable (Q (.ok r))) (hQ : ∀ r t, M r t → Q (.ok r) t) :
    wp C (attempt p) Q s :=
  wp_andThen (wp_mono hp fun r t hr => wp_done (hM r) (hQ r t hr))

end Rules

/-! ## What every action of a task does -/

/-- Every action of the task does `T`, wherever it is taken and whatever it is told. -/
def Always (T : σ → σ → Prop) : {α : Type} → Proc σ ι ε α → Prop
  | _, done _ => True
  | _, act f k => (∀ i s r s', f i s = some (r, s') → T s s') ∧ ∀ r, (k r).Always T
  | _, loop body k => body.Always T ∧ ∀ r, (k r).Always T

section Always

variable {T : σ → σ → Prop}

@[simp] theorem always_pure (a : α) : (pure a : Proc σ ι ε α).Always T := trivial

@[simp] theorem always_fail (e : ε) : (fail e : Proc σ ι ε α).Always T := trivial

@[simp] theorem always_ofExcept (r : Except ε α) : (ofExcept r : Proc σ ι ε α).Always T := trivial

theorem always_atomic {f : ι → σ → Option (Except ε β × σ)}
    (h : ∀ i s r s', f i s = some (r, s') → T s s') : (atomic f).Always T :=
  ⟨h, fun _ => trivial⟩

variable {p : Proc σ ι ε α}

theorem Always.mono {T' : σ → σ → Prop} (hT : ∀ s s', T s s' → T' s s')
    (h : p.Always T) : p.Always T' := by
  induction p with
  | done r => trivial
  | act f k ih => exact ⟨fun i s r s' hf => hT s s' (h.1 i s r s' hf), fun r => ih r (h.2 r)⟩
  | loop body k ihbody ihk => exact ⟨ihbody h.1, fun r => ihk r (h.2 r)⟩

theorem always_andThen {g : Except ε α → Proc σ ι ε β} (hp : p.Always T)
    (hg : ∀ r, (g r).Always T) : (p.andThen g).Always T := by
  induction p with
  | done r => exact hg r
  | act f k ih => exact ⟨hp.1, fun r => ih r (hp.2 r) hg⟩
  | loop body k _ ihk => exact ⟨hp.1, fun r => ihk r (hp.2 r) hg⟩

@[simp] theorem always_bind {f : α → Proc σ ι ε β} (hp : p.Always T)
    (hf : ∀ a, (f a).Always T) : (p >>= f).Always T :=
  always_andThen hp fun
    | .ok a => hf a
    | .error _ => trivial

@[simp] theorem always_attempt (hp : p.Always T) : p.attempt.Always T :=
  always_andThen hp fun _ => trivial

@[simp] theorem always_repeatUntil {body : Proc σ ι ε (Option α)} (h : body.Always T) :
    (repeatUntil body).Always T :=
  ⟨h, fun _ => trivial⟩

/-- A task whose every action does `T`, which is within the guarantee, needs nothing of the
others; what neither `T` nor they invalidate holds when it ends. -/
theorem wp_of_always {C : Interference σ ι} (h : p.Always T)
    (hguar : ∀ s s', T s s' → C.guar s s') (hwaits : ∀ s, C.waits s) (hloops : C.loops)
    {P : σ → Prop} (hP : C.Stable P) (hT : ∀ s s', T s s' → P s → P s') {s : σ} (hs : P s) :
    wp C p (fun _ => P) s := by
  induction p generalizing s with
  | done r => exact wp_done hP hs
  | act f k ih =>
    intro t ht
    have hPt := hP.later ht hs
    refine ⟨.inl (hwaits t), fun i r t' _ hf => ?_⟩
    have hstep := h.1 i t r t' hf
    exact ⟨hguar t t' hstep, ih r (h.2 r) (hT t t' hstep hPt)⟩
  | loop body k ihbody ihk =>
    refine ⟨hloops, P, hP, hs, fun t ht => wp_mono (ihbody h.1 ht) fun r t' ht' => ?_⟩
    match r with
    | .ok none => exact ht'
    | .ok (some b) => exact ihk (.ok b) (h.2 _) ht'
    | .error e => exact ihk (.error e) (h.2 _) ht'

end Always

end Proc

/-! ## Pools -/

/-- Tasks with the state they share. A task is known by its place in the list. -/
structure Pool (σ ι ε ρ : Type) where
  tasks : List (Proc σ ι ε ρ)
  shared : σ

namespace Pool

open Proc

variable {σ ι ε ρ κ δ : Type}

/-- What can happen next: a task acts, a command starts a task, or the environment
changes the state. -/
inductive Action (ι κ δ : Type) where
  | run (task : Nat) (input : ι)
  | spawn (command : κ)
  | env (change : δ)

/-- The action is the environment's, or one of a task with an input that `A` allows. -/
def Action.In (A : Nat → ι → Prop) : Action ι κ δ → Prop
  | .run k i => A k i
  | .spawn _ => True
  | .env _ => True

/-- What the commands run, and what the environment does. A command is told the place
of the task it starts. -/
structure System (σ ι ε ρ κ δ : Type) where
  code : κ → Nat → Proc σ ι ε ρ
  env : δ → σ → σ

variable (S : System σ ι ε ρ κ δ)

def System.step : Action ι κ δ → Pool σ ι ε ρ → Pool σ ι ε ρ
  | .run k i, P =>
    match P.tasks[k]?.bind fun p => p.step i P.shared with
    | some (p, s) => { tasks := P.tasks.set k p, shared := s }
    | none => P
  | .spawn c, P => { P with tasks := P.tasks ++ [S.code c P.tasks.length] }
  | .env d, P => { P with shared := S.env d P.shared }

def System.server : Server (Pool σ ι ε ρ) (Action ι κ δ) Unit where
  exec a P := ((), S.step a P)

/-- Every task in `D` meets its specification from where it stands. -/
structure Sound (D : Nat → Prop) (C : Nat → Interference σ ι) (I : σ → Prop)
    (Q : Nat → Except ε ρ → σ → Prop) (P : Pool σ ι ε ρ) : Prop where
  inv : I P.shared
  task : ∀ k p, D k → P.tasks[k]? = some p → wp (C k) p (Q k) P.shared

/-- The specifications of the tasks fit together. -/
structure Fit (C : Nat → Interference σ ι) (I : σ → Prop) (Q : Nat → Except ε ρ → σ → Prop) :
    Prop where
  /-- What one task guarantees, the others rely on. -/
  share : ∀ j k s s', j ≠ k → I s → (C j).guar s s' → (C k).rely s s'
  keeps : ∀ k s s', I s → (C k).guar s s' → I s'
  env : ∀ d k s, I s → (C k).rely s (S.env d s)
  envKeeps : ∀ d s, I s → I (S.env d s)
  spawn : ∀ c k s, I s → wp (C k) (S.code c k) (Q k) s

variable {S} {D : Nat → Prop} {C : Nat → Interference σ ι} {I : σ → Prop}
  {Q : Nat → Except ε ρ → σ → Prop} {P : Pool σ ι ε ρ}

/-- The inputs the tasks in `D` are specified for. -/
def Within (D : Nat → Prop) (C : Nat → Interference σ ι) (k : Nat) (i : ι) : Prop :=
  D k ∧ (C k).allowed i

theorem step_run {k : Nat} {p : Proc σ ι ε ρ} (hk : P.tasks[k]? = some p) (i : ι) :
    S.step (.run k i) P = match p.step i P.shared with
      | some (p', s') => { tasks := P.tasks.set k p', shared := s' }
      | none => P := by
  simp only [System.step, hk, Option.bind_some]

variable {a : Action ι κ δ}

theorem Sound.step_cases (h : P.Sound D C I Q) (ha : a.In (Within D C)) :
    (S.step a P).shared = P.shared ∨ (∃ k, D k ∧ (C k).guar P.shared (S.step a P).shared) ∨
      ∃ d, (S.step a P).shared = S.env d P.shared := by
  cases a with
  | run k i =>
    rcases hk : P.tasks[k]? with _ | p
    · simp [System.step, hk]
    · rw [step_run hk]
      rcases hp : p.step i P.shared with _ | ⟨p', s'⟩
      · exact .inl rfl
      · rcases (wp_step (h.task k p ha.1 hk) ha.2 hp).1 with hs | hguar
        · exact .inl hs
        · exact .inr (.inl ⟨k, ha.1, hguar⟩)
  | spawn c => exact .inl rfl
  | env d => exact .inr (.inr ⟨d, rfl⟩)

theorem Sound.step_other (h : P.Sound D C I Q) (hfit : Fit S C I Q)
    (ha : a.In (Within D C)) {k : Nat} (hk : a.In fun j _ => j ≠ k) :
    (C k).Later P.shared (S.step a P).shared := by
  cases a with
  | run j i =>
    rcases hj : P.tasks[j]? with _ | p
    · simpa [System.step, hj] using .refl
    · rw [step_run hj]
      rcases hp : p.step i P.shared with _ | ⟨p', s'⟩
      · exact .refl
      · rcases (wp_step (h.task j p ha.1 hj) ha.2 hp).1 with hs | hguar
        · exact hs ▸ .refl
        · exact .single (hfit.share j k _ _ hk h.inv hguar)
  | spawn c => exact .refl
  | env d => exact .single (hfit.env d k _ h.inv)

theorem Sound.step (h : P.Sound D C I Q) (hfit : Fit S C I Q)
    (ha : a.In (Within D C)) : (S.step a P).Sound D C I Q := by
  refine ⟨?_, fun k p hD hk => ?_⟩
  · rcases h.step_cases ha with hs | ⟨j, -, hguar⟩ | ⟨d, hd⟩
    · exact hs ▸ h.inv
    · exact hfit.keeps j _ _ h.inv hguar
    · exact hd ▸ hfit.envKeeps d _ h.inv
  · cases a with
    | run j i =>
      by_cases hkj : k = j
      · -- the task that acts
        subst hkj
        rcases hp : P.tasks[k]? with _ | q
        · simp [System.step, hp] at hk
        · rw [step_run hp] at hk ⊢
          rcases hq : q.step i P.shared with _ | ⟨q', s'⟩
          · rw [hq] at hk
            exact h.task k p hD hk
          · rw [hq] at hk
            have hlt : k < P.tasks.length := (List.getElem?_eq_some_iff.mp hp).1
            obtain rfl : q' = p := by simpa [List.getElem?_set_self hlt] using hk
            exact (wp_step (h.task k q hD hp) ha.2 hq).2
      · have hk' : P.tasks[k]? = some p := by
          rcases hp : P.tasks[j]? with _ | q
          · simpa [System.step, hp] using hk
          · rw [step_run hp] at hk
            rcases hq : q.step i P.shared with _ | ⟨q', s'⟩
            · simpa [hq] using hk
            · simpa [hq, List.getElem?_set_ne (Ne.symm hkj)] using hk
        exact wp_later (h.task k p hD hk') (h.step_other hfit ha (Ne.symm hkj))
    | spawn c =>
      rcases Nat.lt_or_ge k P.tasks.length with hlt | hge
      · rw [System.step, List.getElem?_append_left hlt] at hk
        exact h.task k p hD hk
      · rw [System.step, List.getElem?_append_right hge] at hk
        obtain ⟨hlen, rfl⟩ := List.getElem?_eq_some_iff.mp hk
        have hkeq : k = P.tasks.length := by simp at hlen; omega
        subst hkeq
        simpa [System.step] using hfit.spawn c _ _ h.inv
    | env d => exact wp_later (h.task k p hD hk) (.single (hfit.env d k _ h.inv))

theorem Sound.run (h : P.Sound D C I Q) (hfit : Fit S C I Q) {actions : List (Action ι κ δ)}
    (ha : ∀ a ∈ actions, a.In (Within D C)) : (S.server.run actions P).2.Sound D C I Q :=
  Server.run_invariant (I := fun (P : Pool σ ι ε ρ) => P.Sound D C I Q)
    (fun _ _ ha hP => hP.step hfit ha) ha h

end Pool

end Lorepia
