import Lorepia.Lib.Alone

/-!
# Tasks inside larger tasks

A component is written over its own state and with its own errors. `within L p` is the task `p`
on the part of a larger state that the lens `L` selects; how `p` ends is its result, so that
the caller decides what an error of `p` means. A run of `within L p` is a run of `p` on that
part, and the rest of the state stays as it was (`runs_within`).
-/

namespace Lorepia

/-- A part of a state. -/
structure Lens (τ σ : Type) where
  get : τ → σ
  set : τ → σ → τ
  get_set : ∀ t s, get (set t s) = s
  set_get : ∀ t, set t (get t) = t
  set_set : ∀ t s s', set (set t s) s' = set t s'

namespace Proc

variable {τ σ ι ε ε' α β : Type}

def roundEnd : Except ε' (Except ε (Option β)) → Proc τ ι ε' (Option (Except ε β))
  | .ok (.ok none) => done (.ok none)
  | .ok (.ok (some b)) => done (.ok (some (.ok b)))
  | .ok (.error e) => done (.ok (some (.error e)))
  | .error e => done (.error e)

/-- Go on with the result of a task whose errors are results. -/
def resume (k : Except ε α → Proc τ ι ε' β) : Except ε' (Except ε α) → Proc τ ι ε' β
  | .ok r => k r
  | .error e => done (.error e)

def within (L : Lens τ σ) : {α : Type} → Proc σ ι ε α → Proc τ ι ε' (Except ε α)
  | _, done r => done (.ok r)
  | _, act f k =>
    act (fun i t => (f i (L.get t)).map fun (r, s) => (.ok r, L.set t s))
      (resume fun r => (k r).within L)
  | _, loop body k => loop ((body.within L).andThen roundEnd) (resume fun r => (k r).within L)

section Within

variable (L : Lens τ σ)

theorem within_andThen (p : Proc σ ι ε α) (g : Except ε α → Proc σ ι ε β) :
    ((p.andThen g).within L : Proc τ ι ε' (Except ε β)) =
      (p.within L).andThen (resume fun r => (g r).within L) := by
  induction p with
  | done r => rfl
  | act f k ih =>
    refine congrArg (act _) (funext fun r => ?_)
    cases r with
    | ok r => exact ih r g
    | error e => rfl
  | loop body k _ ihk =>
    refine congrArg (loop _) (funext fun r => ?_)
    cases r with
    | ok r => exact ihk r g
    | error e => rfl

/-- A round of the loop on the part is a round of the loop. -/
theorem within_round (body : Proc σ ι ε (Option β)) (k : Except ε β → Proc σ ι ε α) :
    ((body.within L).andThen roundEnd).andThen
        (nextRound ((body.within L).andThen roundEnd) (resume fun r => (k r).within L)) =
      ((body.andThen (nextRound body k)).within L : Proc τ ι ε' (Except ε α)) := by
  rw [within_andThen, andThen_assoc]
  refine congrArg _ (funext fun r => ?_)
  match r with
  | .ok (.ok none) => rfl
  | .ok (.ok (some b)) => rfl
  | .ok (.error e) => rfl
  | .error e => rfl

theorem step_within (p : Proc σ ι ε α) (i : ι) (t : τ) :
    (p.within L : Proc τ ι ε' (Except ε α)).step i t =
      (p.step i (L.get t)).map fun (q, s) => (q.within L, L.set t s) := by
  cases p with
  | done r => rfl
  | act f k =>
    simp only [within, step, Option.map_map]
    rfl
  | loop body k =>
    simp only [within, step, Option.map_some, L.set_get]
    rw [within_round]

variable {L}

theorem runs_within {p : Proc σ ι ε α} {A : τ → ι → Prop} {t t' : τ}
    {r : Except ε' (Except ε α)} (h : Runs A (p.within L) t r t') :
    ∃ r', r = .ok r' ∧ Runs (fun _ _ => True) p (L.get t) r' (L.get t') ∧
      t' = L.set t (L.get t') := by
  generalize hq : (p.within L : Proc τ ι ε' (Except ε α)) = q at h
  unfold Runs at h
  generalize hd : (Proc.done r : Proc τ ι ε' (Except ε α)) = d at h
  induction h generalizing p with
  | refl =>
    subst hd
    cases p with
    | done r' =>
      cases hq
      exact ⟨r', rfl, .refl, (L.set_get _).symm⟩
    | act f k => cases hq
    | loop body k => cases hq
  | step i allowed first rest ih =>
    subst hq
    rw [step_within] at first
    obtain ⟨⟨q, s⟩, hstep, he⟩ := Option.map_eq_some_iff.mp first
    obtain ⟨hq, ht⟩ := Prod.mk.inj he
    obtain ⟨r', hr, hruns, hset⟩ := ih hq hd
    subst ht
    refine ⟨r', hr, ?_, ?_⟩
    · rw [L.get_set] at hruns
      exact .step i trivial hstep hruns
    · rw [hset, L.set_set, L.get_set]

theorem does_within {T : σ → σ → Prop} {p : Proc σ ι ε α} (hp : p.Does T) :
    (p.within L : Proc τ ι ε' (Except ε α)).Does fun t t' =>
      T (L.get t) (L.get t') ∧ t' = L.set t (L.get t') := by
  intro A t r t' h
  obtain ⟨r', -, hruns, hset⟩ := runs_within h
  exact ⟨hp _ _ _ _ hruns, hset⟩

end Within

end Proc

end Lorepia
