import Mathlib

/-!
# Programs that can be interrupted

A program runs over a state that outlives it, such as a disk. It reaches the state
through atomic actions and may be stopped at any of them: a crash before an action
leaves what the earlier actions wrote. Between its actions it consults an observer
that may ask it to give up; what it does then is up to the program.

Which points are interrupted, actions and consultations alike, is a `Schedule`; all schedules
together are all placements of crashes and cancellations. Every action and every accepted
cancellation leaves a label in the trace.

`wp` is the weakest precondition with two postconditions, one for a program that reaches its
end and one for a program that stops before it. Its rules are equations (`wp_bind`, ..), so
that a program is executed symbolically by rewriting.
-/

namespace Lorepia

/-- Why a program did not reach its end. -/
inductive Stop (ε : Type) where
  | crashed
  | failed (error : ε)
  deriving DecidableEq

/-- The state, the labels of what has happened so far, and the number of points
passed. -/
structure World (σ ℓ : Type) where
  state : σ
  trace : List ℓ := []
  clock : Nat := 0

abbrev Schedule := Nat → Bool

def Schedule.Interrupts (s : Schedule) : Prop := ∃ k, s k = true

/-- A program over states `σ` with labels `ℓ` and errors `ε`. -/
def Prog (σ ℓ ε α : Type) : Type :=
  Schedule → World σ ℓ → Except (Stop ε) α × World σ ℓ

namespace World

variable {σ ℓ : Type}

/-- One point passed, nothing else. -/
def tick (w : World σ ℓ) : World σ ℓ := { w with clock := w.clock + 1 }

/-- One point passed at which `l` happened and the state became `f state`. -/
def after (w : World σ ℓ) (l : ℓ) (f : σ → σ) : World σ ℓ :=
  { state := f w.state, trace := w.trace ++ [l], clock := w.clock + 1 }

@[simp] theorem tick_state (w : World σ ℓ) : w.tick.state = w.state := rfl

@[simp] theorem after_state (w : World σ ℓ) (l : ℓ) (f : σ → σ) :
    (w.after l f).state = f w.state := rfl

@[simp] theorem after_trace (w : World σ ℓ) (l : ℓ) (f : σ → σ) :
    (w.after l f).trace = w.trace ++ [l] := rfl

end World

namespace Prog

variable {σ ℓ ε α β : Type}

instance : Monad (Prog σ ℓ ε) where
  pure a := fun _ w => (.ok a, w)
  bind x f := fun s w =>
    match x s w with
    | (.ok a, w') => f a s w'
    | (.error e, w') => (.error e, w')

def read (f : σ → α) : Prog σ ℓ ε α := fun _ w => (.ok (f w.state), w)

def fail (e : ε) : Prog σ ℓ ε α := fun _ w => (.error (.failed e), w)

/-- Give up with an error unless `c` holds. -/
def require (c : Prop) [Decidable c] (e : ε) : Prog σ ℓ ε Unit :=
  fun _ w => (if c then .ok () else .error (.failed e), w)

/-- Run `x` if `c` holds. -/
def when (c : Prop) [Decidable c] (x : Prog σ ℓ ε Unit) : Prog σ ℓ ε Unit :=
  if c then x else pure ()

/-- An atomic change of the state. A crash comes before it. -/
def act (l : ℓ) (f : σ → σ) : Prog σ ℓ ε Unit := fun s w =>
  if s w.clock then (.error .crashed, w.tick) else (.ok (), w.after l f)

def heed (l : ℓ) (e : ε) : Prog σ ℓ ε Unit := fun s w =>
  if s w.clock then (.error (.failed e), w.after l id) else (.ok (), w.tick)

/-- Obey the observer `n` times. -/
def heedTimes (l : ℓ) (e : ε) : Nat → Prog σ ℓ ε Unit
  | 0 => pure ()
  | n + 1 => do
    heed l e
    heedTimes l e n

def attempt (x : Prog σ ℓ ε α) : Prog σ ℓ ε (Except ε α) := fun s w =>
  match x s w with
  | (.ok a, w') => (.ok (.ok a), w')
  | (.error (.failed e), w') => (.ok (.error e), w')
  | (.error .crashed, w') => (.error .crashed, w')

/-! ## Weakest preconditions -/

/-- Run from `w`, `x` either ends with `Q` or stops with `R`. -/
def wp (s : Schedule) (x : Prog σ ℓ ε α) (Q : α → World σ ℓ → Prop)
    (R : Stop ε → World σ ℓ → Prop) (w : World σ ℓ) : Prop :=
  match x s w with
  | (.ok a, w') => Q a w'
  | (.error e, w') => R e w'

section Rules

variable {s : Schedule} {Q Q' : α → World σ ℓ → Prop} {R R' : Stop ε → World σ ℓ → Prop}
  {w : World σ ℓ}

theorem wp_of_eq_ok {x : Prog σ ℓ ε α} (h : wp s x Q R w) {a : α} {w' : World σ ℓ}
    (he : x s w = (.ok a, w')) : Q a w' := by
  unfold wp at h
  rwa [he] at h

theorem wp_of_eq_error {x : Prog σ ℓ ε α} (h : wp s x Q R w) {e : Stop ε} {w' : World σ ℓ}
    (he : x s w = (.error e, w')) : R e w' := by
  unfold wp at h
  rwa [he] at h

@[simp] theorem wp_pure {a : α} : wp s (pure a) Q R w ↔ Q a w := Iff.rfl

@[simp] theorem wp_bind {x : Prog σ ℓ ε β} {f : β → Prog σ ℓ ε α} :
    wp s (x >>= f) Q R w ↔ wp s x (fun b w' => wp s (f b) Q R w') R w := by
  show (match (match x s w with
    | (.ok a, w') => f a s w'
    | (.error e, w') => (.error e, w')) with
    | (.ok a, w') => Q a w'
    | (.error e, w') => R e w') ↔ _
  unfold wp
  rcases x s w with ⟨e | b, w'⟩
  · exact Iff.rfl
  · exact Iff.rfl

@[simp] theorem wp_read {f : σ → α} : wp s (read f) Q R w ↔ Q (f w.state) w := Iff.rfl

@[simp] theorem wp_fail {e : ε} : wp s (fail e : Prog σ ℓ ε α) Q R w ↔ R (.failed e) w := Iff.rfl

@[simp] theorem wp_require {c : Prop} [Decidable c] {e : ε} {Q : Unit → World σ ℓ → Prop} :
    wp s (require c e) Q R w ↔ (c → Q () w) ∧ (¬ c → R (.failed e) w) := by
  unfold wp require
  by_cases h : c <;> simp [h]

@[simp] theorem wp_when {c : Prop} [Decidable c] {x : Prog σ ℓ ε Unit}
    {Q : Unit → World σ ℓ → Prop} :
    wp s (when c x) Q R w ↔ (c → wp s x Q R w) ∧ (¬ c → Q () w) := by
  unfold when
  by_cases h : c <;> simp [h]

@[simp] theorem wp_act {l : ℓ} {f : σ → σ} {Q : Unit → World σ ℓ → Prop} :
    wp s (act l f : Prog σ ℓ ε Unit) Q R w ↔
      (s w.clock = true → R .crashed w.tick) ∧ (s w.clock = false → Q () (w.after l f)) := by
  unfold wp act
  cases s w.clock <;> simp

@[simp] theorem wp_heed {l : ℓ} {e : ε} {Q : Unit → World σ ℓ → Prop} :
    wp s (heed l e) Q R w ↔
      (s w.clock = true → R (.failed e) (w.after l id)) ∧ (s w.clock = false → Q () w.tick) := by
  unfold wp heed
  cases s w.clock <;> simp

@[simp] theorem wp_attempt {x : Prog σ ℓ ε α} {Q : Except ε α → World σ ℓ → Prop} :
    wp s (attempt x) Q R w ↔
      wp s x (fun a w' => Q (.ok a) w') (fun e w' =>
        match e with
        | .failed e => Q (.error e) w'
        | .crashed => R .crashed w') w := by
  unfold wp attempt
  rcases x s w with ⟨(_ | e) | a, w'⟩ <;> exact Iff.rfl

theorem wp_heedTimes {l : ℓ} {e : ε} {n : Nat} {Q : Unit → World σ ℓ → Prop}
    (hQ : ∀ w', w'.state = w.state → w'.trace = w.trace → Q () w')
    (hR : ∀ w', w'.state = w.state → w'.trace = w.trace ++ [l] → s.Interrupts →
      R (.failed e) w') : wp s (heedTimes l e n) Q R w := by
  induction n generalizing w with
  | zero => exact hQ w rfl rfl
  | succ n ih =>
    simp only [heedTimes, wp_bind, wp_heed]
    refine ⟨fun hs => hR _ rfl rfl ⟨_, hs⟩, fun _ => ih (fun w' h₁ h₂ => ?_) fun w' h₁ h₂ => ?_⟩
    · exact hQ w' h₁ h₂
    · exact hR w' h₁ h₂

end Rules

end Prog

end Lorepia
