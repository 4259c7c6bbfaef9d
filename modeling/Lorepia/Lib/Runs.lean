import Mathlib

/-!
# Runs of a server

A server answers one call at a time: `exec i s` is its reply to `i` in state `s` and the state
it leaves. `run` feeds it a list of calls and keeps the history of calls and replies. The
induction rules are an invariant of the state (`run_invariant`) and a relation between the
history so far and the state (`run_history`), both under a condition `A` that every call of
the run meets. Where the condition is about what happens in a call, `AllSteps` says it of each
call with the state it is made in and its reply (`AllSteps.invariant`).
-/

namespace Lorepia

universe u v w

/-- A server over states `σ` with calls `ι` and replies `ο`. -/
structure Server (σ : Type u) (ι : Type v) (ο : Type w) where
  exec : ι → σ → ο × σ

namespace Server

variable {σ : Type u} {ι : Type v} {ο : Type w} (S : Server σ ι ο)

def run : List ι → σ → List (ι × ο) × σ
  | [], s => ([], s)
  | i :: is, s =>
    let rest := run is (S.exec i s).2
    ((i, (S.exec i s).1) :: rest.1, rest.2)

/-- `s` is left by some run from `s₀`. -/
def Reachable (s₀ s : σ) : Prop := ∃ is, (S.run is s₀).2 = s

@[simp] theorem run_nil (s : σ) : S.run [] s = ([], s) := rfl

theorem run_cons (i : ι) (is : List ι) (s : σ) :
    S.run (i :: is) s =
      ((i, (S.exec i s).1) :: (S.run is (S.exec i s).2).1, (S.run is (S.exec i s).2).2) := rfl

variable {S} {A : ι → Prop}

variable {is : List ι} {s : σ} {I : σ → Prop} {C : σ → ι → ο → Prop}

theorem run_history {P : List (ι × ο) → σ → Prop}
    (step : ∀ log s i, A i → P log s → P (log ++ [(i, (S.exec i s).1)]) (S.exec i s).2)
    (hA : ∀ i ∈ is, A i) (init : P [] s) :
    P (S.run is s).1 (S.run is s).2 := by
  -- carry the history of the calls already made as an accumulator
  suffices h : ∀ (is : List ι) (log : List (ι × ο)) (s : σ), (∀ i ∈ is, A i) → P log s →
      P (log ++ (S.run is s).1) (S.run is s).2 from h is [] s hA init
  intro is
  induction is with
  | nil =>
    intro log s _ h
    simpa using h
  | cons i is ih =>
    intro log s hA h
    have h₁ := step log s i (hA i List.mem_cons_self) h
    have h₂ := ih _ _ (fun j hj => hA j (List.mem_cons_of_mem _ hj)) h₁
    rw [List.append_assoc] at h₂
    exact h₂

theorem run_invariant (step : ∀ s i, A i → I s → I (S.exec i s).2) (hA : ∀ i ∈ is, A i)
    (init : I s) : I (S.run is s).2 :=
  run_history (P := fun _ s => I s) (fun _ s i hi h => step s i hi h) hA init

variable (S) in
/-- Each call of the run, in the state it is made in and with its reply, meets `C`. -/
def AllSteps (C : σ → ι → ο → Prop) : List ι → σ → Prop
  | [], _ => True
  | i :: is, s => C s i (S.exec i s).1 ∧ AllSteps C is (S.exec i s).2

instance AllSteps.decidable {C : σ → ι → ο → Prop} [∀ s i o, Decidable (C s i o)] :
    ∀ (is : List ι) (s : σ), Decidable (S.AllSteps C is s)
  | [], _ => .isTrue trivial
  | i :: is, s => @instDecidableAnd _ _ inferInstance (AllSteps.decidable is (S.exec i s).2)

theorem AllSteps.mono {C' : σ → ι → ο → Prop} (hC : ∀ s i o, C s i o → C' s i o)
    (h : S.AllSteps C is s) : S.AllSteps C' is s := by
  induction is generalizing s with
  | nil => trivial
  | cons i is ih => exact ⟨hC _ _ _ h.1, ih h.2⟩

/-- What every call that meets `C` preserves holds after a run of such calls. -/
theorem AllSteps.invariant (step : ∀ s i, C s i (S.exec i s).1 → I s → I (S.exec i s).2)
    (h : S.AllSteps C is s) (init : I s) : I (S.run is s).2 := by
  induction is generalizing s with
  | nil => exact init
  | cons i is ih => exact ih h.2 (step s i h.1 init)

/-- With an invariant, each call that meets `C` meets `D`. -/
theorem AllSteps.imp_of_invariant {D : σ → ι → ο → Prop}
    (step : ∀ s i, C s i (S.exec i s).1 → I s → D s i (S.exec i s).1 ∧ I (S.exec i s).2)
    (h : S.AllSteps C is s) (init : I s) : S.AllSteps D is s := by
  induction is generalizing s with
  | nil => trivial
  | cons i is ih =>
    obtain ⟨hD, hI⟩ := step s i h.1 init
    exact ⟨hD, ih h.2 hI⟩

theorem Reachable.invariant (step : ∀ s i, I s → I (S.exec i s).2)
    {s₀ : σ} (init : I s₀) (h : S.Reachable s₀ s) : I s := by
  obtain ⟨is, rfl⟩ := h
  exact run_invariant (A := fun _ => True) (fun s i _ => step s i) (fun _ _ => trivial) init

end Server

end Lorepia
