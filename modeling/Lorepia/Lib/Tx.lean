import Mathlib

/-!
# Transactions

A transaction is a computation over a working copy of a state that either commits (a result
and the new state) or fails with an error and leaves nothing behind: `Tx σ ε α` is
`StateT σ (Except ε) α`. `commit` is the caller's view: the reply together with the state that
is now visible.

The primitives are the few shapes transactional code is made of (a read, a write, a guard, a
lookup that may miss, a check that does not touch the state). Each comes with two inversion
lemmas, one for success and one for failure, and so does `bind`, so that a transaction is taken
apart guard by guard. `Preserves I` is the rule for an invariant that every statement keeps,
`Respects R` the one for a relation that every statement stays within.
-/

namespace Lorepia

universe u v w

/-! ## Checks without a state -/

section Check

variable {ε α β : Type u}

/-- A check over the members of an option looks at them only, also where their type could be
enumerated. -/
instance (priority := 2000) decidableForallOption {p : α → Prop} [DecidablePred p] (o : Option α) :
    Decidable (∀ a ∈ o, p a) :=
  Option.decidableForallMem o

instance (priority := 2000) decidableForallList {p : α → Prop} [DecidablePred p] (l : List α) :
    Decidable (∀ a ∈ l, p a) :=
  List.decidableBAll p l

/-- Fail with `e` unless `c` holds. -/
def ensure (c : Prop) [Decidable c] (e : ε) : Except ε PUnit :=
  if c then .ok ⟨⟩ else .error e

variable {e : ε} {f : α → Except ε β}

@[simp] theorem ensure_ok {c : Prop} [Decidable c] {a : PUnit} : ensure c e = .ok a ↔ c := by
  unfold ensure
  by_cases h : c <;> simp [h]

@[simp] theorem ensure_error {c : Prop} [Decidable c] {e' : ε} :
    ensure c e = .error e' ↔ ¬ c ∧ e = e' := by
  unfold ensure
  by_cases h : c <;> simp [h]

@[simp] theorem except_bind_ok {x : Except ε α} {b : β} :
    (x >>= f) = .ok b ↔ ∃ a, x = .ok a ∧ f a = .ok b := by
  cases x <;> simp [bind, Except.bind]

@[simp] theorem except_bind_error {x : Except ε α} :
    (x >>= f) = .error e ↔ x = .error e ∨ ∃ a, x = .ok a ∧ f a = .error e := by
  cases x <;> simp [bind, Except.bind]

@[simp] theorem except_map_ok {x : Except ε α} {g : α → β} {b : β} :
    (g <$> x) = .ok b ↔ ∃ a, x = .ok a ∧ g a = b := by
  cases x <;> simp [Functor.map, Except.map]

@[simp] theorem except_map_error {x : Except ε α} {g : α → β} :
    (g <$> x) = .error e ↔ x = .error e := by
  cases x <;> simp [Functor.map, Except.map]

@[simp] theorem except_pure_ok {a b : α} : (pure a : Except ε α) = .ok b ↔ a = b := by
  simp [pure, Except.pure]

theorem exists_ok_of_toBool {x : Except ε α} (h : x.toBool = true) : ∃ a, x = .ok a := by
  cases x with
  | ok a => exact ⟨a, rfl⟩
  | error e => cases h

def checkSome (f : α → Except ε β) : Option α → Except ε PUnit
  | some a => do
    let _ ← f a
    pure ⟨⟩
  | none => pure ⟨⟩

theorem checkSome_ok {o : Option α} {u : PUnit} :
    checkSome f o = .ok u ↔ ∀ a ∈ o, ∃ b, f a = .ok b := by
  cases o <;> simp [checkSome]

def required (e : ε) : Option α → Except ε α
  | some a => .ok a
  | none => .error e

@[simp] theorem required_ok {o : Option α} {a : α} : required e o = .ok a ↔ o = some a := by
  cases o <;> simp [required]

/-- Every error of `x` is one of `P`. -/
def FailsWith (P : ε → Prop) (x : Except ε α) : Prop := ∀ e, x = .error e → P e

namespace FailsWith

variable {P : ε → Prop}

theorem ok (a : α) : FailsWith P (.ok a) := fun _ h => nomatch h

theorem error {e : ε} (h : P e) : FailsWith P (.error e : Except ε α) := fun _ heq => by
  cases heq
  exact h

theorem bind {x : Except ε α} {f : α → Except ε β} (hx : FailsWith P x) (hf : ∀ a, FailsWith P (f a)) :
    FailsWith P (x >>= f) := fun e h => by
  obtain h | ⟨a, -, h⟩ := except_bind_error.mp h
  · exact hx e h
  · exact hf a e h

theorem map {x : Except ε α} (f : α → β) (hx : FailsWith P x) : FailsWith P (f <$> x) := by
  cases x with
  | error e => exact error (hx e rfl)
  | ok a => exact ok (f a)

theorem mapM {f : α → Except ε β} (hf : ∀ a, FailsWith P (f a)) (l : List α) :
    FailsWith P (l.mapM f) := by
  induction l with
  | nil => exact ok _
  | cons a l ih =>
    rw [List.mapM_cons]
    exact bind (hf a) fun _ => bind ih fun _ => ok _

theorem ensure {c : Prop} [Decidable c] {e : ε} (h : P e) : FailsWith P (Lorepia.ensure c e) :=
  fun _ heq => (ensure_error.mp heq).2 ▸ h

theorem required {e : ε} (h : P e) (o : Option α) : FailsWith P (Lorepia.required e o) := by
  cases o with
  | none => exact error h
  | some a => exact ok a

end FailsWith

/-- Every result of `x` satisfies `P` and every error `E`. -/
def Yields (P : α → Prop) (E : ε → Prop) : Except ε α → Prop
  | .ok a => P a
  | .error e => E e

namespace Yields

variable {P Q : α → Prop} {E : ε → Prop} {x : Except ε α}

theorem bind {f : α → Except ε β} {Q : β → Prop} (hx : Yields P E x)
    (hf : ∀ a, P a → Yields Q E (f a)) : Yields Q E (x >>= f) := by
  cases x with
  | ok a => exact hf a hx
  | error e => exact hx

theorem ensure {c : Prop} [Decidable c] {e : ε} (h : E e) :
    Yields (fun _ => c) E (Lorepia.ensure c e) := by
  unfold Lorepia.ensure
  split
  · assumption
  · exact h

theorem required {e : ε} {o : Option α} (h : E e) :
    Yields (fun a => o = some a) E (Lorepia.required e o) := by
  cases o with
  | none => exact h
  | some a => rfl

theorem fails (hx : Yields P E x) : FailsWith E x := by
  rintro e rfl
  exact hx

theorem of_ok {a : α} (hx : Yields P E x) (h : x = .ok a) : P a := by
  subst h
  exact hx

end Yields

theorem forall₂_of_mapM {f : α → Except ε β} {l : List α} {l' : List β}
    (h : l.mapM f = .ok l') : List.Forall₂ (fun a b => f a = .ok b) l l' := by
  induction l generalizing l' with
  | nil =>
    cases h
    exact .nil
  | cons a rest ih =>
    rw [List.mapM_cons] at h
    obtain ⟨b, hb, h⟩ := except_bind_ok.mp h
    obtain ⟨found, hfound, h⟩ := except_bind_ok.mp h
    cases h
    exact .cons hb (ih hfound)

theorem exists_of_forall₂_left {R : α → β → Prop} {l : List α} {l' : List β}
    (h : List.Forall₂ R l l') {a : α} (ha : a ∈ l) : ∃ b ∈ l', R a b := by
  induction h with
  | nil => cases ha
  | cons hfirst _ ih =>
    obtain rfl | ha := List.mem_cons.mp ha
    · exact ⟨_, List.mem_cons_self, hfirst⟩
    · obtain ⟨b, hb, hab⟩ := ih ha
      exact ⟨b, List.mem_cons_of_mem _ hb, hab⟩

theorem exists_of_forall₂_right {R : α → β → Prop} {l : List α} {l' : List β}
    (h : List.Forall₂ R l l') {b : β} (hb : b ∈ l') : ∃ a ∈ l, R a b :=
  exists_of_forall₂_left (List.Forall₂.flip h) hb

end Check

/-- A transaction over states `σ` that may fail with `ε`. -/
abbrev Tx (σ : Type u) (ε : Type u) (α : Type u) : Type u := StateT σ (Except ε) α

namespace Tx

variable {σ ε α β : Type u}

def query (f : σ → α) : Tx σ ε α := fun s => .ok (f s, s)

def execute (f : σ → σ) : Tx σ ε PUnit := fun s => .ok (⟨⟩, f s)

/-- Stop with `e` unless `c` holds. -/
def require (c : Prop) [Decidable c] (e : ε) : Tx σ ε PUnit :=
  fun s => if c then .ok (⟨⟩, s) else .error e

def lookup (f : σ → Option α) (e : ε) : Tx σ ε α := fun s =>
  match f s with
  | some a => .ok (a, s)
  | none => .error e

def check (x : Except ε α) : Tx σ ε α := fun s =>
  match x with
  | .ok a => .ok (a, s)
  | .error e => .error e

/-- A write under a condition on the working copy, with a result read before it
(such as the number of rows it touches). -/
def counted (r : σ → α) (c : σ → Prop) [DecidablePred c] (e : ε) (f : σ → σ) : Tx σ ε α :=
  fun s => if c s then .ok (r s, f s) else .error e

def guarded (c : σ → Prop) [DecidablePred c] (e : ε) (f : σ → σ) : Tx σ ε PUnit :=
  counted (fun _ => ⟨⟩) c e f

def commit (x : Tx σ ε α) (s : σ) : Except ε α × σ :=
  match x s with
  | .ok (a, s') => (.ok a, s')
  | .error e => (.error e, s)

/-! ## Inversion -/

variable {x : Tx σ ε α} {s s' : σ} {e e' : ε} {a : α} {f : σ → σ} {c : σ → Prop}

@[simp] theorem bind_ok {f : α → Tx σ ε β} {b : β} :
    (x >>= f) s = .ok (b, s') ↔ ∃ a s₁, x s = .ok (a, s₁) ∧ f a s₁ = .ok (b, s') := by
  show (Except.bind (x s) fun p => f p.1 p.2) = _ ↔ _
  rcases x s with e | ⟨a, s₁⟩
  · simp [Except.bind]
  · simp [Except.bind, and_assoc]

@[simp] theorem bind_error {f : α → Tx σ ε β} : (x >>= f) s = .error e ↔
      x s = .error e ∨ ∃ a s₁, x s = .ok (a, s₁) ∧ f a s₁ = .error e := by
  show (Except.bind (x s) fun p => f p.1 p.2) = _ ↔ _
  rcases x s with e | ⟨a, s₁⟩
  · simp [Except.bind]
  · simp [Except.bind, and_assoc]

@[simp] theorem pure_ok {b : α} : (pure a : Tx σ ε α) s = .ok (b, s') ↔ a = b ∧ s = s' := by
  show Except.ok (a, s) = _ ↔ _
  simp

@[simp] theorem pure_error : (pure a : Tx σ ε α) s = .error e ↔ False := by
  show Except.ok (a, s) = _ ↔ _
  simp

@[simp] theorem map_ok {g : α → β} {b : β} :
    (g <$> x) s = .ok (b, s') ↔ ∃ a, x s = .ok (a, s') ∧ g a = b := by
  rw [map_eq_pure_bind, bind_ok]
  simp only [pure_ok]
  constructor
  · rintro ⟨a, s₁, h, rfl, rfl⟩
    exact ⟨a, h, rfl⟩
  · rintro ⟨a, h, rfl⟩
    exact ⟨a, s', h, rfl, rfl⟩

@[simp] theorem map_error {g : α → β} : (g <$> x) s = .error e ↔ x s = .error e := by
  rw [map_eq_pure_bind, bind_error]
  simp only [pure_error, and_false, exists_false, or_false]

@[simp] theorem query_ok {f : σ → α} : (query f : Tx σ ε α) s = .ok (a, s') ↔ f s = a ∧ s = s' := by
  simp [query]

@[simp] theorem query_error {f : σ → α} : (query f : Tx σ ε α) s = .error e ↔ False := by
  simp [query]

@[simp] theorem execute_ok {a : PUnit} : (execute f : Tx σ ε PUnit) s = .ok (a, s') ↔ f s = s' := by
  simp [execute]

@[simp] theorem execute_error : (execute f : Tx σ ε PUnit) s = .error e ↔ False := by
  simp [execute]

@[simp] theorem require_ok {c : Prop} [Decidable c] {a : PUnit} :
    (require c e : Tx σ ε PUnit) s = .ok (a, s') ↔ c ∧ s = s' := by
  unfold require
  by_cases h : c <;> simp [h]

@[simp] theorem require_error {c : Prop} [Decidable c] :
    (require c e : Tx σ ε PUnit) s = .error e' ↔ ¬ c ∧ e = e' := by
  unfold require
  by_cases h : c <;> simp [h]

@[simp] theorem lookup_ok {f : σ → Option α} :
    (lookup f e : Tx σ ε α) s = .ok (a, s') ↔ f s = some a ∧ s = s' := by
  unfold lookup
  cases h : f s <;> simp

@[simp] theorem lookup_error {f : σ → Option α} :
    (lookup f e : Tx σ ε α) s = .error e' ↔ f s = none ∧ e = e' := by
  unfold lookup
  cases h : f s <;> simp

@[simp] theorem check_ok {x : Except ε α} :
    (check x : Tx σ ε α) s = .ok (a, s') ↔ x = .ok a ∧ s = s' := by
  unfold check
  cases x <;> simp

@[simp] theorem check_error {x : Except ε α} :
    (check x : Tx σ ε α) s = .error e ↔ x = .error e := by
  unfold check
  cases x <;> simp

@[simp] theorem counted_ok {r : σ → α} [DecidablePred c] :
    (counted r c e f : Tx σ ε α) s = .ok (a, s') ↔ r s = a ∧ c s ∧ f s = s' := by
  unfold counted
  by_cases h : c s <;> simp [h]

@[simp] theorem counted_error {r : σ → α} [DecidablePred c] :
    (counted r c e f : Tx σ ε α) s = .error e' ↔ ¬ c s ∧ e = e' := by
  unfold counted
  by_cases h : c s <;> simp [h]

@[simp] theorem guarded_ok [DecidablePred c] {a : PUnit} : (guarded c e f : Tx σ ε PUnit) s = .ok
    (a, s') ↔ c s ∧ f s = s' := by
  simp [guarded]

@[simp] theorem guarded_error [DecidablePred c] :
    (guarded c e f : Tx σ ε PUnit) s = .error e' ↔ ¬ c s ∧ e = e' :=
  counted_error

theorem commit_of_ok (h : x s = .ok (a, s')) : commit x s = (.ok a, s') := by
  unfold commit
  rw [h]

theorem commit_of_error (h : x s = .error e) : commit x s = (.error e, s) := by
  unfold commit
  rw [h]

theorem error_of_commit (h : (commit x s).1 = .error e) : x s = .error e := by
  unfold commit at h
  rcases hx : x s with e' | ⟨a, s'⟩
  · rw [hx] at h
    cases h
    rfl
  · rw [hx] at h
    cases h

theorem commit_error_state (h : (commit x s).1 = .error e) : (commit x s).2 = s := by
  rw [commit_of_error (error_of_commit h)]

theorem ok_of_commit (h : (commit x s).1 = .ok a) : x s = .ok (a, (commit x s).2) := by
  unfold commit at h ⊢
  rcases hx : x s with e' | ⟨a', s'⟩
  · rw [hx] at h
    cases h
  · rw [hx] at h
    cases h
    rfl

/-! ## Invariants of a transaction -/

/-- Whenever `x` succeeds from a state with `I`, it leaves one with `I`. -/
def Preserves (I : σ → Prop) (x : Tx σ ε α) : Prop :=
  ∀ s a s', I s → x s = .ok (a, s') → I s'

section Preserves

variable {I : σ → Prop}

variable {x : Tx σ ε α} {f : σ → σ}

theorem Preserves.bind {f : α → Tx σ ε β} (hx : Preserves I x)
    (hf : ∀ a, Preserves I (f a)) : Preserves I (x >>= f) := by
  intro s b s' hs h
  obtain ⟨a, s₁, h₁, h₂⟩ := bind_ok.mp h
  exact hf a _ _ _ (hx _ _ _ hs h₁) h₂

theorem Preserves.pure (a : α) : Preserves I (pure a : Tx σ ε α) := by
  intro s b s' hs h
  rw [← (pure_ok.mp h).2]
  exact hs

theorem Preserves.map (hx : Preserves I x) (g : α → β) : Preserves I (g <$> x) := by
  intro s b s' hs h
  obtain ⟨a, ha, -⟩ := map_ok.mp h
  exact hx s a s' hs ha

theorem Preserves.query (f : σ → α) : Preserves I (query f : Tx σ ε α) := by
  intro s b s' hs h
  rw [← (query_ok.mp h).2]
  exact hs

theorem Preserves.require (c : Prop) [Decidable c] (e : ε) :
    Preserves I (require c e : Tx σ ε PUnit) := by
  intro s b s' hs h
  rw [← (require_ok.mp h).2]
  exact hs

theorem Preserves.lookup (f : σ → Option α) (e : ε) : Preserves I (lookup f e : Tx σ ε α) := by
  intro s b s' hs h
  rw [← (lookup_ok.mp h).2]
  exact hs

theorem Preserves.check (x : Except ε α) : Preserves I (check x : Tx σ ε α) := by
  intro s b s' hs h
  rw [← (check_ok.mp h).2]
  exact hs

theorem Preserves.execute (hf : ∀ s, I s → I (f s)) : Preserves I (execute f : Tx σ ε PUnit) := by
  intro s b s' hs h
  rw [← execute_ok.mp h]
  exact hf s hs

theorem Preserves.counted {r : σ → α} {c : σ → Prop} [DecidablePred c] {e : ε}
    (hf : ∀ s, c s → I s → I (f s)) : Preserves I (counted r c e f : Tx σ ε α) := by
  intro s b s' hs h
  obtain ⟨-, hc, rfl⟩ := counted_ok.mp h
  exact hf s hc hs

theorem Preserves.guarded {c : σ → Prop} [DecidablePred c] {e : ε}
    (hf : ∀ s, c s → I s → I (f s)) : Preserves I (guarded c e f : Tx σ ε PUnit) :=
  Preserves.counted hf

theorem Preserves.commit (hx : Preserves I x) {s : σ} (hs : I s) : I (x.commit s).2 := by
  unfold Tx.commit
  rcases h : x s with e | ⟨a, s'⟩
  · exact hs
  · exact hx _ _ _ hs h

end Preserves

/-! ## What a transaction may do -/

/-- Whenever `x` succeeds, it leaves a state that is related to the one before. -/
def Respects (R : σ → σ → Prop) (x : Tx σ ε α) : Prop :=
  ∀ s a s', x s = .ok (a, s') → R s s'

section Respects

variable {R : σ → σ → Prop}

variable {x : Tx σ ε α}

theorem Respects.mono {R' : σ → σ → Prop} (hR : ∀ s s', R s s' → R' s s')
    (hx : Respects R x) : Respects R' x :=
  fun s a s' h => hR s s' (hx s a s' h)

theorem Respects.bind [IsTrans σ R] {f : α → Tx σ ε β}
    (hx : Respects R x) (hf : ∀ a, Respects R (f a)) : Respects R (x >>= f) := by
  intro s b s' h
  obtain ⟨a, s₁, h₁, h₂⟩ := bind_ok.mp h
  exact IsTrans.trans _ _ _ (hx _ _ _ h₁) (hf a _ _ _ h₂)

variable [Std.Refl R]

theorem Respects.of_same (h : ∀ s a s', x s = .ok (a, s') → s = s') : Respects R x := by
  intro s a s' hx
  rw [h s a s' hx]
  exact Std.Refl.refl s'

@[simp] theorem Respects.pure (a : α) : Respects R (Pure.pure a : Tx σ ε α) :=
  .of_same fun _ _ _ h => (pure_ok.mp h).2

@[simp] theorem Respects.query (f : σ → α) : Respects R (query f : Tx σ ε α) :=
  .of_same fun _ _ _ h => (query_ok.mp h).2

@[simp] theorem Respects.require (c : Prop) [Decidable c] (e : ε) :
    Respects R (require c e : Tx σ ε PUnit) :=
  .of_same fun _ _ _ h => (require_ok.mp h).2

@[simp] theorem Respects.check (x : Except ε α) : Respects R (check x : Tx σ ε α) :=
  .of_same fun _ _ _ h => (check_ok.mp h).2

theorem Respects.commit (hx : Respects R x) (s : σ) : R s (x.commit s).2 := by
  unfold Tx.commit
  rcases h : x s with e | ⟨a, s'⟩
  · exact Std.Refl.refl s
  · exact hx _ _ _ h

end Respects

/-! ## Transactions that cannot fail -/

/-- From a state with `I` the transaction succeeds, and it leaves one with `I`. -/
def Succeeds (I : σ → Prop) (x : Tx σ ε α) : Prop :=
  ∀ s, I s → ∃ a s', x s = .ok (a, s') ∧ I s'

section Succeeds

variable {I : σ → Prop}

theorem Succeeds.bind {x : Tx σ ε α} {f : α → Tx σ ε β} (hx : Succeeds I x)
    (hf : ∀ a, Succeeds I (f a)) : Succeeds I (x >>= f) := by
  intro s hs
  obtain ⟨a, s₁, h₁, hs₁⟩ := hx s hs
  obtain ⟨b, s₂, h₂, hs₂⟩ := hf a s₁ hs₁
  exact ⟨b, s₂, bind_ok.mpr ⟨a, s₁, h₁, h₂⟩, hs₂⟩

theorem Succeeds.pure (a : α) : Succeeds I (Pure.pure a : Tx σ ε α) :=
  fun s hs => ⟨a, s, pure_ok.mpr ⟨rfl, rfl⟩, hs⟩

end Succeeds

end Tx

end Lorepia
