import Lorepia.Lib.Alone
import Lorepia.Assets.Store

/-!
# The steps of an operation that runs alone

One rule for each kind of step: to show how `x >>= k` ends from `s`, show how `k` ends from the
state the step leaves, and that the step's own failure may end the operation. Whether steps fail
at all is up to the setting: `Faulty S` is what a failure is owed to.
-/

namespace Lorepia.Assets

open Proc

variable {S : Setting Root Input} {α β : Type} {s : Root} {Q : Except AssetError β → Root → Prop}

def Faulty (S : Setting Root Input) : Prop := ∃ s i, S.allowed s i ∧ i.fails = true

def Cancels (S : Setting Root Input) : Prop := ∃ s i, S.allowed s i ∧ i.cancels = true

/-- Every step that need not wait for another call has an input. -/
def Responsive (S : Setting Root Input) : Prop := S.blocks ∨ ∀ s, ∃ i, S.allowed s i

def Calm (i : Input) : Prop := i.fails = false ∧ i.cancels = false

theorem Responsive.acts (hS : Responsive S) {P : Input → Prop} (h : ∀ i, P i) :
    S.blocks ∨ ∃ i, S.allowed s i ∧ P i := by
  obtain hb | hi := hS
  · exact .inl hb
  · obtain ⟨i, hi⟩ := hi s
    exact .inr ⟨i, hi, h i⟩

/-- How an operation goes on after a step that returned `r`. -/
def Then (S : Setting Root Input) (Q : Except AssetError β → Root → Prop) (k : α → Op β)
    (r : Except AssetError α) (s : Root) : Prop :=
  match r with
  | .ok a => Ends S Q (k a) s
  | .error e => Q (.error e) s

variable {k : α → Op β} {r : Except AssetError α} {path : ObjectPath}

@[simp] theorem then_ok {a : α} : Then S Q k (.ok a) s ↔ Ends S Q (k a) s := Iff.rfl

@[simp] theorem then_error {e : AssetError} : Then S Q k (.error e) s ↔ Q (.error e) s := Iff.rfl

theorem then_of (hok : ∀ a, r = .ok a → Ends S Q (k a) s)
    (herr : ∀ e, r = .error e → Q (.error e) s) : Then S Q k r s := by
  cases r with
  | ok a => exact hok a rfl
  | error e => exact herr e rfl

theorem ends_bind_of {p : Op α} (h : Ends S (Then S Q k) p s) : Ends S Q (p >>= k) s :=
  Ends.bind h (fun _ _ ha => ha) fun _ _ he => he

theorem ends_ofExcept (h : Then S Q k r s) : Ends S Q (ofExcept r >>= k) s :=
  ends_bind_of (.done h)

theorem ends_fs {f : Files → Except AssetError α × Files} (hS : Responsive S)
    (hs : S.through s) (hfail : Faulty S → Q (.error (.io .other)) s)
    (hthrough : S.through { s with files := (f s.files).2 })
    (h : Then S Q k (f s.files).1 { s with files := (f s.files).2 }) :
    Ends S Q (fs f >>= k) s := by
  refine ends_bind_of (Ends.atomic (hS.acts fun i => by split <;> rfl) ?_)
  intro i r s' hi hf
  split at hf
  next hfails =>
    cases hf
    exact ⟨hs, hfail ⟨s, i, hi, hfails⟩⟩
  next =>
    cases hf
    exact ⟨hthrough, h⟩

theorem ends_look {f : Files → Except AssetError α} (hS : Responsive S)
    (hs : S.through s) (hfail : Faulty S → Q (.error (.io .other)) s)
    (h : Then S Q k (f s.files) s) : Ends S Q ((fs fun d => (f d, d)) >>= k) s :=
  ends_fs hS hs hfail hs h

theorem ends_sync {k : Unit → Op β} (hS : Responsive S) (hs : S.through s)
    (hfail : Faulty S → Q (.error (.io .other)) s) (h : Ends S Q (k ()) s) :
    Ends S Q (sync >>= k) s :=
  ends_fs hS hs hfail hs h

theorem ends_query {f : Catalog → α} (hS : Responsive S) (hs : S.through s)
    (hfail : Faulty S → Q (.error .database) s) (h : Ends S Q (k (f s.catalog)) s) :
    Ends S Q (query f >>= k) s := by
  refine ends_bind_of (Ends.atomic (hS.acts fun i => by split <;> rfl) ?_)
  intro i r s' hi hf
  split at hf
  next hfails =>
    cases hf
    exact ⟨hs, hfail ⟨s, i, hi, hfails⟩⟩
  next =>
    cases hf
    exact ⟨hs, h⟩

theorem ends_execute {x : Sql α} {c : Catalog}
    (hS : Responsive S) (hs : S.through s) (hw : s.writer = none)
    (hfail : Faulty S → Q (.error .database) s) (hx : x.commit s.catalog = (r, c))
    (hthrough : S.through { s with catalog := c }) (h : Then S Q k r { s with catalog := c }) :
    Ends S Q (execute x >>= k) s := by
  have hfree : ¬ s.writer.isSome = true := by simp [hw]
  refine ends_bind_of (Ends.atomic (hS.acts fun i => by rw [if_neg hfree]; split <;> rfl) ?_)
  intro i r s' hi hf
  rw [if_neg hfree] at hf
  split at hf
  next hfails =>
    cases hf
    exact ⟨hs, hfail ⟨s, i, hi, hfails⟩⟩
  next =>
    rw [hx] at hf
    cases hf
    exact ⟨hthrough, h⟩

theorem ends_nowMs {k : Nat → Op β} (hS : Responsive S) (hs : S.through s)
    (hfail : Faulty S → Q (.error (.io .other)) s)
    (h : ∀ i, S.allowed s i → Ends S Q (k i.now) s) : Ends S Q (nowMs >>= k) s := by
  refine ends_bind_of (Ends.atomic (hS.acts fun i => by split <;> rfl) ?_)
  intro i r s' hi hf
  split at hf
  next hfails =>
    cases hf
    exact ⟨hs, hfail ⟨s, i, hi, hfails⟩⟩
  next =>
    cases hf
    exact ⟨hs, h i hi⟩

theorem ends_heed {k : Unit → Op β} (hS : Responsive S) (hs : S.through s)
    (hcancel : Cancels S → Q (.error .cancelled) s) (h : Ends S Q (k ()) s) :
    Ends S Q (heed >>= k) s := by
  refine ends_bind_of (Ends.atomic (hS.acts fun i => by split <;> rfl) ?_)
  intro i r s' hi hf
  split at hf
  next hcancels =>
    cases hf
    exact ⟨hs, hcancel ⟨s, i, hi, hcancels⟩⟩
  next =>
    cases hf
    exact ⟨hs, h⟩

theorem ends_newUuid {k : String → Op β} (hS : Responsive S) (hs : S.through s)
    (h : ∀ i, S.allowed s i → Ends S Q (k i.uuid) s) : Ends S Q (newUuid >>= k) s := by
  refine ends_bind_of (Ends.atomic (hS.acts fun i => rfl) ?_)
  intro i r s' hi hf
  cases hf
  exact ⟨hs, h i hi⟩

/-- What is attempted never ends the operation. -/
theorem ends_attempt {p : Op α} {k : Except AssetError α → Op β}
    (h : Ends S (fun r t => Ends S Q (k r) t) p s) : Ends S Q (p.attempt >>= k) s :=
  Ends.bind (M := fun r t => match r with
    | .ok r => Ends S Q (k r) t
    | .error _ => False) (Ends.attempt h fun _ _ hr => hr) (fun _ _ hr => hr) fun _ _ => False.elim

/-! ## Directories -/

section Put

variable {κ : Type} [DecidableEq κ]

@[simp] theorem put_same (dir : κ → Option Entry) (name : κ) (e : Option Entry) :
    put dir name e name = e := if_pos rfl

variable {dir : κ → Option Entry} {name : κ}

theorem put_ne {n : κ} {e : Option Entry} (h : n ≠ name) : put dir name e n = dir n := if_neg h

@[simp] theorem put_put (dir : κ → Option Entry) (name : κ) (e e' : Option Entry) :
    put (put dir name e) name e' = put dir name e' := by
  funext n
  unfold put
  split <;> rfl

@[simp] theorem put_self (dir : κ → Option Entry) (name : κ) : put dir name (dir name) = dir := by
  funext n
  unfold put
  split
  next h => rw [h]
  next => rfl

theorem put_eq_self {e : Option Entry} (h : dir name = e) : put dir name e = dir := by
  rw [← h, put_self]

theorem removed_some {e : Entry} (h : dir name = some e) :
    removed dir name = (.ok (), put dir name none) := by
  simp only [removed, h]

theorem linked_free {e : Entry} (h : dir name = none) :
    linked (some e) dir name = (.ok (), put dir name (some e)) := by
  simp only [linked, h]

end Put

theorem ends_openObject {k : Option FileData → Op β} (hS : Responsive S)
    (hs : S.through s) (hfail : Faulty S → Q (.error (.io .other)) s)
    (h : Then S Q k (openEntry (s.files.objects path)) s) :
    Ends S Q (openObject path >>= k) s :=
  ends_look hS hs hfail h

theorem ends_openQuarantined {name : String} {k : Option FileData → Op β} (hS : Responsive S)
    (hs : S.through s) (hfail : Faulty S → Q (.error (.io .other)) s)
    (h : Then S Q k (openEntry (s.files.quarantine name)) s) :
    Ends S Q (openQuarantined name >>= k) s :=
  ends_look hS hs hfail h

def Root.dropObject (s : Root) (path : ObjectPath) : Root :=
  { s with files := { s.files with objects := put s.files.objects path none } }

theorem ends_removeObject {k : Unit → Op β} {e : Entry} (hS : Responsive S)
    (hs : S.through s) (he : s.files.objects path = some e)
    (hfail : Faulty S → Q (.error (.io .other)) s) (hthrough : S.through (s.dropObject path))
    (h : Ends S Q (k ()) (s.dropObject path)) : Ends S Q (removeObject path >>= k) s := by
  have heq : removed s.files.objects path = (.ok (), put s.files.objects path none) := removed_some he
  refine ends_fs hS hs hfail ?_ ?_
  · simp only [heq]
    exact hthrough
  · simp only [heq]
    exact h

/-- What `open_file` finds at an entry. -/
def opened : Option Entry → Opened
  | none => .missing
  | some .special => .unsafeEntry
  | some (.file f) => .file f

theorem ends_openForReconcile {k : Opened → Op β} (hS : Responsive S)
    (hs : S.through s) (hfail : Faulty S → Q (.error (.io .other)) s)
    (h : Ends S Q (k (opened (s.files.objects path))) s) :
    Ends S Q (openForReconcile path >>= k) s := by
  simp only [openForReconcile, bind_bind]
  refine ends_attempt ?_
  rw [← bind_pure (openObject path)]
  refine ends_openObject hS hs (fun hfault => .done (hfail hfault)) ?_
  match he : s.files.objects path with
  | none =>
    rw [he] at h
    exact .pure h
  | some .special =>
    rw [he] at h
    exact h
  | some (.file f) =>
    rw [he] at h
    exact .pure h

end Lorepia.Assets
