import Lorepia.Lib.Tx

/-!
# Memo tables

A table remembers results by a key and holds at most `limit` of them; when it is full the first
one goes. `memoized` answers from the table when it can. If two arguments with one key have one
result (`Faithful`), it answers what the computation answers (`memoized_result`).
-/

namespace Lorepia.Memo

variable {α κ ν ε : Type} [DecidableEq κ]

/-- Put a result in its place, over an older one of that key. -/
def insert (before : κ → κ → Bool) (key : κ) (value : ν) : List (κ × ν) → List (κ × ν)
  | [] => [(key, value)]
  | (k, v) :: rest =>
    if k = key then (key, value) :: rest
    else if before key k then (key, value) :: (k, v) :: rest
    else (k, v) :: insert before key value rest

theorem mem_insert {before : κ → κ → Bool} {key : κ} {value : ν} {table : List (κ × ν)}
    {entry : κ × ν} (h : entry ∈ insert before key value table) : entry = (key, value) ∨ entry ∈ table := by
  induction table with
  | nil => exact .inl (List.mem_singleton.mp h)
  | cons first rest ih =>
    obtain ⟨k, v⟩ := first
    unfold insert at h
    split at h
    next =>
      obtain rfl | h := List.mem_cons.mp h
      · exact .inl rfl
      · exact .inr (List.mem_cons_of_mem _ h)
    next =>
      split at h
      next => exact List.mem_cons.mp h
      next =>
        obtain rfl | h := List.mem_cons.mp h
        · exact .inr List.mem_cons_self
        · exact (ih h).imp_right (List.mem_cons_of_mem _)

theorem length_insert (before : κ → κ → Bool) (key : κ) (value : ν) (table : List (κ × ν)) :
    (insert before key value table).length ≤ table.length + 1 := by
  induction table with
  | nil => exact Nat.le_refl _
  | cons first rest ih =>
    obtain ⟨k, v⟩ := first
    unfold insert
    split
    next => exact Nat.le_succ _
    next =>
      split
      next => exact Nat.le_refl _
      next => exact Nat.succ_le_succ ih

def evict (limit : Nat) (table : List (κ × ν)) : List (κ × ν) :=
  if limit ≤ table.length then table.tail else table

/-- The result for `a`, with whether it was remembered, and the table afterwards. -/
def memoized (before : κ → κ → Bool) (limit : Nat) (key : α → κ) (compute : α → Except ε ν) (a : α)
    (table : List (κ × ν)) : Except ε (Bool × ν) × List (κ × ν) :=
  match table.lookup (key a) with
  | some value => (.ok (true, value), table)
  | none =>
    match compute a with
    | .error e => (.error e, table)
    | .ok value => (.ok (false, value), insert before (key a) value (evict limit table))

section
variable {before : κ → κ → Bool} {limit : Nat} {key : α → κ} {compute : α → Except ε ν}
  {asked : α → Prop} {table : List (κ × ν)} {a : α}

def Faithful (key : α → κ) (compute : α → Except ε ν) (asked : α → Prop) : Prop :=
  ∀ a b, asked a → asked b → key a = key b → compute a = compute b

def Remembers (key : α → κ) (compute : α → Except ε ν) (asked : α → Prop) (table : List (κ × ν)) :
    Prop :=
  ∀ entry ∈ table, ∃ a, asked a ∧ key a = entry.1 ∧ compute a = .ok entry.2

theorem mem_of_lookup {k : κ} {value : ν} (h : table.lookup k = some value) : (k, value) ∈ table := by
  obtain ⟨l₁, l₂, rfl, -⟩ := List.lookup_eq_some_iff.mp h
  simp

theorem mem_memoized {entry : κ × ν} (h : entry ∈ (memoized before limit key compute a table).2) :
    entry ∈ table ∨ ∃ value, compute a = .ok value ∧ entry = (key a, value) := by
  unfold memoized at h
  cases hlookup : table.lookup (key a) with
  | some value => exact .inl (by simpa [hlookup] using h)
  | none =>
    cases hcompute : compute a with
    | error e => exact .inl (by simpa [hlookup, hcompute] using h)
    | ok value =>
      obtain rfl | h := mem_insert (by simpa [hlookup, hcompute] using h)
      · exact .inr ⟨value, rfl, rfl⟩
      · unfold evict at h
        split at h
        next => exact .inl (List.mem_of_mem_tail h)
        next => exact .inl h

theorem memoized_result (before : κ → κ → Bool) (limit : Nat) (hkey : Faithful key compute asked)
    (htable : Remembers key compute asked table) (ha : asked a) :
    (memoized before limit key compute a table).1.map Prod.snd = compute a := by
  unfold memoized
  cases hlookup : table.lookup (key a) with
  | some value =>
    obtain ⟨b, hb, hbk, hvalue⟩ := htable _ (mem_of_lookup hlookup)
    show Except.ok value = compute a
    rw [hkey a b ha hb hbk.symm, hvalue]
  | none =>
    cases hcompute : compute a with
    | error e => rfl
    | ok value => rfl

theorem memoized_remembers (htable : Remembers key compute asked table) (ha : asked a) :
    Remembers key compute asked (memoized before limit key compute a table).2 := by
  intro entry hentry
  obtain hentry | ⟨value, hvalue, rfl⟩ := mem_memoized hentry
  · exact htable entry hentry
  · exact ⟨a, ha, rfl, hvalue⟩

/-- What holds of the remembered results and of the computed one holds of the answer and of all
that is remembered afterwards. -/
theorem memoized_forall (before : κ → κ → Bool) (limit : Nat) (key : α → κ) {P : ν → Prop} {value : ν}
    (htable : ∀ entry ∈ table, P entry.2) (hcompute : compute a = .ok value) (hvalue : P value) :
    (∃ remembered result, (memoized before limit key compute a table).1 = .ok (remembered, result) ∧
        P result) ∧
      ∀ entry ∈ (memoized before limit key compute a table).2, P entry.2 := by
  constructor
  · unfold memoized
    cases hlookup : table.lookup (key a) with
    | some result => exact ⟨true, result, rfl, htable _ (mem_of_lookup hlookup)⟩
    | none => exact ⟨false, value, by rw [hcompute], hvalue⟩
  · intro entry hentry
    obtain hentry | ⟨result, hresult, rfl⟩ := mem_memoized hentry
    · exact htable entry hentry
    · cases hcompute.symm.trans hresult
      exact hvalue

theorem memoized_length (hlimit : 0 < limit) (h : table.length ≤ limit) :
    (memoized before limit key compute a table).2.length ≤ limit := by
  unfold memoized
  cases table.lookup (key a) with
  | some value => exact h
  | none =>
    cases compute a with
    | error e => exact h
    | ok value =>
      refine Nat.le_trans (length_insert _ _ _ _) ?_
      unfold evict
      split
      next =>
        rw [List.length_tail]
        omega
      next => omega

end

end Lorepia.Memo
