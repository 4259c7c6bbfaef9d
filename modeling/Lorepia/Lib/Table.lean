import Mathlib

/-!
# Relational tables as lists of rows

A table is the list of its rows. `update p f` is `UPDATE .. SET f WHERE p`,
`countP` is the number of rows a statement touches, and a `UNIQUE` constraint on
the columns `k` is `Keyed k t`: the list of keys has no duplicates. A partial
index (`WHERE q`) is `Keyed k` of the rows that satisfy `q`. A total over a table is
the sum of its rows' weights. The two joins are given by what they contain.
-/

namespace Lorepia

namespace Table

universe u v

variable {α : Type u} {κ : Type v}

/-- Rewrite by `f` the rows that satisfy `p`. -/
def update (p : α → Bool) (f : α → α) (t : List α) : List α :=
  t.map fun r => if p r then f r else r

/-- No two rows of `t` agree on the key `k`. -/
def Keyed (k : α → κ) (t : List α) : Prop := (t.map k).Nodup

/-! ## Updates -/

variable {p : α → Bool} {f : α → α} {t : List α} {r : α} {k : α → κ} {P : α → Prop}

theorem mem_update : r ∈ update p f t ↔ ∃ r₀ ∈ t, (if p r₀ then f r₀ else r₀) = r := by
  simp [update]

theorem mem_update_of_mem (h : r ∈ t) : (if p r then f r else r) ∈ update p f t :=
  mem_update.mpr ⟨r, h, rfl⟩

theorem update_congr {q : α → Bool} {g : α → α} (hp : ∀ r ∈ t, p r = q r)
    (hf : ∀ r ∈ t, q r = true → f r = g r) : update p f t = update q g t := by
  refine List.map_congr_left fun r hr => ?_
  rw [hp r hr]
  by_cases hq : q r = true
  · rw [if_pos hq, if_pos hq, hf r hr hq]
  · rw [if_neg hq, if_neg hq]

theorem updated_eq (hk : ∀ r, k (f r) = k r) (r : α) : k (if p r then f r else r) = k r := by
  split
  · exact hk r
  · rfl

/-- An update that leaves the columns `k` alone leaves their list alone. -/
theorem map_update (hk : ∀ r, k (f r) = k r) (t : List α) : (update p f t).map k = t.map k := by
  unfold update
  rw [List.map_map]
  exact List.map_congr_left fun r _ => updated_eq hk r

theorem mem_update_of_not (h : r ∈ t) (hp : p r = false) : r ∈ update p f t := by
  have := mem_update_of_mem (p := p) (f := f) h
  rwa [hp, if_neg Bool.false_ne_true] at this

theorem mem_update_of_true (h : r ∈ t) (hp : p r = true) : f r ∈ update p f t := by
  have := mem_update_of_mem (p := p) (f := f) h
  rwa [if_pos hp] at this

/-! ## All rows, some row -/

theorem forall_insert (h : ∀ x ∈ t, P x) (hr : P r) : ∀ x ∈ t ++ [r], P x := by
  intro x hx
  rcases List.mem_append.mp hx with hx | hx
  · exact h x hx
  · rw [List.mem_singleton.mp hx]
    exact hr

theorem forall_update
    (h : ∀ x ∈ t, P x) (hf : ∀ x ∈ t, p x = true → P (f x)) : ∀ x ∈ update p f t, P x := by
  intro x hx
  obtain ⟨y, hy, rfl⟩ := mem_update.mp hx
  split
  · next hp => exact hf y hy hp
  · exact h y hy

theorem exists_insert (r : α) (h : ∃ x ∈ t, P x) : ∃ x ∈ t ++ [r], P x := by
  obtain ⟨x, hx, hP⟩ := h
  exact ⟨x, List.mem_append_left _ hx, hP⟩

/-- A row that a key points at is still there after an update that keeps the key. -/
theorem exists_update
    (hf : ∀ x ∈ t, P x → P (f x)) (h : ∃ x ∈ t, P x) : ∃ x ∈ update p f t, P x := by
  obtain ⟨x, hx, hP⟩ := h
  refine ⟨_, mem_update_of_mem hx, ?_⟩
  split
  · exact hf x hx hP
  · exact hP

/-! ## Keys -/

theorem Keyed.nil : Keyed k ([] : List α) := List.nodup_nil

theorem Keyed.eq (h : Keyed k t) {r' : α} (hr : r ∈ t) (hr' : r' ∈ t) (e : k r = k r') : r = r' :=
  List.inj_on_of_nodup_map h hr hr' e

theorem Keyed.refine (h : Keyed k t) {κ' : Type*} {k' : α → κ'}
    (hk : ∀ r r', k' r = k' r' → k r = k r') : Keyed k' t :=
  List.Nodup.map_on (fun _ hr _ hr' e => h.eq hr hr' (hk _ _ e)) (List.Nodup.of_map _ h)

theorem Keyed.update (h : Keyed k t) (hk : ∀ r, k (f r) = k r) : Keyed k (Table.update p f t) := by
  unfold Keyed
  rw [map_update hk]
  exact h

theorem Keyed.filter (h : Keyed k t) (p : α → Bool) : Keyed k (t.filter p) :=
  List.Nodup.sublist (List.Sublist.map k List.filter_sublist) h

theorem keyed_map {β : Type*} {f : β → α} {t : List β} :
    Keyed k (t.map f) ↔ Keyed (fun r => k (f r)) t := by
  unfold Keyed
  rw [List.map_map]
  rfl

theorem Keyed.filter_update {q : α → Bool} (h : Keyed k (t.filter q)) (hk : ∀ r, k (f r) = k r)
    (hq : ∀ r, q (f r) = true → p r = true → q r = true) :
    Keyed k ((Table.update p f t).filter q) := by
  refine List.Nodup.sublist ?_ h
  clear h
  induction t with
  | nil => exact List.Sublist.refl _
  | cons r t ih =>
    have hr : k (if p r then f r else r) = k r := updated_eq hk r
    show List.Sublist (List.map k (List.filter q ((if p r then f r else r) :: Table.update p f t))) _
    rw [List.filter_cons, List.filter_cons]
    by_cases hnew : q (if p r then f r else r) = true
    · have hold : q r = true := by
        by_cases hp : p r = true
        · rw [if_pos hp] at hnew
          exact hq r hnew hp
        · rwa [if_neg hp] at hnew
      rw [if_pos hnew, if_pos hold, List.map_cons, List.map_cons, hr]
      exact ih.cons_cons _
    · rw [if_neg hnew]
      split
      · rw [List.map_cons]
        exact ih.cons _
      · exact ih

theorem keyed_append {t' : List α} :
    Keyed k (t ++ t') ↔ Keyed k t ∧ Keyed k t' ∧ ∀ r ∈ t, ∀ r' ∈ t', k r ≠ k r' := by
  unfold Keyed
  rw [List.map_append, List.nodup_append]
  constructor
  · rintro ⟨h₁, h₂, h₃⟩
    exact ⟨h₁, h₂, fun r hr r' hr' =>
      h₃ _ (List.mem_map_of_mem hr) _ (List.mem_map_of_mem hr')⟩
  · rintro ⟨h₁, h₂, h₃⟩
    refine ⟨h₁, h₂, fun a ha b hb => ?_⟩
    obtain ⟨r, hr, rfl⟩ := List.mem_map.mp ha
    obtain ⟨r', hr', rfl⟩ := List.mem_map.mp hb
    exact h₃ r hr r' hr'

theorem Keyed.insert (h : Keyed k t) (hr : ∀ r' ∈ t, k r' ≠ k r) : Keyed k (t ++ [r]) :=
  keyed_append.mpr ⟨h, List.nodup_singleton _, fun r' hr' x hx => by
    rw [List.mem_singleton] at hx
    subst hx
    exact hr r' hr'⟩

theorem Keyed.find?_eq [DecidableEq κ] (h : Keyed k t)
    {x : κ} : t.find? (fun r => k r = x) = some r ↔ r ∈ t ∧ k r = x := by
  constructor
  · intro hf
    exact ⟨List.mem_of_find?_eq_some hf, by simpa using List.find?_some hf⟩
  · rintro ⟨hr, rfl⟩
    cases hf : t.find? (fun r' => k r' = k r) with
    | none =>
      have := List.find?_eq_none.mp hf r hr
      simp at this
    | some r' =>
      have hk : k r' = k r := by simpa using List.find?_some hf
      rw [h.eq (List.mem_of_find?_eq_some hf) hr hk]

/-- Conditions that select `r` and pin its key down are the same condition. -/
theorem Keyed.update_eq [DecidableEq κ] (h : Keyed k t) {g : α → α} (hr : r ∈ t) (hp : p r = true)
    (hu : ∀ r' ∈ t, p r' = true → k r' = k r) (hf : f r = g r) :
    Table.update p f t = Table.update (fun r' => decide (k r' = k r)) g t := by
  refine update_congr (fun r' hr' => ?_) fun r' hr' he => ?_
  · by_cases he : k r' = k r
    · rw [h.eq hr' hr he, hp]
      simp
    · rw [decide_eq_false he]
      exact Bool.eq_false_iff.mpr fun hp' => he (hu r' hr' hp')
  · rw [h.eq hr' hr (of_decide_eq_true he), hf]

/-- A condition that selects `r` and pins its key down selects nothing else. -/
theorem Keyed.filter_eq (h : Keyed k t)
    (hr : r ∈ t) (hp : p r = true) (hu : ∀ r' ∈ t, p r' = true → k r' = k r) :
    t.filter p = [r] := by
  induction t with
  | nil => cases hr
  | cons a t ih =>
    have hnd := List.nodup_cons.mp h
    rcases List.mem_cons.mp hr with rfl | hrt
    · have hnone : t.filter p = [] := by
        refine List.filter_eq_nil_iff.mpr fun r' hr' hp' => ?_
        have hk := hu r' (List.mem_cons_of_mem _ hr') hp'
        exact hnd.1 (hk ▸ List.mem_map_of_mem hr')
      rw [List.filter_cons_of_pos hp, hnone]
    · have hpa : ¬ p a = true := by
        intro hpa
        have hk := hu a List.mem_cons_self hpa
        exact hnd.1 (hk.symm ▸ List.mem_map_of_mem hrt)
      rw [List.filter_cons_of_neg hpa]
      exact ih hnd.2 hrt fun r' hr' => hu r' (List.mem_cons_of_mem _ hr')

theorem Keyed.countP_eq_one (h : Keyed k t)
    (hr : r ∈ t) (hp : p r = true) (hu : ∀ r' ∈ t, p r' = true → k r' = k r) :
    t.countP p = 1 := by
  rw [List.countP_eq_length_filter, h.filter_eq hr hp hu]
  rfl

theorem Keyed.forall_iff (h : Keyed k t) (hr : r ∈ t) (hp : p r = true)
    (hu : ∀ r' ∈ t, p r' = true → k r' = k r) {P : α → Prop} :
    (∀ r' ∈ t, p r' = true → P r') ↔ P r := by
  refine ⟨fun hall => hall r hr hp, fun hone r' hr' hp' => ?_⟩
  rw [h.eq hr' hr (hu r' hr' hp')]
  exact hone

/-! ## Aggregates

A total over a table changes by what a statement's rows change. -/

section Aggregates

variable {M : Type*} [AddCommGroup M] (w : α → M)

theorem sum_map_neg (t : List α) : (t.map fun r => -w r).sum = -(t.map w).sum := by
  rw [List.sum_neg, List.map_map]
  rfl

theorem sum_map_sub (w' : α → M) (t : List α) :
    (t.map fun r => w r - w' r).sum = (t.map w).sum - (t.map w').sum := by
  induction t with
  | nil => simp
  | cons r t ih =>
    simp only [List.map_cons, List.sum_cons, ih]
    abel

theorem sum_filter_not (p : α → Bool) (t : List α) :
    ((t.filter fun r => !p r).map w).sum = (t.map w).sum - ((t.filter p).map w).sum := by
  induction t with
  | nil => simp
  | cons r t ih =>
    by_cases hp : p r = true
    · simp only [List.filter_cons, hp, Bool.not_true, Bool.false_eq_true, if_false, if_true,
        List.map_cons, List.sum_cons, ih]
      abel
    · simp only [List.filter_cons, hp, Bool.not_false, if_true, List.map_cons, List.sum_cons, ih]
      abel

theorem sum_update (p : α → Bool) (f : α → α) (t : List α) :
    ((update p f t).map w).sum =
      (t.map w).sum - ((t.filter p).map w).sum + ((t.filter p).map fun r => w (f r)).sum := by
  induction t with
  | nil => simp [update]
  | cons r t ih =>
    rw [update] at ih ⊢
    by_cases hp : p r = true
    · simp only [List.filter_cons, hp, if_true, List.map_cons, List.sum_cons, ih]
      abel
    · simp only [List.filter_cons, hp, if_false, List.map_cons, List.sum_cons, ih,
        Bool.false_eq_true]
      abel

end Aggregates

/-! ## Joins -/

variable {β : Type v} {on : α → β → Bool} {u : List β}

/-- `t JOIN u ON on`. -/
def join (on : α → β → Bool) (t : List α) (u : List β) : List (α × β) :=
  t.flatMap fun a => (u.filter (on a)).map fun b => (a, b)

/-- `t LEFT JOIN u ON on`: a row of `t` without a partner is paired with `none`. -/
def leftJoin (on : α → β → Bool) (t : List α) (u : List β) : List (α × Option β) :=
  t.flatMap fun a =>
    match u.filter (on a) with
    | [] => [(a, none)]
    | b :: bs => (b :: bs).map fun b => (a, some b)

theorem mem_join {a : α} {b : β} : (a, b) ∈ join on t u ↔ a ∈ t ∧ b ∈ u ∧ on a b = true := by
  simp [join]

theorem join_filter (on : α → β → Bool) (p : α → Bool) (t : List α) (u : List β) :
    join on (t.filter p) u = (join on t u).filter fun row => p row.1 := by
  induction t with
  | nil => rfl
  | cons a t ih =>
    have hrow : ((u.filter (on a)).map fun b => (a, b)).filter (fun row => p row.1) =
        if p a then (u.filter (on a)).map fun b => (a, b) else [] := by
      cases hp : p a <;> simp [List.filter_map, Function.comp_def, hp]
    have hcons : join on (a :: t) u = ((u.filter (on a)).map fun b => (a, b)) ++ join on t u := rfl
    rw [hcons, List.filter_append, hrow, ← ih, List.filter_cons]
    cases hp : p a <;> rfl

theorem join_fst (h : ∀ a ∈ t, ∃ b, u.filter (on a) = [b]) : (join on t u).map Prod.fst = t := by
  induction t with
  | nil => rfl
  | cons a t ih =>
    obtain ⟨b, hb⟩ := h a List.mem_cons_self
    have hcons : join on (a :: t) u = ((u.filter (on a)).map fun b => (a, b)) ++ join on t u := rfl
    rw [hcons, hb, List.map_append, ih fun x hx => h x (List.mem_cons_of_mem _ hx)]
    rfl

theorem nodup_join (on : α → β → Bool) (ht : t.Nodup) (hu : u.Nodup) : (join on t u).Nodup := by
  refine List.nodup_flatMap.mpr ⟨fun a _ => ?_, ?_⟩
  · exact (hu.filter _).map fun _ _ h => (Prod.mk.inj h).2
  · refine ht.imp fun hne row hrow hrow' => ?_
    obtain ⟨b, -, rfl⟩ := List.mem_map.mp hrow
    obtain ⟨b', -, heq⟩ := List.mem_map.mp hrow'
    exact hne (Prod.mk.inj heq).1.symm

theorem mem_leftJoin_some {a : α} {b : β} :
    (a, some b) ∈ leftJoin on t u ↔ a ∈ t ∧ b ∈ u ∧ on a b = true := by
  unfold leftJoin
  rw [List.mem_flatMap]
  constructor
  · rintro ⟨a', ha', h⟩
    have hb : ∀ {b'}, b' ∈ u.filter (on a') ↔ b' ∈ u ∧ on a' b' = true := List.mem_filter
    split at h
    · simp at h
    · next b₀ bs hf =>
      obtain ⟨b', hb', e⟩ := List.mem_map.mp h
      cases e
      rw [← hf] at hb'
      exact ⟨ha', hb.mp hb'⟩
  · rintro ⟨ha, hb⟩
    refine ⟨a, ha, ?_⟩
    have hmem : b ∈ u.filter (on a) := List.mem_filter.mpr hb
    split
    · next hf =>
      rw [hf] at hmem
      cases hmem
    · next hf =>
      rw [hf] at hmem
      exact List.mem_map_of_mem hmem

theorem mem_leftJoin_none {a : α} :
    (a, none) ∈ leftJoin on t u ↔ a ∈ t ∧ ∀ b ∈ u, on a b = false := by
  unfold leftJoin
  rw [List.mem_flatMap]
  constructor
  · rintro ⟨a', ha', h⟩
    split at h
    · next hf =>
      cases List.mem_singleton.mp h
      refine ⟨ha', fun b hb => ?_⟩
      have := List.filter_eq_nil_iff.mp hf b hb
      simpa using this
    · simp at h
  · rintro ⟨ha, hn⟩
    refine ⟨a, ha, ?_⟩
    have hf : u.filter (on a) = [] := List.filter_eq_nil_iff.mpr fun b hb => by
      rw [hn b hb]
      exact Bool.false_ne_true
    rw [hf]
    exact List.mem_singleton_self _

theorem leftJoin_fst
    (h : ∀ a ∈ t, (u.filter (on a)).length ≤ 1) : (leftJoin on t u).map Prod.fst = t := by
  induction t with
  | nil => rfl
  | cons a t ih =>
    have hrest := ih fun x hx => h x (List.mem_cons_of_mem _ hx)
    have ha := h a List.mem_cons_self
    show List.map Prod.fst (_ ++ leftJoin on t u) = _
    rw [List.map_append, hrest]
    beta_reduce
    split
    · rfl
    · next b bs hf =>
      rw [hf, List.length_cons] at ha
      have hbs : bs = [] := List.length_eq_zero_iff.mp (by omega)
      rw [hbs]
      rfl

end Table

end Lorepia
