import Mathlib

/-!
# Dividing and spending a budget

`apportion` divides a total by weights with the method of the largest remainders. When the
weights sum to the scale nothing is lost and nothing is invented (`sum_apportion`), and every
share is its quota rounded down or up (`apportion_share`).

`greedy` goes through a ranked list and takes what still fits, each key once. What it takes
costs at most the budget (`greedy_cost`), and has distinct new keys (`greedy_nodup`,
`greedy_fresh`). `whileFits` stops at the first item that does not fit: it takes the longest
beginning that does (`whileFits_prefix`, `whileFits_maximal`).

`fitting` takes what fits to what it has taken so far, whatever that means: a sublist
(`fitting_sublist`) with every property that taking an item keeps (`fitting_keeps`); an item
that is not taken did not fit at its turn (`fitting_skipped`).
-/

namespace Lorepia.Budget

/-! ## Largest remainders -/

def floors (scale total : Nat) (weights : List Nat) : List Nat :=
  weights.map fun weight => total * weight / scale

/-- The remainders with their positions, the largest first and equal ones by position. -/
def ranked (scale total : Nat) (weights : List Nat) : List (Nat × Nat) :=
  (weights.map fun weight => total * weight % scale).zipIdx.insertionSort fun left right =>
    right.1 < left.1 ∨ left.1 = right.1 ∧ left.2 ≤ right.2

def addUnit (shares : List Nat) (entry : Nat × Nat) : List Nat := shares.modify entry.2 (· + 1)

def apportion (scale total : Nat) (weights : List Nat) : List Nat :=
  ((ranked scale total weights).take (total - (floors scale total weights).sum)).foldl addUnit
    (floors scale total weights)

theorem length_foldl_addUnit (entries : List (Nat × Nat)) (shares : List Nat) :
    (entries.foldl addUnit shares).length = shares.length := by
  induction entries generalizing shares with
  | nil => rfl
  | cons entry rest ih =>
    rw [List.foldl_cons, ih, addUnit, List.length_modify]

theorem length_apportion (scale total : Nat) (weights : List Nat) :
    (apportion scale total weights).length = weights.length := by
  rw [apportion, length_foldl_addUnit, floors, List.length_map]

theorem sum_addUnit {shares : List Nat} {entry : Nat × Nat} (h : entry.2 < shares.length) :
    (addUnit shares entry).sum = shares.sum + 1 := by
  unfold addUnit
  generalize entry.2 = i at h
  induction shares generalizing i with
  | nil => cases h
  | cons first rest ih =>
    cases i with
    | zero =>
      simp only [List.modify_zero_cons, List.sum_cons]
      omega
    | succ i =>
      simp only [List.modify_succ_cons, List.sum_cons, ih i (Nat.lt_of_succ_lt_succ h)]
      omega

theorem sum_foldl_addUnit {entries : List (Nat × Nat)} {shares : List Nat}
    (h : ∀ entry ∈ entries, entry.2 < shares.length) :
    (entries.foldl addUnit shares).sum = shares.sum + entries.length := by
  induction entries generalizing shares with
  | nil => rfl
  | cons entry rest ih =>
    have hrest : ∀ other ∈ rest, other.2 < (addUnit shares entry).length := by
      intro other hother
      rw [addUnit, List.length_modify]
      exact h other (List.mem_cons_of_mem _ hother)
    rw [List.foldl_cons, ih hrest, sum_addUnit (h entry List.mem_cons_self), List.length_cons]
    omega

theorem sum_div_mod (scale total : Nat) (weights : List Nat) :
    scale * (floors scale total weights).sum +
      (weights.map fun weight => total * weight % scale).sum = total * weights.sum := by
  induction weights with
  | nil => rfl
  | cons weight rest ih =>
    have hdiv := Nat.div_add_mod (total * weight) scale
    simp only [floors, List.map_cons, List.sum_cons, Nat.mul_add] at ih ⊢
    omega

theorem sum_mod_le {scale : Nat} (h : 0 < scale) (total : Nat) (weights : List Nat) :
    (weights.map fun weight => total * weight % scale).sum ≤ scale * weights.length := by
  induction weights with
  | nil => exact Nat.le_refl 0
  | cons weight rest ih =>
    have hlt := Nat.mod_lt (total * weight) h
    simp only [List.map_cons, List.sum_cons, List.length_cons, Nat.mul_succ]
    omega

theorem length_ranked (scale total : Nat) (weights : List Nat) :
    (ranked scale total weights).length = weights.length := by
  simp [ranked, List.length_insertionSort]

theorem ranked_bound {scale total : Nat} {weights : List Nat} {entry : Nat × Nat}
    (h : entry ∈ ranked scale total weights) : entry.2 < weights.length := by
  have hmem := (List.perm_insertionSort _ _).mem_iff.mp h
  have hget := List.mem_zipIdx_iff_getElem?.mp hmem
  obtain ⟨hlt, -⟩ := List.getElem?_eq_some_iff.mp hget
  simpa using hlt

section
variable {scale : Nat} (hscale : 0 < scale) (total : Nat) {weights : List Nat}
  (hweights : weights.sum = scale)
include hscale hweights

theorem sum_floors_le : (floors scale total weights).sum ≤ total := by
  have hsum := sum_div_mod scale total weights
  rw [hweights, Nat.mul_comm total scale] at hsum
  refine Nat.le_of_mul_le_mul_left ?_ hscale
  omega

theorem units_le : total - (floors scale total weights).sum ≤ weights.length := by
  have hsum := sum_div_mod scale total weights
  have hmod := sum_mod_le hscale total weights
  rw [hweights, Nat.mul_comm total scale] at hsum
  refine Nat.le_of_mul_le_mul_left ?_ hscale
  rw [Nat.mul_sub]
  omega

theorem sum_apportion : (apportion scale total weights).sum = total := by
  have hfloor := sum_floors_le hscale total hweights
  have hleft := units_le hscale total hweights
  have htake : ((ranked scale total weights).take
      (total - (floors scale total weights).sum)).length =
      total - (floors scale total weights).sum := by
    rw [List.length_take, length_ranked]
    omega
  unfold apportion
  rw [sum_foldl_addUnit, htake]
  · omega
  · intro entry hentry
    rw [floors, List.length_map]
    exact ranked_bound (List.mem_of_mem_take hentry)

end

theorem getElem?_foldl_addUnit (entries : List (Nat × Nat)) (shares : List Nat) (i : Nat) :
    (entries.foldl addUnit shares)[i]? = shares[i]?.map (· + (entries.map Prod.snd).count i) := by
  induction entries generalizing shares with
  | nil => simp
  | cons entry rest ih =>
    rw [List.foldl_cons, ih, addUnit, List.getElem?_modify, List.map_cons, List.count_cons,
      Option.map_eq_map, Option.map_map]
    congr 1
    funext share
    by_cases h : entry.2 = i
    · simp [h, Nat.add_assoc, Nat.add_comm 1]
    · simp [h]

theorem ranked_perm (scale total : Nat) (weights : List Nat) :
    (ranked scale total weights).Perm (weights.map fun weight => total * weight % scale).zipIdx :=
  List.perm_insertionSort _ _

theorem ranked_nodup (scale total : Nat) (weights : List Nat) :
    ((ranked scale total weights).map Prod.snd).Nodup := by
  rw [((ranked_perm scale total weights).map Prod.snd).nodup_iff, List.zipIdx_map_snd]
  exact List.nodup_range'

theorem sum_ranked (scale total : Nat) (weights : List Nat) :
    ((ranked scale total weights).map Prod.fst).sum =
      (weights.map fun weight => total * weight % scale).sum := by
  rw [((ranked_perm scale total weights).map Prod.fst).sum_eq, List.zipIdx_map_fst]

theorem ranked_remainder {scale total : Nat} {weights : List Nat} {entry : Nat × Nat}
    (h : entry ∈ ranked scale total weights) :
    ∃ weight, weights[entry.2]? = some weight ∧ entry.1 = total * weight % scale := by
  have hget := List.mem_zipIdx_iff_getElem?.mp ((ranked_perm scale total weights).mem_iff.mp h)
  rw [List.getElem?_map, Option.map_eq_some_iff] at hget
  obtain ⟨weight, hweight, hentry⟩ := hget
  exact ⟨weight, hweight, hentry.symm⟩

theorem ranked_descending (scale total : Nat) (weights : List Nat) :
    (ranked scale total weights).Pairwise fun left right => right.1 ≤ left.1 := by
  have htotal : Std.Total fun left right : Nat × Nat =>
      right.1 < left.1 ∨ left.1 = right.1 ∧ left.2 ≤ right.2 := ⟨fun left right => by omega⟩
  have htrans : IsTrans (Nat × Nat) fun left right =>
      right.1 < left.1 ∨ left.1 = right.1 ∧ left.2 ≤ right.2 := ⟨fun a b c hab hbc => by omega⟩
  refine (List.pairwise_insertionSort _ _).imp fun {left right} h => ?_
  omega

theorem not_mem_units {scale : Nat} (hscale : 0 < scale) (total : Nat) {weights : List Nat}
    (hweights : weights.sum = scale) {entry : Nat × Nat}
    (h : entry ∈ (ranked scale total weights).take (total - (floors scale total weights).sum)) :
    entry.1 ≠ 0 := by
  intro hzero
  obtain ⟨before, after, htake⟩ := List.append_of_mem h
  have hlength : before.length < total - (floors scale total weights).sum := by
    have := congrArg List.length htake
    simp only [List.length_take, List.length_append, List.length_cons] at this
    omega
  have hsplit := (List.take_append_drop (total - (floors scale total weights).sum)
    (ranked scale total weights)).symm
  rw [htake, List.append_assoc, List.cons_append] at hsplit
  -- the remainders after the entry are zero as well, so those before it make up the sum
  have hdescending := ranked_descending scale total weights
  rw [hsplit, List.pairwise_append, List.pairwise_cons] at hdescending
  have hafter : ((after ++ (ranked scale total weights).drop
      (total - (floors scale total weights).sum)).map Prod.fst).sum = 0 := by
    refine List.sum_eq_zero fun n hn => ?_
    obtain ⟨other, hother, rfl⟩ := List.mem_map.mp hn
    have := hdescending.2.1.1 other hother
    omega
  have hbefore : (before.map Prod.fst).sum ≤ scale * before.length := by
    have hle := List.sum_le_card_nsmul (before.map Prod.fst) scale fun n hn => by
      obtain ⟨other, hother, rfl⟩ := List.mem_map.mp hn
      have hmem : other ∈ ranked scale total weights := hsplit ▸ List.mem_append_left _ hother
      obtain ⟨weight, _, hweight⟩ := ranked_remainder hmem
      rw [hweight]
      exact (Nat.mod_lt _ hscale).le
    rwa [List.length_map, smul_eq_mul, Nat.mul_comm] at hle
  have hsum := sum_ranked scale total weights
  rw [hsplit, List.map_append, List.map_cons, List.sum_append, List.sum_cons, hzero, hafter] at hsum
  have hdivmod := sum_div_mod scale total weights
  rw [hweights, Nat.mul_comm total scale] at hdivmod
  have hunits : scale * (before.length + 1) ≤ scale * (total - (floors scale total weights).sum) :=
    Nat.mul_le_mul_left scale hlength
  rw [Nat.mul_sub, Nat.mul_succ] at hunits
  omega

theorem apportion_share {scale : Nat} (hscale : 0 < scale) (total : Nat) {weights : List Nat}
    (hweights : weights.sum = scale) {i weight : Nat} (hi : weights[i]? = some weight) :
    ∃ unit, (apportion scale total weights)[i]? = some (total * weight / scale + unit) ∧ unit ≤ 1 ∧
      (total * weight % scale = 0 → unit = 0) := by
  refine ⟨((((ranked scale total weights).take (total - (floors scale total weights).sum)).map
    Prod.snd).count i), ?_, ?_, ?_⟩
  · rw [apportion, getElem?_foldl_addUnit, floors, List.getElem?_map, hi]
    rfl
  · refine List.nodup_iff_count_le_one.mp ?_ i
    exact ((List.take_sublist _ _).map Prod.snd).nodup (ranked_nodup scale total weights)
  · intro hzero
    rw [List.count_eq_zero]
    intro hmem
    obtain ⟨entry, hentry, rfl⟩ := List.mem_map.mp hmem
    obtain ⟨weight', hweight, hremainder⟩ := ranked_remainder (List.mem_of_mem_take hentry)
    obtain rfl := Option.some.inj (hi.symm.trans hweight)
    exact not_mem_units hscale total hweights hentry (hremainder.trans hzero)

/-! ## Greedy selection -/

section
variable {α κ : Type} [DecidableEq κ] (cost : α → Nat) (key : α → κ)

/-- Take what fits into the budget, unless its key is taken. -/
def greedy : List α → Nat → List κ → List α
  | [], _, _ => []
  | a :: rest, budget, taken =>
    if key a ∈ taken ∨ budget < cost a then greedy rest budget taken
    else a :: greedy rest (budget - cost a) (taken ++ [key a])

variable {cost key}

theorem greedy_sublist (l : List α) (budget : Nat) (taken : List κ) :
    (greedy cost key l budget taken).Sublist l := by
  induction l generalizing budget taken with
  | nil => exact .refl _
  | cons a rest ih =>
    unfold greedy
    split
    · exact (ih budget taken).cons a
    · exact (ih _ _).cons_cons a

theorem greedy_cost (l : List α) (budget : Nat) (taken : List κ) :
    ((greedy cost key l budget taken).map cost).sum ≤ budget := by
  induction l generalizing budget taken with
  | nil => exact Nat.zero_le _
  | cons a rest ih =>
    unfold greedy
    split
    · exact ih budget taken
    · next h =>
      have hrest := ih (budget - cost a) (taken ++ [key a])
      rw [not_or] at h
      rw [List.map_cons, List.sum_cons]
      omega

theorem greedy_fresh {l : List α} {budget : Nat} {taken : List κ} {a : α}
    (h : a ∈ greedy cost key l budget taken) : key a ∉ taken := by
  induction l generalizing budget taken with
  | nil => cases h
  | cons b rest ih =>
    unfold greedy at h
    split at h
    · exact ih h
    · next hb =>
      rw [not_or] at hb
      obtain rfl | h := List.mem_cons.mp h
      · exact hb.1
      · intro hmem
        exact ih h (List.mem_append_left _ hmem)

theorem greedy_nodup (l : List α) (budget : Nat) (taken : List κ) :
    ((greedy cost key l budget taken).map key).Nodup := by
  induction l generalizing budget taken with
  | nil => exact List.nodup_nil
  | cons a rest ih =>
    unfold greedy
    split
    · exact ih budget taken
    · rw [List.map_cons, List.nodup_cons]
      refine ⟨fun hmem => ?_, ih _ _⟩
      obtain ⟨b, hb, hkey⟩ := List.mem_map.mp hmem
      exact greedy_fresh hb (List.mem_append_right _ (List.mem_singleton.mpr hkey))

end

/-! ## Selection up to the first that does not fit -/

section
variable {α : Type} (cost : α → Nat)

/-- At most `count` items of a list, up to the first that exceeds what is left of the budget. -/
def whileFits : Nat → Nat → List α → List α
  | 0, _, _ => []
  | _ + 1, _, [] => []
  | count + 1, budget, a :: rest =>
    if cost a ≤ budget then a :: whileFits count (budget - cost a) rest else []

variable {cost}

@[simp] theorem whileFits_nil (count budget : Nat) : whileFits cost count budget [] = [] := by
  cases count with
  | zero => rfl
  | succ count => rfl

theorem whileFits_cons {count : Nat} (hcount : 0 < count) (budget : Nat) (a : α) (rest : List α) :
    whileFits cost count budget (a :: rest) =
      if cost a ≤ budget then a :: whileFits cost (count - 1) (budget - cost a) rest else [] := by
  cases count with
  | zero => cases hcount
  | succ count => rfl

theorem whileFits_prefix (count budget : Nat) (l : List α) : whileFits cost count budget l <+: l := by
  induction l generalizing count budget with
  | nil => simp
  | cons a rest ih =>
    cases count with
    | zero => exact List.nil_prefix
    | succ count =>
      unfold whileFits
      split
      · exact (List.prefix_cons_inj a).mpr (ih count _)
      · exact List.nil_prefix

theorem length_whileFits_le (count budget : Nat) (l : List α) :
    (whileFits cost count budget l).length ≤ count := by
  induction count generalizing budget l with
  | zero => exact Nat.le_refl 0
  | succ count ih =>
    cases l with
    | nil => exact Nat.zero_le _
    | cons a rest =>
      unfold whileFits
      split
      · exact Nat.succ_le_succ (ih _ rest)
      · exact Nat.zero_le _

theorem whileFits_cost (count budget : Nat) (l : List α) :
    ((whileFits cost count budget l).map cost).sum ≤ budget := by
  induction count generalizing budget l with
  | zero => exact Nat.zero_le _
  | succ count ih =>
    cases l with
    | nil => exact Nat.zero_le _
    | cons a rest =>
      unfold whileFits
      split
      · next hfits =>
        have hrest := ih (budget - cost a) rest
        rw [List.map_cons, List.sum_cons]
        omega
      · exact Nat.zero_le _

theorem whileFits_maximal {count budget : Nat} {l rest : List α} {a : α}
    (h : l = whileFits cost count budget l ++ a :: rest) :
    (whileFits cost count budget l).length = count ∨
      budget < ((whileFits cost count budget l).map cost).sum + cost a := by
  induction count generalizing budget l with
  | zero => exact .inl rfl
  | succ count ih =>
    cases l with
    | nil =>
      rw [List.nil_eq_append_iff] at h
      cases h.2
    | cons b others =>
      unfold whileFits at h ⊢
      split at h
      · next hfits =>
        rw [if_pos hfits]
        obtain hlength | hcost := ih (List.cons.inj h).2
        · exact .inl (congrArg Nat.succ hlength)
        · refine .inr ?_
          rw [List.map_cons, List.sum_cons]
          omega
      · next hfits =>
        obtain ⟨rfl, -⟩ := List.cons.inj h
        rw [if_neg hfits]
        refine .inr ?_
        rw [List.map_nil, List.sum_nil]
        omega

end

/-! ## Taking what fits to what has been taken -/

section
variable {α : Type} (fits : List α → α → Prop) [∀ taken a, Decidable (fits taken a)]

/-- Go through the list and add to `taken` what fits. -/
def fitting : List α → List α → List α
  | [], taken => taken
  | a :: rest, taken =>
    if fits taken a then fitting rest (taken ++ [a]) else fitting rest taken

variable {fits}

theorem fitting_append (l l' taken : List α) :
    fitting fits (l ++ l') taken = fitting fits l' (fitting fits l taken) := by
  induction l generalizing taken with
  | nil => rfl
  | cons a rest ih =>
    rw [List.cons_append, fitting, fitting]
    split
    · exact ih _
    · exact ih _

variable (fits) in
theorem fitting_eq (l taken : List α) : ∃ more, fitting fits l taken = taken ++ more ∧ more.Sublist l := by
  induction l generalizing taken with
  | nil => exact ⟨[], (List.append_nil _).symm, .refl _⟩
  | cons a rest ih =>
    rw [fitting]
    split
    · obtain ⟨more, heq, hsub⟩ := ih (taken ++ [a])
      exact ⟨a :: more, by rw [heq, List.append_assoc, List.singleton_append], hsub.cons_cons a⟩
    · obtain ⟨more, heq, hsub⟩ := ih taken
      exact ⟨more, heq, hsub.cons a⟩

theorem fitting_sublist (l : List α) : (fitting fits l []).Sublist l := by
  obtain ⟨more, heq, hsub⟩ := fitting_eq fits l []
  rwa [heq]

theorem fitting_keeps {P : List α → Prop} (hstep : ∀ taken a, P taken → fits taken a → P (taken ++ [a]))
    (l : List α) {taken : List α} (htaken : P taken) : P (fitting fits l taken) := by
  induction l generalizing taken with
  | nil => exact htaken
  | cons a rest ih =>
    rw [fitting]
    split
    · next hfits => exact ih (hstep taken a htaken hfits)
    · exact ih htaken

theorem fitting_skipped {before after : List α} {a : α}
    (h : a ∉ fitting fits (before ++ a :: after) []) :
    ∃ earlier later, fitting fits (before ++ a :: after) [] = earlier ++ later ∧
      earlier.Sublist before ∧ later.Sublist after ∧ ¬ fits earlier a := by
  rw [fitting_append, fitting] at h ⊢
  split at h
  · -- an item that fits is taken
    obtain ⟨more, heq, -⟩ := fitting_eq fits after (fitting fits before [] ++ [a])
    exact absurd (by simp [heq]) h
  · next hfits =>
    rw [if_neg hfits]
    obtain ⟨more, heq, hsub⟩ := fitting_eq fits after (fitting fits before [])
    exact ⟨_, more, heq, fitting_sublist before, hsub, hfits⟩

end

end Lorepia.Budget
