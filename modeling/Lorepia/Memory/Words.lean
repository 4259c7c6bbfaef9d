import Lorepia.Memory.Budget

/-!
# The arithmetic of the budget (`budget.rs`:93–188)

`budget.rs` computes with `u32` and `u64`. Here every sum, difference, product and conversion is
checked: the result is `none` where the source would panic or wrap (`apportion_exact`).
-/

namespace Lorepia.Memory

/-! ## Checked words -/

/-- A value of `u32`, or of a wider type that is converted to it. -/
def word32 (n : Nat) : Option Nat := if n < 2 ^ 32 then some n else none

def word64 (n : Nat) : Option Nat := if n < 2 ^ 64 then some n else none

def subWords (a b : Nat) : Option Nat := if b ≤ a then some (a - b) else none

theorem word32_eq {n : Nat} (h : n < 2 ^ 32) : word32 n = some n := if_pos h

theorem word64_eq {n : Nat} (h : n < 2 ^ 64) : word64 n = some n := if_pos h

theorem subWords_eq {a b : Nat} (h : b ≤ a) : subWords a b = some (a - b) := if_pos h

/-! ## The source with checks -/

def scaleTokensChecked (tokens basisPoints : Nat) : Option Nat := do
  let scaled ← word64 (tokens * basisPoints)
  word32 (scaled / basisPointsScale)

structure Apportioned where
  shares : List Nat := []
  remainders : List (Nat × Nat) := []
  assigned : Nat := 0

/-- One turn of the first loop of `apportion`. -/
def Apportioned.add (total : Nat) (state : Apportioned) (entry : Nat × Nat) : Option Apportioned := do
  let product ← word64 (total * entry.1)
  let share ← word32 (product / basisPointsScale)
  let assigned ← word32 (state.assigned + share)
  some
    { shares := state.shares ++ [share]
      remainders := state.remainders ++ [(product % basisPointsScale, entry.2)]
      assigned }

def addUnitChecked (shares : List Nat) (entry : Nat × Nat) : Option (List Nat) := do
  let share ← shares[entry.2]?
  let share ← word32 (share + 1)
  some (shares.set entry.2 share)

def apportionChecked (total : Nat) (mix : MemoryMix) : Option (List Nat) := do
  let state ← [mix.recent.get, mix.similar.get, mix.random.get].zipIdx.foldlM (Apportioned.add total) {}
  let remainders := state.remainders.insertionSort fun left right =>
    right.1 < left.1 ∨ left.1 = right.1 ∧ left.2 ≤ right.2
  let left ← subWords total state.assigned
  (remainders.take left).foldlM addUnitChecked state.shares

def retrievalBudgetChecked (strategy : MemoryStrategy) (additionalDetail : Nat) :
    Option RetrievalTokenBudget :=
  match strategy with
  | .rollingSummary => some ⟨additionalDetail, 0, 0⟩
  | .hybridRetrieval policy => do
    let shares ← apportionChecked additionalDetail policy.selectionMix
    some ⟨shares.getD 0 0, shares.getD 1 0, shares.getD 2 0⟩

def calculateChecked (preset : MemoryPreset) (input : MemoryBudgetInput) : Option MemoryTokenBudget := do
  let inputCapacity ← subWords input.maxContextTokens input.maxOutputTokens
  let remainingAfterNonMemory ← subWords inputCapacity input.exactNonMemoryTokens
  let ratioCap ← scaleTokensChecked inputCapacity preset.insertion.memoryBudget.get
  let totalMemory := min ratioCap remainingAfterNonMemory
  let additionalDetail ← scaleTokensChecked totalMemory preset.insertion.additionalDetailBudget.get
  let consolidatedSummary ← subWords totalMemory additionalDetail
  let retrieval ← retrievalBudgetChecked preset.strategy additionalDetail
  some { inputCapacity, remainingAfterNonMemory, totalMemory, consolidatedSummary, additionalDetail, retrieval }

/-! ## No check fails -/

theorem scaled_bounded {tokens : Nat} (h : tokens < 2 ^ 32) (basisPoints : BasisPoints) :
    tokens * basisPoints.get < 2 ^ 64 ∧ tokens * basisPoints.get / basisPointsScale < 2 ^ 32 := by
  have hle := scaleTokens_le tokens basisPoints
  have hpoints := basisPoints.bounded
  have hproduct : tokens * basisPoints.get ≤ tokens * basisPointsScale := Nat.mul_le_mul_left tokens hpoints
  have hscale : basisPointsScale = 10000 := rfl
  rw [hscale] at hproduct
  unfold scaleTokens at hle
  constructor
  · omega
  · omega

theorem scaleTokensChecked_eq {tokens : Nat} (h : tokens < 2 ^ 32) (basisPoints : BasisPoints) :
    scaleTokensChecked tokens basisPoints.get = some (scaleTokens tokens basisPoints.get) := by
  obtain ⟨hproduct, hquotient⟩ := scaled_bounded h basisPoints
  rw [scaleTokensChecked, word64_eq hproduct]
  exact word32_eq hquotient

theorem add_eq {total : Nat} (h : total < 2 ^ 32) {state : Apportioned} (weight : BasisPoints) (index : Nat)
    (hassigned : state.assigned + total * weight.get / basisPointsScale < 2 ^ 32) :
    Apportioned.add total state (weight.get, index) = some
      { shares := state.shares ++ [total * weight.get / basisPointsScale]
        remainders := state.remainders ++ [(total * weight.get % basisPointsScale, index)]
        assigned := state.assigned + total * weight.get / basisPointsScale } := by
  obtain ⟨hproduct, hquotient⟩ := scaled_bounded h weight
  simp only [Apportioned.add, word64_eq hproduct, word32_eq hquotient, word32_eq hassigned,
    Option.bind_eq_bind, Option.bind_some]

theorem foldlM_addUnitChecked {entries : List (Nat × Nat)} {shares : List Nat}
    (hindex : ∀ entry ∈ entries, entry.2 < shares.length) (hsum : shares.sum + entries.length < 2 ^ 32) :
    entries.foldlM addUnitChecked shares = some (entries.foldl Budget.addUnit shares) := by
  induction entries generalizing shares with
  | nil => rfl
  | cons entry rest ih =>
    have hi := hindex entry List.mem_cons_self
    have hget : shares[entry.2]? = some shares[entry.2] := List.getElem?_eq_getElem hi
    have hle : shares[entry.2] ≤ shares.sum := List.single_le_sum (by simp) _ (List.getElem_mem hi)
    rw [List.length_cons] at hsum
    have hunit : addUnitChecked shares entry = some (Budget.addUnit shares entry) := by
      rw [addUnitChecked, hget]
      show (word32 (shares[entry.2] + 1)).bind _ = _
      rw [word32_eq (by omega), Budget.addUnit, List.modify_eq_set_getElem?, hget]
      rfl
    rw [List.foldlM_cons, hunit]
    refine ih (fun other hother => ?_) ?_
    · rw [Budget.addUnit, List.length_modify]
      exact hindex other (List.mem_cons_of_mem _ hother)
    · rw [Budget.sum_addUnit hi]
      omega

theorem foldlM_add {total : Nat} (h : total < 2 ^ 32) {weights : List BasisPoints} {start : Nat}
    {state : Apportioned}
    (hassigned : state.assigned +
      (Budget.floors basisPointsScale total (weights.map BasisPoints.get)).sum < 2 ^ 32) :
    ((weights.map BasisPoints.get).zipIdx start).foldlM (Apportioned.add total) state = some
      { shares := state.shares ++ Budget.floors basisPointsScale total (weights.map BasisPoints.get)
        remainders := state.remainders ++
          ((weights.map BasisPoints.get).map fun weight => total * weight % basisPointsScale).zipIdx start
        assigned := state.assigned +
          (Budget.floors basisPointsScale total (weights.map BasisPoints.get)).sum } := by
  induction weights generalizing start state with
  | nil => simp [Budget.floors]
  | cons weight rest ih =>
    have hcons : Budget.floors basisPointsScale total ((weight :: rest).map BasisPoints.get) =
        total * weight.get / basisPointsScale ::
          Budget.floors basisPointsScale total (rest.map BasisPoints.get) := rfl
    rw [hcons, List.sum_cons, ← Nat.add_assoc] at hassigned
    rw [List.map_cons, List.zipIdx_cons, List.foldlM_cons,
      add_eq h weight start (Nat.lt_of_le_of_lt (Nat.le_add_right _ _) hassigned)]
    refine (ih hassigned).trans ?_
    simp [Budget.floors, Nat.add_assoc]

theorem apportionChecked_eq {total : Nat} (h : total < 2 ^ 32) (mix : MemoryMix) :
    apportionChecked total mix = some (apportion total mix) := by
  have hfloors := Budget.sum_floors_le (by decide) total (mix_sum mix)
  have hunits := Budget.units_le (by decide) total (mix_sum mix)
  have hloop := @foldlM_add total h [mix.recent, mix.similar, mix.random] 0 {}
    (by simpa using Nat.lt_of_le_of_lt hfloors h)
  simp only [List.map_cons, List.map_nil, List.nil_append, Nat.zero_add] at hloop
  rw [apportionChecked, hloop]
  simp only [Option.bind_eq_bind, Option.bind_some]
  rw [subWords_eq (by simpa [Budget.floors] using hfloors)]
  -- the units bring the sum of the floors to the total
  refine foldlM_addUnitChecked (fun entry hentry => ?_) ?_
  · rw [Budget.floors, List.length_map]
    exact Budget.ranked_bound (List.mem_of_mem_take hentry)
  · refine Nat.lt_of_le_of_lt (Nat.add_le_add_left (List.length_take_le _ _) _) ?_
    rw [Nat.add_sub_cancel' hfloors]
    exact h

theorem calculateChecked_eq (preset : MemoryPreset) (input : MemoryBudgetInput) :
    calculateChecked preset input = some (MemoryTokenBudget.calculate preset input) := by
  have hword := input.word
  have hcapacity : input.maxContextTokens - input.maxOutputTokens < 2 ^ 32 := by omega
  have htotal : min (scaleTokens (input.maxContextTokens - input.maxOutputTokens)
      preset.insertion.memoryBudget.get)
      (input.maxContextTokens - input.maxOutputTokens - input.exactNonMemoryTokens) < 2 ^ 32 := by
    omega
  have hdetail := scaleTokens_le (min (scaleTokens (input.maxContextTokens - input.maxOutputTokens)
      preset.insertion.memoryBudget.get)
      (input.maxContextTokens - input.maxOutputTokens - input.exactNonMemoryTokens))
    preset.insertion.additionalDetailBudget
  have hretrieval : ∀ detail, detail < 2 ^ 32 → retrievalBudgetChecked preset.strategy detail =
      some (MemoryTokenBudget.retrievalBudget preset.strategy detail) := by
    intro detail hlt
    unfold retrievalBudgetChecked MemoryTokenBudget.retrievalBudget
    cases preset.strategy with
    | rollingSummary => rfl
    | hybridRetrieval policy => simp [apportionChecked_eq hlt policy.selectionMix]
  simp only [calculateChecked, subWords_eq input.output, subWords_eq input.nonMemory,
    scaleTokensChecked_eq hcapacity, scaleTokensChecked_eq htotal, subWords_eq hdetail,
    hretrieval _ (Nat.lt_of_le_of_lt hdetail htotal), Option.bind_eq_bind, Option.bind_some]
  rfl

/-! ## Quotas -/

def quota (total : Nat) (weight : BasisPoints) : ℚ := (total * weight.get : ℕ) / (basisPointsScale : ℕ)

/-- A share is the quota rounded down or up, and a bucket without weight has none. -/
structure Rounded (total : Nat) (weight : BasisPoints) (share : Nat) : Prop where
  nearest : share = ⌊quota total weight⌋₊ ∨ share = ⌈quota total weight⌉₊
  zero : weight.get = 0 → share = 0

theorem ceil_quota {total : Nat} {weight : BasisPoints} (h : total * weight.get % basisPointsScale ≠ 0) :
    ⌈quota total weight⌉₊ = total * weight.get / basisPointsScale + 1 := by
  have hdiv := Nat.div_add_mod (total * weight.get) basisPointsScale
  have hmod := Nat.mod_lt (total * weight.get) (by decide : 0 < basisPointsScale)
  have hpos : (0 : ℚ) < (basisPointsScale : ℕ) := by
    exact_mod_cast (by decide : 0 < basisPointsScale)
  rw [Nat.mul_comm] at hdiv
  rw [Nat.ceil_eq_iff (Nat.succ_ne_zero _), quota, Nat.succ_sub_one, lt_div_iff₀ hpos, div_le_iff₀ hpos]
  constructor
  · exact_mod_cast (by omega :
      total * weight.get / basisPointsScale * basisPointsScale < total * weight.get)
  · have hle : total * weight.get ≤ (total * weight.get / basisPointsScale + 1) * basisPointsScale := by
      rw [Nat.succ_mul]
      omega
    exact_mod_cast hle

theorem apportion_rounded (total : Nat) (mix : MemoryMix) {i : Nat} {weight : BasisPoints}
    (hi : [mix.recent, mix.similar, mix.random][i]? = some weight) :
    ∃ share, (apportion total mix)[i]? = some share ∧ Rounded total weight share := by
  have hget : [mix.recent.get, mix.similar.get, mix.random.get][i]? = some weight.get := by
    have := congrArg (Option.map BasisPoints.get) hi
    rwa [← List.getElem?_map] at this
  obtain ⟨unit, hshare, hunit, hwhole⟩ := Budget.apportion_share (by decide) total (mix_sum mix) hget
  have hfloor : ⌊quota total weight⌋₊ = total * weight.get / basisPointsScale := Nat.floor_div_eq_div _ _
  refine ⟨_, hshare, ?_, ?_⟩
  · rw [hfloor]
    rcases Nat.le_one_iff_eq_zero_or_eq_one.mp hunit with rfl | rfl
    · exact .inl rfl
    · exact .inr (ceil_quota fun hzero => absurd (hwhole hzero) (by decide)).symm
  · intro hzero
    rw [hzero, Nat.mul_zero] at hwhole ⊢
    simp [hwhole rfl]

/-- For every total and every mix the arithmetic is exact and each share is its quota rounded. -/
theorem apportion_exact (total : UInt32) (mix : MemoryMix) :
    apportionChecked total.toNat mix = some (apportion total.toNat mix) ∧
      (apportion total.toNat mix).sum = total.toNat ∧
      (∀ (i : Nat) (weight : BasisPoints), [mix.recent, mix.similar, mix.random][i]? = some weight →
        ∃ share, (apportion total.toNat mix)[i]? = some share ∧ Rounded total.toNat weight share) ∧
      ∀ preset input,
        calculateChecked preset input = some (MemoryTokenBudget.calculate preset input) ∧
        (MemoryTokenBudget.calculate preset input).retrieval.recent +
          (MemoryTokenBudget.calculate preset input).retrieval.similar +
          (MemoryTokenBudget.calculate preset input).retrieval.random =
        (MemoryTokenBudget.calculate preset input).additionalDetail :=
  ⟨apportionChecked_eq total.toNat_lt mix, Budget.sum_apportion (by decide) total.toNat (mix_sum mix),
    fun _ _ hi => apportion_rounded total.toNat mix hi,
    fun preset input => ⟨calculateChecked_eq preset input, retrievalBudget_sum preset.strategy _⟩⟩

def thirds : MemoryMix where
  recent := ⟨3334, by decide⟩
  similar := ⟨3333, by decide⟩
  random := ⟨3333, by decide⟩
  exact := by decide

theorem apportion_exact_thirds : apportionChecked 11 thirds = some [4, 4, 3] := by
  have hshares : apportion 11 thirds = [4, 4, 3] := by decide
  rw [← hshares]
  exact (apportion_exact 11 thirds).1

end Lorepia.Memory
