import Lorepia.Memory.Model

/-!
# The token budget (`budget.rs`)

The context left after the output and the other parts of the prompt bounds the memory, of
which a part is for details and the rest for one consolidated summary. With hybrid
retrieval the details are divided into three buckets by the largest remainders. All numbers
are `u32` in the source; `calculate_bounded` is what makes its arithmetic exact.
-/

namespace Lorepia.Memory

@[ext]
structure MemoryBudgetInput where
  maxContextTokens : Nat
  maxOutputTokens : Nat
  exactNonMemoryTokens : Nat
  word : maxContextTokens < 2 ^ 32
  positive : 0 < maxOutputTokens
  output : maxOutputTokens ≤ maxContextTokens
  nonMemory : exactNonMemoryTokens ≤ maxContextTokens - maxOutputTokens

instance : DecidableEq MemoryBudgetInput := fun _ _ =>
  decidable_of_iff' _ MemoryBudgetInput.ext_iff

structure RetrievalTokenBudget where
  recent : Nat
  similar : Nat
  random : Nat
  deriving DecidableEq

structure MemoryTokenBudget where
  inputCapacity : Nat
  remainingAfterNonMemory : Nat
  totalMemory : Nat
  consolidatedSummary : Nat
  additionalDetail : Nat
  retrieval : RetrievalTokenBudget
  deriving DecidableEq

def scaleTokens (tokens basisPoints : Nat) : Nat := tokens * basisPoints / basisPointsScale

/-- `apportion`, for the three weights of a mix. -/
def apportion (total : Nat) (mix : MemoryMix) : List Nat :=
  Budget.apportion basisPointsScale total [mix.recent.get, mix.similar.get, mix.random.get]

def MemoryTokenBudget.retrievalBudget (strategy : MemoryStrategy) (additionalDetail : Nat) :
    RetrievalTokenBudget :=
  match strategy with
  | .rollingSummary => ⟨additionalDetail, 0, 0⟩
  | .hybridRetrieval policy =>
    let shares := apportion additionalDetail policy.selectionMix
    ⟨shares.getD 0 0, shares.getD 1 0, shares.getD 2 0⟩

def MemoryTokenBudget.calculate (preset : MemoryPreset) (input : MemoryBudgetInput) :
    MemoryTokenBudget :=
  let inputCapacity := input.maxContextTokens - input.maxOutputTokens
  let remainingAfterNonMemory := inputCapacity - input.exactNonMemoryTokens
  let ratioCap := scaleTokens inputCapacity preset.insertion.memoryBudget.get
  let totalMemory := min ratioCap remainingAfterNonMemory
  let additionalDetail := scaleTokens totalMemory preset.insertion.additionalDetailBudget.get
  { inputCapacity
    remainingAfterNonMemory
    totalMemory
    consolidatedSummary := totalMemory - additionalDetail
    additionalDetail
    retrieval := retrievalBudget preset.strategy additionalDetail }

theorem scaleTokens_le (tokens : Nat) (basisPoints : BasisPoints) :
    scaleTokens tokens basisPoints.get ≤ tokens := by
  unfold scaleTokens
  refine Nat.div_le_of_le_mul ?_
  rw [Nat.mul_comm basisPointsScale tokens]
  exact Nat.mul_le_mul_left tokens basisPoints.bounded

theorem mix_sum (mix : MemoryMix) :
    [mix.recent.get, mix.similar.get, mix.random.get].sum = basisPointsScale := by
  have := mix.exact
  simp only [List.sum_cons, List.sum_nil]
  omega

theorem retrievalBudget_sum (strategy : MemoryStrategy) (additionalDetail : Nat) :
    let budget := MemoryTokenBudget.retrievalBudget strategy additionalDetail
    budget.recent + budget.similar + budget.random = additionalDetail := by
  cases strategy with
  | rollingSummary => rfl
  | hybridRetrieval policy =>
    have hsum := Budget.sum_apportion (by decide) additionalDetail (mix_sum policy.selectionMix)
    have hlength := Budget.length_apportion basisPointsScale additionalDetail
      [policy.selectionMix.recent.get, policy.selectionMix.similar.get,
        policy.selectionMix.random.get]
    show (apportion additionalDetail policy.selectionMix).getD 0 0 +
      (apportion additionalDetail policy.selectionMix).getD 1 0 +
      (apportion additionalDetail policy.selectionMix).getD 2 0 = additionalDetail
    unfold apportion
    generalize Budget.apportion _ _ _ = shares at hsum hlength ⊢
    match shares, hlength with
    | [a, b, c], _ =>
      simp only [List.sum_cons, List.sum_nil] at hsum
      simp only [List.getD_cons_zero, List.getD_cons_succ]
      omega

theorem calculate_bounded (preset : MemoryPreset) (input : MemoryBudgetInput) :
    let budget := MemoryTokenBudget.calculate preset input
    budget.consolidatedSummary +
        (budget.retrieval.recent + budget.retrieval.similar + budget.retrieval.random) =
      budget.totalMemory ∧
    budget.totalMemory ≤ budget.remainingAfterNonMemory ∧
    budget.remainingAfterNonMemory + input.exactNonMemoryTokens + input.maxOutputTokens =
      input.maxContextTokens := by
  intro budget
  have hdetail : budget.additionalDetail ≤ budget.totalMemory :=
    scaleTokens_le budget.totalMemory preset.insertion.additionalDetailBudget
  have hsum : budget.retrieval.recent + budget.retrieval.similar + budget.retrieval.random =
      budget.additionalDetail := retrievalBudget_sum preset.strategy budget.additionalDetail
  have hconsolidated : budget.consolidatedSummary = budget.totalMemory - budget.additionalDetail := rfl
  refine ⟨by omega, Nat.min_le_right _ _, ?_⟩
  have hremaining : budget.remainingAfterNonMemory =
      input.maxContextTokens - input.maxOutputTokens - input.exactNonMemoryTokens := rfl
  have houtput := input.output
  have hnonMemory := input.nonMemory
  omega

end Lorepia.Memory
