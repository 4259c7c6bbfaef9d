import Mathlib
import Lorepia.Memory.Retrieval

/-!
# What a selection is

The buckets are filled one after the other into one list, and `Chosen` holds of it after each.
With what each bucket spends it gives the specification of `select_memories` (`SelectionSpec`),
and that the checks at its end never fail.
-/

namespace Lorepia.Memory

variable {π : Type}

/-! ## Spending -/

def spent (bucket : MemorySelectionBucket) (selected : List SelectedMemory) : Nat :=
  ((selected.filter fun memory => decide (memory.bucket = bucket)).map (·.reservedPromptTokens)).sum

def MemoryTokenBudget.ofBucket (budget : MemoryTokenBudget) : MemorySelectionBucket → Nat
  | .consolidated => budget.consolidatedSummary
  | .recent => budget.retrieval.recent
  | .similar => budget.retrieval.similar
  | .random => budget.retrieval.random

theorem spent_append (bucket : MemorySelectionBucket) (left right : List SelectedMemory) :
    spent bucket (left ++ right) = spent bucket left + spent bucket right := by
  simp [spent]

theorem spent_map_same (bucket : MemorySelectionBucket) (candidates : List MemoryCandidate) :
    spent bucket (candidates.map (selectedMemory bucket)) =
      (candidates.map (·.reservedPromptTokens)).sum := by
  have hall : (candidates.map (selectedMemory bucket)).filter
      (fun memory => decide (memory.bucket = bucket)) = candidates.map (selectedMemory bucket) := by
    refine List.filter_eq_self.mpr fun memory hmem => ?_
    obtain ⟨candidate, -, rfl⟩ := List.mem_map.mp hmem
    exact decide_eq_true rfl
  rw [spent, hall, List.map_map]
  rfl

variable {bucket : MemorySelectionBucket} {binding : MemorySessionBinding}
  {candidates : List MemoryCandidate} {input : MemoryBudgetInput} {choice : Choice}
  {consolidated : Option MemoryCandidate} {candidate : MemoryCandidate}

theorem spent_map_other {other : MemorySelectionBucket} (h : other ≠ bucket)
    (candidates : List MemoryCandidate) : spent bucket (candidates.map (selectedMemory other)) = 0 := by
  have hnone : (candidates.map (selectedMemory other)).filter
      (fun memory => decide (memory.bucket = bucket)) = [] := by
    refine List.filter_eq_nil_iff.mpr fun memory hmem => ?_
    obtain ⟨candidate, -, rfl⟩ := List.mem_map.mp hmem
    exact fun hbucket => h (of_decide_eq_true hbucket)
  rw [spent, hnone]
  rfl

theorem spent_perm {left right : List SelectedMemory}
    (h : left.Perm right) : spent bucket left = spent bucket right :=
  ((h.filter _).map _).sum_eq

theorem sum_eq_spent (selected : List SelectedMemory) :
    (selected.map (·.reservedPromptTokens)).sum =
      spent .consolidated selected + spent .recent selected + spent .similar selected +
        spent .random selected := by
  induction selected with
  | nil => rfl
  | cons memory rest ih =>
    rw [List.map_cons, List.sum_cons, ih]
    cases hbucket : memory.bucket <;> simp only [spent, List.filter_cons, hbucket] <;> simp <;> omega

theorem spent_selectBucket_same (ranked : List MemoryCandidate) (tokenBudget : Nat)
    (bucket : MemorySelectionBucket) (selected : List SelectedMemory) :
    spent bucket (selectBucket ranked tokenBudget bucket selected) ≤ spent bucket selected + tokenBudget := by
  rw [selectBucket, spent_append, spent_map_same]
  exact Nat.add_le_add_left (Budget.greedy_cost _ _ _) _

theorem spent_selectBucket_other {other : MemorySelectionBucket} (h : other ≠ bucket)
    (ranked : List MemoryCandidate) (tokenBudget : Nat) (selected : List SelectedMemory) :
    spent bucket (selectBucket ranked tokenBudget other selected) = spent bucket selected := by
  rw [selectBucket, spent_append, spent_map_other h, Nat.add_zero]

/-! ## The chosen memories -/

/-- Where a chosen memory comes from. -/
inductive Origin (consolidated : Option MemoryCandidate) (candidate : MemoryCandidate) :
    MemorySelectionBucket → Prop
  | summary (kind : candidate.artifact.kind = .consolidated) (chosen : consolidated = some candidate) :
    Origin consolidated candidate .consolidated
  | leaf {bucket : MemorySelectionBucket} (other : bucket ≠ .consolidated)
    (kind : candidate.artifact.kind = .leaf)
    (uncovered : ∀ summary ∈ consolidated, summary.artifact.coversLeaf candidate.artifact.id = false) :
    Origin consolidated candidate bucket

/-- What holds of the memories chosen so far among the eligible candidates. -/
structure Chosen (eligible : List MemoryCandidate) (consolidated : Option MemoryCandidate)
    (selected : List SelectedMemory) : Prop where
  distinct : (selected.map (·.artifactId)).Nodup
  origin : ∀ memory ∈ selected, ∃ candidate ∈ eligible,
    memory = selectedMemory memory.bucket candidate ∧ Origin consolidated candidate memory.bucket

section
variable {eligible : List MemoryCandidate} {budget : MemoryTokenBudget}

theorem chooseConsolidated_spec {summary : MemoryCandidate}
    (h : chooseConsolidated budget eligible = some summary) :
    summary ∈ eligible ∧ summary.artifact.kind = .consolidated ∧
      summary.reservedPromptTokens ≤ budget.consolidatedSummary := by
  have hmem := (List.perm_insertionSort _ _).mem_iff.mp (List.mem_of_head? h)
  obtain ⟨hmem, hfits⟩ := List.mem_filter.mp hmem
  exact ⟨hmem, of_decide_eq_true hfits⟩

theorem uncoveredLeaves_spec {consolidated : Option MemoryCandidate} {leaf : MemoryCandidate}
    (h : leaf ∈ uncoveredLeaves consolidated eligible) :
    leaf ∈ eligible ∧ leaf.artifact.kind = .leaf ∧
      ∀ summary ∈ consolidated, summary.artifact.coversLeaf leaf.artifact.id = false := by
  obtain ⟨h, huncovered⟩ := List.mem_filter.mp h
  obtain ⟨hmem, hkind⟩ := List.mem_filter.mp h
  refine ⟨hmem, of_decide_eq_true hkind, fun summary hsummary => ?_⟩
  obtain rfl := Option.mem_def.mp hsummary
  simpa using huncovered

theorem Chosen.start : Chosen eligible (chooseConsolidated budget eligible)
    ((chooseConsolidated budget eligible).map (selectedMemory .consolidated)).toList := by
  cases h : chooseConsolidated budget eligible with
  | none => exact ⟨List.nodup_nil, fun memory hmem => nomatch hmem⟩
  | some summary =>
    obtain ⟨hmem, hkind, -⟩ := chooseConsolidated_spec h
    refine ⟨List.nodup_singleton _, fun memory hmemory => ?_⟩
    obtain rfl := List.mem_singleton.mp hmemory
    exact ⟨summary, hmem, rfl, .summary hkind rfl⟩

theorem Chosen.selectBucket {consolidated : Option MemoryCandidate} {selected : List SelectedMemory}
    (h : Chosen eligible consolidated selected) {ranked : List MemoryCandidate}
    (hranked : ∀ leaf ∈ ranked, leaf ∈ uncoveredLeaves consolidated eligible) (tokenBudget : Nat)
    {bucket : MemorySelectionBucket} (hbucket : bucket ≠ .consolidated) :
    Chosen eligible consolidated (Memory.selectBucket ranked tokenBudget bucket selected) := by
  constructor
  case distinct =>
    have hids : ((Budget.greedy (·.reservedPromptTokens) (·.artifact.id) ranked tokenBudget
        (selected.map (·.artifactId))).map (·.artifact.id)).Nodup := Budget.greedy_nodup _ _ _
    rw [Memory.selectBucket, List.map_append, List.map_map]
    refine List.nodup_append.mpr ⟨h.distinct, hids, fun id hid id' hid' heq => ?_⟩
    subst heq
    obtain ⟨leaf, hleaf, rfl⟩ := List.mem_map.mp hid'
    exact Budget.greedy_fresh hleaf hid
  case origin =>
    intro memory hmem
    obtain hmem | hmem := List.mem_append.mp hmem
    · exact h.origin memory hmem
    · obtain ⟨leaf, hleaf, rfl⟩ := List.mem_map.mp hmem
      have hmem := hranked leaf ((Budget.greedy_sublist _ _ _).mem hleaf)
      obtain ⟨hmem, hkind, huncovered⟩ := uncoveredLeaves_spec hmem
      exact ⟨leaf, hmem, rfl, .leaf hbucket hkind huncovered⟩

def Within (budget : MemoryTokenBudget) (selected : List SelectedMemory) : Prop :=
  ∀ bucket, spent bucket selected ≤ budget.ofBucket bucket

theorem Within.selectBucket {selected : List SelectedMemory} (h : Within budget selected)
    (ranked : List MemoryCandidate) {bucket : MemorySelectionBucket}
    (hempty : spent bucket selected = 0) :
    Within budget (Memory.selectBucket ranked (budget.ofBucket bucket) bucket selected) := by
  intro other
  by_cases hsame : bucket = other
  · subst hsame
    have hspent := spent_selectBucket_same ranked (budget.ofBucket bucket) bucket selected
    omega
  · rw [spent_selectBucket_other hsame]
    exact h other

theorem spent_start (other : MemorySelectionBucket) (hother : other ≠ .consolidated) :
    spent other ((chooseConsolidated budget eligible).map (selectedMemory .consolidated)).toList = 0 := by
  cases chooseConsolidated budget eligible with
  | none => rfl
  | some summary => exact spent_map_other hother.symm [summary]

theorem Within.start : Within budget
    ((chooseConsolidated budget eligible).map (selectedMemory .consolidated)).toList := by
  intro bucket
  by_cases hbucket : bucket = .consolidated
  · subst hbucket
    cases h : chooseConsolidated budget eligible with
    | none => exact Nat.zero_le _
    | some summary =>
      have hfits := (chooseConsolidated_spec h).2.2
      have hspent := spent_map_same .consolidated [summary]
      simp only [List.map_cons, List.map_nil, List.sum_cons, List.sum_nil] at hspent
      rw [Option.map_some, Option.toList_some, hspent]
      exact hfits
  · rw [spent_start bucket hbucket]
    exact Nat.zero_le _

end

def eligibleCandidates (binding : MemorySessionBinding) (candidates : List MemoryCandidate) :
    List MemoryCandidate :=
  candidates.filter fun candidate => artifactIsEligible binding candidate.artifact

theorem verifyCandidates_ok {context : QueryContext} {ids : List MemoryArtifactId} :
    verifyCandidates binding context candidates ids = .ok () ↔
      (∀ candidate ∈ candidates, verifyCandidateScope binding context candidate = .ok ()) ∧
        (candidates.map (·.artifact.id)).Nodup ∧ ∀ candidate ∈ candidates, candidate.artifact.id ∉ ids := by
  induction candidates generalizing ids with
  | nil => simp [verifyCandidates]
  | cons first rest ih =>
    constructor
    · intro h
      obtain ⟨_, hscope, h⟩ := except_bind_ok.mp h
      obtain ⟨_, hfirst, h⟩ := except_bind_ok.mp h
      obtain ⟨hscopes, hnodup, hnew⟩ := ih.mp h
      refine ⟨List.forall_mem_cons.mpr ⟨hscope, hscopes⟩, List.nodup_cons.mpr ⟨fun hmem => ?_, hnodup⟩,
        List.forall_mem_cons.mpr ⟨ensure_ok.mp hfirst, fun candidate hmem hid => ?_⟩⟩
      · obtain ⟨candidate, hcandidate, hid⟩ := List.mem_map.mp hmem
        exact hnew candidate hcandidate (hid ▸ List.mem_cons_self)
      · exact hnew candidate hmem (List.mem_cons_of_mem _ hid)
    · rintro ⟨hscopes, hnodup, hnew⟩
      obtain ⟨hscope, hscopes⟩ := List.forall_mem_cons.mp hscopes
      obtain ⟨hfirst, hnodup⟩ := List.nodup_cons.mp hnodup
      obtain ⟨hfresh, hnew⟩ := List.forall_mem_cons.mp hnew
      refine except_bind_ok.mpr ⟨(), hscope, except_bind_ok.mpr ⟨(), ensure_ok.mpr hfresh, ih.mpr ?_⟩⟩
      refine ⟨hscopes, hnodup, fun candidate hmem hid => ?_⟩
      rcases List.mem_cons.mp hid with hid | hid
      · exact hfirst (List.mem_map.mpr ⟨candidate, hmem, hid⟩)
      · exact hnew candidate hmem hid

/-- What `select_memories` has chosen when it comes to its end. -/
theorem chooseMemories_spec {P : Prompts π} {chatId : ChatId}
    {cardId : CharacterCardId} {query : AuthoritativeEmbeddingQuery}
    (h : chooseMemories P binding chatId cardId input query candidates = .ok choice) :
    (candidates.map (·.artifact.id)).Nodup ∧
    (∃ consolidated, Chosen (eligibleCandidates binding candidates) consolidated choice.selected) ∧
      Within (MemoryTokenBudget.calculate binding.preset input) choice.selected := by
  obtain ⟨_, _, h⟩ := except_bind_ok.mp h
  obtain ⟨context, _, h⟩ := except_bind_ok.mp h
  obtain ⟨_, _, h⟩ := except_bind_ok.mp h
  obtain ⟨_, hverified, h⟩ := except_bind_ok.mp h
  refine ⟨(verifyCandidates_ok.mp hverified).2.1, ?_⟩
  set budget := MemoryTokenBudget.calculate binding.preset input
  set eligible := eligibleCandidates binding candidates
  set consolidated := chooseConsolidated budget eligible
  set leaves := uncoveredLeaves consolidated eligible
  have hsorted : ∀ (r : MemoryCandidate → MemoryCandidate → Prop) [DecidableRel r],
      ∀ leaf ∈ leaves.insertionSort r, leaf ∈ leaves := fun r _ leaf hmem =>
    (List.perm_insertionSort r leaves).mem_iff.mp hmem
  -- the bucket of the latest leaves
  set recent := selectBucket (leaves.insertionSort latestFirst) budget.retrieval.recent .recent
    (consolidated.map (selectedMemory .consolidated)).toList
  have hrecent : Chosen eligible consolidated recent :=
    Chosen.start.selectBucket (hsorted latestFirst) _ (by decide)
  have hrecentWithin : Within budget recent :=
    Within.start.selectBucket _ (spent_start .recent (by decide))
  have hother : ∀ bucket, bucket ≠ .consolidated → bucket ≠ .recent → spent bucket recent = 0 := by
    intro bucket hconsolidated hne
    rw [spent_selectBucket_other (Ne.symm hne)]
    exact spent_start bucket hconsolidated
  split at h
  · obtain ⟨selected, hhybrid, h⟩ := except_bind_ok.mp h
    cases h
    obtain ⟨_, _, hhybrid⟩ := except_bind_ok.mp hhybrid
    cases hhybrid
    -- the bucket of similar leaves may be skipped
    have hsimilar : ∀ similar, similar = (if 0 < budget.retrieval.similar then
          selectBucket (leaves.insertionSort mostSimilarFirst) budget.retrieval.similar .similar recent
        else recent) →
        Chosen eligible consolidated similar ∧ Within budget similar ∧ spent .random similar = 0 := by
      rintro similar rfl
      split
      · refine ⟨hrecent.selectBucket (hsorted mostSimilarFirst) _ (by decide),
          hrecentWithin.selectBucket _ (hother .similar (by decide) (by decide)), ?_⟩
        rw [spent_selectBucket_other (by decide)]
        exact hother .random (by decide) (by decide)
      · exact ⟨hrecent, hrecentWithin, hother .random (by decide) (by decide)⟩
    obtain ⟨hchosen, hwithin, hempty⟩ := hsimilar _ rfl
    exact ⟨⟨consolidated, hchosen.selectBucket (hsorted _) _ (by decide)⟩,
      hwithin.selectBucket _ hempty⟩
  · cases h
    exact ⟨⟨consolidated, hrecent⟩, hrecentWithin⟩

/-! ## The end of a selection -/

/-- The source's order of selected memories, as an order of values. -/
def SelectedMemory.rank (memory : SelectedMemory) : Nat ×ₗ Nat ×ₗ String :=
  toLex (memory.firstSourceSequence.toNat, toLex (memory.lastSourceSequence.toNat, memory.artifactId.text))

theorem chronological_iff {left right : SelectedMemory} :
    chronological left right ↔ left.rank ≤ right.rank := by
  simp only [chronological, SelectedMemory.rank, Prod.Lex.toLex_le_toLex, UInt64.lt_iff_toNat_lt,
    ← UInt64.toNat_inj]

instance : IsTrans SelectedMemory chronological :=
  ⟨fun _ _ _ h₁ h₂ => chronological_iff.mpr ((chronological_iff.mp h₁).trans (chronological_iff.mp h₂))⟩

instance : Std.Total chronological :=
  ⟨fun a b => by simpa only [chronological_iff] using le_total a.rank b.rank⟩

theorem sumReservations_eq {selected : List SelectedMemory} {total : Nat}
    (h : total + (selected.map (·.reservedPromptTokens)).sum < 2 ^ 32) :
    sumReservations selected total = some (total + (selected.map (·.reservedPromptTokens)).sum) := by
  induction selected generalizing total with
  | nil => rfl
  | cons memory rest ih =>
    rw [List.map_cons, List.sum_cons] at h ⊢
    unfold sumReservations
    rw [if_pos (by omega), ih (by omega), Nat.add_assoc]

theorem Within.sum_le {preset : MemoryPreset} {selected : List SelectedMemory}
    (h : Within (MemoryTokenBudget.calculate preset input) selected) :
    (selected.map (·.reservedPromptTokens)).sum ≤
      (MemoryTokenBudget.calculate preset input).totalMemory := by
  have hsum := (calculate_bounded preset input).1
  have hconsolidated := h .consolidated
  have hrecent := h .recent
  have hsimilar := h .similar
  have hrandom := h .random
  simp only [MemoryTokenBudget.ofBucket] at hconsolidated hrecent hsimilar hrandom
  rw [sum_eq_spent]
  omega

theorem finishSelection_ok
    (h : Within (MemoryTokenBudget.calculate binding.preset input) choice.selected) :
    ∃ selection, finishSelection binding input choice = .ok selection ∧
      selection.selected = choice.selected.insertionSort chronological ∧
      selection.reservedPromptTokens = (selection.selected.map (·.reservedPromptTokens)).sum := by
  have hperm := List.perm_insertionSort chronological choice.selected
  have hsum : ((choice.selected.insertionSort chronological).map (·.reservedPromptTokens)).sum =
      (choice.selected.map (·.reservedPromptTokens)).sum := (hperm.map _).sum_eq
  have hle := h.sum_le
  obtain ⟨-, htotal, hcontext⟩ := calculate_bounded binding.preset input
  have hword := input.word
  have hfold : sumReservations (choice.selected.insertionSort chronological) 0 = some (0 +
      ((choice.selected.insertionSort chronological).map (·.reservedPromptTokens)).sum) :=
    sumReservations_eq (by omega)
  simp only [finishSelection, hfold]
  refine ⟨_, except_bind_ok.mpr ⟨⟨⟩, ensure_ok.mpr (by omega), rfl⟩, rfl, ?_⟩
  rw [Nat.zero_add]

/-- The specification of `select_memories`. -/
structure SelectionSpec (binding : MemorySessionBinding) (input : MemoryBudgetInput)
    (candidates : List MemoryCandidate) (selection : MemorySelection) : Prop where
  distinct : (selection.selected.map (·.artifactId)).Nodup
  ordered : selection.selected.Pairwise chronological
  eligible : ∀ memory ∈ selection.selected, ∃ candidate ∈ candidates,
    memory = selectedMemory memory.bucket candidate ∧
      artifactIsEligible binding candidate.artifact = true ∧
      (candidate.artifact.kind = .consolidated ↔ memory.bucket = .consolidated)
  single : ∀ left ∈ selection.selected, ∀ right ∈ selection.selected,
    left.bucket = .consolidated → right.bucket = .consolidated → left = right
  uncovered : ∀ summary ∈ candidates, selectedMemory .consolidated summary ∈ selection.selected →
    ∀ memory ∈ selection.selected, memory.bucket ≠ .consolidated →
      summary.artifact.coversLeaf memory.artifactId = false
  buckets : ∀ bucket, spent bucket selection.selected ≤
    (MemoryTokenBudget.calculate binding.preset input).ofBucket bucket
  reserved : selection.reservedPromptTokens =
    (selection.selected.map (·.reservedPromptTokens)).sum
  total : selection.reservedPromptTokens ≤
    (MemoryTokenBudget.calculate binding.preset input).totalMemory
  remaining : (MemoryTokenBudget.calculate binding.preset input).totalMemory ≤
    input.maxContextTokens - input.maxOutputTokens - input.exactNonMemoryTokens

theorem Origin.kind_iff (h : Origin consolidated candidate bucket) :
    candidate.artifact.kind = .consolidated ↔ bucket = .consolidated := by
  cases h with
  | summary kind chosen => exact ⟨fun _ => rfl, fun _ => kind⟩
  | leaf other kind uncovered =>
    rw [kind]
    exact ⟨fun hkind => (nomatch hkind), fun hbucket => absurd hbucket other⟩

theorem Origin.chosen
    (h : Origin consolidated candidate .consolidated) : consolidated = some candidate := by
  cases h with
  | summary kind chosen => exact chosen
  | leaf other kind uncovered => exact absurd rfl other

theorem Origin.uncovered (h : Origin consolidated candidate bucket)
    (hbucket : bucket ≠ .consolidated) :
    ∀ summary ∈ consolidated, summary.artifact.coversLeaf candidate.artifact.id = false := by
  cases h with
  | summary kind chosen => exact absurd rfl hbucket
  | leaf other kind uncovered => exact uncovered

theorem Chosen.selectionSpec
    {selection : MemorySelection} (hids : (candidates.map (·.artifact.id)).Nodup)
    (h : Chosen (eligibleCandidates binding candidates) consolidated choice.selected)
    (hwithin : Within (MemoryTokenBudget.calculate binding.preset input) choice.selected)
    (hselected : selection.selected = choice.selected.insertionSort chronological)
    (hreserved : selection.reservedPromptTokens =
      (selection.selected.map (·.reservedPromptTokens)).sum) :
    SelectionSpec binding input candidates selection := by
  have hperm : selection.selected.Perm choice.selected :=
    hselected ▸ List.perm_insertionSort chronological choice.selected
  have horigin : ∀ memory ∈ selection.selected, ∃ candidate ∈ candidates,
      artifactIsEligible binding candidate.artifact = true ∧
      memory = selectedMemory memory.bucket candidate ∧ Origin consolidated candidate memory.bucket := by
    intro memory hmem
    obtain ⟨candidate, hcandidate, hmemory, horigin⟩ := h.origin memory (hperm.mem_iff.mp hmem)
    obtain ⟨hcandidate, heligible⟩ := List.mem_filter.mp hcandidate
    exact ⟨candidate, hcandidate, heligible, hmemory, horigin⟩
  have hsum : (selection.selected.map (·.reservedPromptTokens)).sum =
      (choice.selected.map (·.reservedPromptTokens)).sum := (hperm.map _).sum_eq
  constructor
  case distinct => exact (hperm.map _).nodup_iff.mpr h.distinct
  case ordered =>
    rw [hselected]
    exact List.pairwise_insertionSort chronological choice.selected
  case eligible =>
    intro memory hmem
    obtain ⟨candidate, hcandidate, heligible, hmemory, horigin⟩ := horigin memory hmem
    exact ⟨candidate, hcandidate, hmemory, heligible, horigin.kind_iff⟩
  case single =>
    intro left hleft right hright hl hr
    obtain ⟨candidate, -, -, hmemory, hsummary⟩ := horigin left hleft
    obtain ⟨candidate', -, -, hmemory', hsummary'⟩ := horigin right hright
    rw [hl] at hmemory hsummary
    rw [hr] at hmemory' hsummary'
    have hsame : some candidate = some candidate' := hsummary.chosen.symm.trans hsummary'.chosen
    rw [hmemory, hmemory', Option.some.inj hsame]
  case uncovered =>
    intro summary hsummary hselectedSummary memory hmem hbucket
    obtain ⟨candidate, hcandidate, -, hmemory, horiginSummary⟩ := horigin _ hselectedSummary
    -- ids are distinct, so the summary is the one that was chosen
    have hid : summary.artifact.id = candidate.artifact.id := congrArg SelectedMemory.artifactId hmemory
    have hsame : summary = candidate := List.inj_on_of_nodup_map hids hsummary hcandidate hid
    obtain ⟨leaf, -, -, hleaf, horiginLeaf⟩ := horigin memory hmem
    rw [hleaf]
    exact horiginLeaf.uncovered hbucket summary (hsame ▸ Option.mem_def.mpr horiginSummary.chosen)
  case buckets =>
    intro bucket
    rw [spent_perm hperm]
    exact hwithin bucket
  case reserved => exact hreserved
  case total =>
    rw [hreserved, hsum]
    exact hwithin.sum_le
  case remaining =>
    obtain ⟨-, htotal, hcontext⟩ := calculate_bounded binding.preset input
    omega

theorem SelectionSpec.of_selectMemories {P : Prompts π} {chatId : ChatId}
    {cardId : CharacterCardId} {query : AuthoritativeEmbeddingQuery} {selection : MemorySelection}
    (h : selectMemories P binding chatId cardId input query candidates = .ok selection) :
    SelectionSpec binding input candidates selection := by
  obtain ⟨choice, hchoice, h⟩ := except_bind_ok.mp h
  obtain ⟨hids, ⟨consolidated, hchosen⟩, hwithin⟩ := chooseMemories_spec hchoice
  obtain ⟨selection', hok, hselected, hreserved⟩ := finishSelection_ok hwithin
  obtain rfl : selection' = selection := Except.ok.inj (hok.symm.trans h)
  exact hchosen.selectionSpec hids hwithin hselected hreserved

/-- A selection that is not refused before its end is not refused, and meets the
specification. -/
theorem selectMemories_spec (P : Prompts π) (binding : MemorySessionBinding) (chatId : ChatId)
    (cardId : CharacterCardId) (input : MemoryBudgetInput) (query : AuthoritativeEmbeddingQuery)
    (candidates : List MemoryCandidate) :
    (∀ e, selectMemories P binding chatId cardId input query candidates = .error e →
      chooseMemories P binding chatId cardId input query candidates = .error e) ∧
    (∀ selection, selectMemories P binding chatId cardId input query candidates = .ok selection →
      SelectionSpec binding input candidates selection) := by
  constructor
  · intro e h
    obtain h | ⟨choice, hchoice, h⟩ := except_bind_error.mp h
    · exact h
    · obtain ⟨-, -, hwithin⟩ := chooseMemories_spec hchoice
      obtain ⟨selection, hok, -⟩ := finishSelection_ok hwithin
      rw [hok] at h
      cases h
  · intro selection h
    exact .of_selectMemories h

/-! A session with one summary of two leaves, and a third leaf after them. -/

def plainPrompts : Prompts Unit where
  validatePreset _ := .ok ()
  digestPromptPreset _ := Vector.replicate 32 0
  applyResponseTransforms _ text := .ok text
  sha256 _ := Vector.replicate 32 0

theorem revisionOne_ne_zero : (1 : UInt64) ≠ 0 := by decide

def rollingPreset : MemoryPreset where
  id := ⟨"rolling", by decide⟩
  revision := 1
  strategy := .rollingSummary
  promptPreset := ⟨⟨"prompt", by decide⟩, 1, revisionOne_ne_zero⟩
  summary := ⟨"Summarize.", "Summarize again.", 2, false, Nat.zero_lt_two⟩
  insertion := ⟨⟨5000, by decide⟩, ⟨5000, by decide⟩, by decide⟩
  preserveCompactedOrphans := true
  regenerationRegex := .skip

def rollingBinding : MemorySessionBinding where
  chatId := "chat"
  characterCardId := "card"
  memoryGeneration := 1
  preset := rollingPreset
  resolvedSummaryModel := ⟨⟨"model", by decide⟩, 1, revisionOne_ne_zero⟩
  promptPresetDigest := Vector.replicate 32 0

def leafOne : MemoryArtifactId := ⟨"leaf-1", by decide⟩
def leafTwo : MemoryArtifactId := ⟨"leaf-2", by decide⟩
def leafThree : MemoryArtifactId := ⟨"leaf-3", by decide⟩
def summaryOne : MemoryArtifactId := ⟨"summary-1", by decide⟩

def rollingLeaf (id : MemoryArtifactId) (sequence : UInt64) : SummaryArtifact where
  id := id
  revision := 1
  scope := rollingBinding.scope
  kind := .leaf
  firstSourceSequence := sequence
  lastSourceSequence := sequence
  coveredLeafArtifactIds := .single id
  content := "A leaf."
  validity := .attached

def rollingSummary : SummaryArtifact where
  id := summaryOne
  revision := 1
  scope := rollingBinding.scope
  kind := .consolidated
  firstSourceSequence := 1
  lastSourceSequence := 2
  coveredLeafArtifactIds := (IdSet.single leafOne).insert leafTwo
  content := "A summary."
  validity := .attached

def rollingCandidate (artifact : SummaryArtifact) : MemoryCandidate :=
  ⟨artifact, 100, none, by decide, by decide, fun _ h => nomatch h⟩

def rollingCandidates : List MemoryCandidate :=
  [rollingLeaf leafThree 3, rollingLeaf leafOne 1, rollingSummary, rollingLeaf leafTwo 2].map
    rollingCandidate

def rollingInput : MemoryBudgetInput := ⟨1000, 200, 100, by decide, by decide, by decide, by decide⟩

def rollingSelection : MemorySelection where
  chatId := "chat"
  characterCardId := "card"
  memoryGeneration := 1
  memoryPresetId := rollingPreset.id
  memoryPresetRevision := 1
  budgetInput := rollingInput
  querySnapshotDigest := none
  selected := [selectedMemory .consolidated (rollingCandidate rollingSummary),
    selectedMemory .recent (rollingCandidate (rollingLeaf leafThree 3))]
  reservedPromptTokens := 200

theorem selectMemories_spec_rolling :
    selectMemories plainPrompts rollingBinding "chat" "card" rollingInput .rollingSummary
        rollingCandidates = .ok rollingSelection ∧
      SelectionSpec rollingBinding rollingInput rollingCandidates rollingSelection := by
  have h : selectMemories plainPrompts rollingBinding "chat" "card" rollingInput .rollingSummary
      rollingCandidates = .ok rollingSelection := by decide
  exact ⟨h, (selectMemories_spec plainPrompts rollingBinding "chat" "card" rollingInput
    .rollingSummary rollingCandidates).2 rollingSelection h⟩

end Lorepia.Memory
