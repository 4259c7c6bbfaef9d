import Lorepia.Lib.Filter
import Lorepia.Memory.Selection

/-!
# The order of candidates

Each bucket of `select_memories` ranks its candidates by a key that ends in the id of the
artifact, or is a digest of it. Candidates with one id are refused, so no ranking depends on the
order in which they are given (`insertionSort_eq_of_key`).
-/

namespace Lorepia.Memory

variable {π : Type} {candidates : List MemoryCandidate} {binding : MemorySessionBinding} {P : Prompts π} {digest : Digest}

/-! ## Rankings -/

def Distinct (candidates : List MemoryCandidate) : Prop :=
  ∀ a ∈ candidates, ∀ b ∈ candidates, a.artifact.id = b.artifact.id → a = b

theorem distinct_of_nodup
    (h : (candidates.map (·.artifact.id)).Nodup) : Distinct candidates :=
  fun _ ha _ hb hid => List.inj_on_of_nodup_map h ha hb hid

theorem Distinct.filter (h : Distinct candidates)
    (p : MemoryCandidate → Bool) : Distinct (candidates.filter p) :=
  fun a ha b hb => h a (List.mem_of_mem_filter ha) b (List.mem_of_mem_filter hb)

section
variable {candidates candidates' : List MemoryCandidate} (h : Distinct candidates)
  (hperm : candidates.Perm candidates')
include h hperm

theorem latestFirst_sort :
    candidates.insertionSort latestFirst = candidates'.insertionSort latestFirst := by
  refine insertionSort_eq_of_key (fun c : MemoryCandidate =>
    toLex (OrderDual.toDual c.artifact.lastSourceSequence.toNat, c.artifact.id.text)) (fun a b => ?_)
    (fun a ha b hb hkey => h a ha b hb ?_) hperm
  · simp only [latestFirst, Prod.Lex.toLex_le_toLex, OrderDual.toDual_lt_toDual, OrderDual.toDual_inj,
      UInt64.lt_iff_toNat_lt, ← UInt64.toNat_inj, eq_comm]
  · exact OpaqueId.ext (Prod.ext_iff.mp (toLex_inj.mp hkey)).2

theorem mostSimilarFirst_sort :
    candidates.insertionSort mostSimilarFirst = candidates'.insertionSort mostSimilarFirst := by
  refine insertionSort_eq_of_key (fun c : MemoryCandidate =>
    toLex (OrderDual.toDual c.similarity, c.artifact.id.text)) (fun a b => ?_)
    (fun a ha b hb hkey => h a ha b hb ?_) hperm
  · simp only [mostSimilarFirst, Prod.Lex.toLex_le_toLex, OrderDual.toDual_lt_toDual, OrderDual.toDual_inj,
      eq_comm]
  · exact OpaqueId.ext (Prod.ext_iff.mp (toLex_inj.mp hkey)).2

theorem smallestKeyFirst_sort
    (hkeys : ∀ a ∈ candidates, ∀ b ∈ candidates,
      deterministicRandomKey P binding digest a.artifact.id =
        deterministicRandomKey P binding digest b.artifact.id → a.artifact.id = b.artifact.id) :
    candidates.insertionSort (smallestKeyFirst P binding digest) =
      candidates'.insertionSort (smallestKeyFirst P binding digest) := by
  refine insertionSort_eq_of_key (fun c : MemoryCandidate =>
    (deterministicRandomKey P binding digest c.artifact.id).toList.map UInt8.toNat) (fun a b => Iff.rfl)
    (fun a ha b hb hkey => h a ha b hb (hkeys a ha b hb ?_)) hperm
  exact Vector.toList_inj.mp (List.map_injective_iff.mpr (fun _ _ => UInt8.toNat_inj.mp) hkey)

end

/-! ## Checks -/

theorem verifyCandidates_perm {context : QueryContext}
    {candidates' : List MemoryCandidate} (h : candidates.Perm candidates') :
    verifyCandidates binding context candidates [] = .ok () ↔
      verifyCandidates binding context candidates' [] = .ok () := by
  simp only [verifyCandidates_ok, h.mem_iff, (h.map _).nodup_iff]

/-! ## Choices -/

section
variable {candidates candidates' : List MemoryCandidate} (h : Distinct candidates)
  (hperm : candidates.Perm candidates')
include h hperm

theorem chooseConsolidated_perm (budget : MemoryTokenBudget) :
    chooseConsolidated budget candidates = chooseConsolidated budget candidates' := by
  rw [chooseConsolidated, chooseConsolidated, latestFirst_sort (h.filter _) (hperm.filter _)]

theorem selectHybrid_perm
    (hkeys : ∀ a ∈ candidates, ∀ b ∈ candidates,
      deterministicRandomKey P binding digest a.artifact.id =
        deterministicRandomKey P binding digest b.artifact.id → a.artifact.id = b.artifact.id)
    (budget : RetrievalTokenBudget) (selected : List SelectedMemory) :
    selectHybrid P binding digest budget candidates selected =
      selectHybrid P binding digest budget candidates' selected := by
  have hany : candidates.any (fun candidate => candidate.embeddingMatch.isNone) =
      candidates'.any fun candidate => candidate.embeddingMatch.isNone := hperm.any_eq
  rw [selectHybrid, selectHybrid, hany, mostSimilarFirst_sort h hperm, smallestKeyFirst_sort h hperm hkeys]

end

theorem uncoveredLeaves_perm {eligible eligible' : List MemoryCandidate} (hperm : eligible.Perm eligible')
    (consolidated : Option MemoryCandidate) :
    (uncoveredLeaves consolidated eligible).Perm (uncoveredLeaves consolidated eligible') :=
  (hperm.filter _).filter _

theorem chooseMemories_perm {chatId : ChatId}
    {cardId : CharacterCardId} {input : MemoryBudgetInput} {query : AuthoritativeEmbeddingQuery}
    {candidates' : List MemoryCandidate} (hperm : candidates.Perm candidates')
    (hkeys : ∀ digest, ∀ a ∈ candidates, ∀ b ∈ candidates,
      deterministicRandomKey P binding digest a.artifact.id =
        deterministicRandomKey P binding digest b.artifact.id → a.artifact.id = b.artifact.id)
    {choice : Choice} (h : chooseMemories P binding chatId cardId input query candidates = .ok choice) :
    chooseMemories P binding chatId cardId input query candidates' = .ok choice := by
  obtain ⟨_, hscope, h⟩ := except_bind_ok.mp h
  obtain ⟨context, hcontext, h⟩ := except_bind_ok.mp h
  obtain ⟨_, hlength, h⟩ := except_bind_ok.mp h
  obtain ⟨_, hverified, h⟩ := except_bind_ok.mp h
  rw [ensure_ok] at hlength
  dsimp only at h
  refine except_bind_ok.mpr ⟨(), hscope, except_bind_ok.mpr ⟨context, hcontext, ?_⟩⟩
  refine except_bind_ok.mpr ⟨(), ensure_ok.mpr (hperm.length_eq ▸ hlength), ?_⟩
  refine except_bind_ok.mpr ⟨(), (verifyCandidates_perm hperm).mp hverified, ?_⟩
  have hdistinct := distinct_of_nodup (verifyCandidates_ok.mp hverified).2.1
  set budget := MemoryTokenBudget.calculate binding.preset input
  set eligible := candidates.filter fun candidate => artifactIsEligible binding candidate.artifact
  have heligible : eligible.Perm (candidates'.filter fun candidate =>
      artifactIsEligible binding candidate.artifact) := hperm.filter _
  have hdistinctEligible : Distinct eligible := hdistinct.filter _
  have hconsolidated := chooseConsolidated_perm hdistinctEligible heligible budget
  set consolidated := chooseConsolidated budget eligible
  have hleaves := uncoveredLeaves_perm heligible consolidated
  have hdistinctLeaves : Distinct (uncoveredLeaves consolidated eligible) :=
    (hdistinctEligible.filter _).filter _
  have hmem : ∀ leaf ∈ uncoveredLeaves consolidated eligible, leaf ∈ candidates := fun leaf hleaf =>
    List.mem_of_mem_filter (List.mem_of_mem_filter (List.mem_of_mem_filter hleaf))
  simp only [← hconsolidated, ← latestFirst_sort hdistinctLeaves hleaves]
  split at h
  · next digest hstrategy hdigest =>
    rw [selectHybrid_perm hdistinctLeaves hleaves fun a ha b hb =>
      hkeys digest a (hmem a ha) b (hmem b hb)] at h
    simp only [hdigest] at h ⊢
    exact h
  · exact h

/-- Whether memories can be selected, and which, does not depend on the order of the candidates,
provided that the random keys of different artifacts differ. -/
theorem selectMemories_perm (P : Prompts π) (binding : MemorySessionBinding) (chatId : ChatId)
    (cardId : CharacterCardId) (input : MemoryBudgetInput) (query : AuthoritativeEmbeddingQuery)
    (candidates candidates' : List MemoryCandidate) (hperm : candidates.Perm candidates')
    (hkeys : ∀ digest, ∀ a ∈ candidates, ∀ b ∈ candidates,
      deterministicRandomKey P binding digest a.artifact.id =
        deterministicRandomKey P binding digest b.artifact.id → a.artifact.id = b.artifact.id)
    (selection : MemorySelection) :
    selectMemories P binding chatId cardId input query candidates = .ok selection ↔
      selectMemories P binding chatId cardId input query candidates' = .ok selection := by
  have hkeys' : ∀ digest, ∀ a ∈ candidates', ∀ b ∈ candidates',
      deterministicRandomKey P binding digest a.artifact.id =
        deterministicRandomKey P binding digest b.artifact.id → a.artifact.id = b.artifact.id :=
    fun digest a ha b hb => hkeys digest a (hperm.mem_iff.mpr ha) b (hperm.mem_iff.mpr hb)
  constructor
  · intro h
    obtain ⟨choice, hchoice, h⟩ := except_bind_ok.mp h
    exact except_bind_ok.mpr ⟨choice, chooseMemories_perm hperm hkeys hchoice, h⟩
  · intro h
    obtain ⟨choice, hchoice, h⟩ := except_bind_ok.mp h
    exact except_bind_ok.mpr ⟨choice, chooseMemories_perm hperm.symm hkeys' hchoice, h⟩

/-! Two leaves in both orders, with a digest that tells their ids apart. -/

def lastByteKeys : Prompts Unit :=
  { plainPrompts with sha256 := fun bytes => Vector.replicate 32 (bytes.getLast?.getD 0) }

def twoLeaves : List MemoryCandidate := [rollingLeaf leafTwo 2, rollingLeaf leafOne 1].map rollingCandidate

def twoLeavesSelection : MemorySelection :=
  { rollingSelection with
    selected := [selectedMemory .recent (rollingCandidate (rollingLeaf leafOne 1)),
      selectedMemory .recent (rollingCandidate (rollingLeaf leafTwo 2))] }

theorem lastByteKeys_apart (digest : Digest) : ∀ a ∈ twoLeaves, ∀ b ∈ twoLeaves,
    deterministicRandomKey lastByteKeys rollingBinding digest a.artifact.id =
      deterministicRandomKey lastByteKeys rollingBinding digest b.artifact.id →
    a.artifact.id = b.artifact.id := by
  have hkey : ∀ (id : MemoryArtifactId) (last : UInt8), (digestField id.text).getLast? = some last →
      deterministicRandomKey lastByteKeys rollingBinding digest id = Vector.replicate 32 last := by
    intro id last hlast
    simp only [deterministicRandomKey, lastByteKeys, List.getLast?_append, hlast, Option.some_or,
      Option.getD_some]
  have hone := hkey leafOne 0x31 (by decide)
  have htwo := hkey leafTwo 0x32 (by decide)
  have hne : Vector.replicate 32 (0x31 : UInt8) ≠ Vector.replicate 32 0x32 := by decide
  simp only [twoLeaves, List.map_cons, List.map_nil, List.forall_mem_cons, rollingCandidate, rollingLeaf]
  rw [hone, htwo]
  simp [hne, hne.symm]

theorem selectMemories_perm_twoLeaves :
    selectMemories lastByteKeys rollingBinding "chat" "card" rollingInput .rollingSummary twoLeaves.reverse =
      .ok twoLeavesSelection :=
  (selectMemories_perm lastByteKeys rollingBinding "chat" "card" rollingInput .rollingSummary twoLeaves
    twoLeaves.reverse (List.reverse_perm _).symm lastByteKeys_apart twoLeavesSelection).mp (by decide)

end Lorepia.Memory
