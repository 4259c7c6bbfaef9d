import Lorepia.Memory.Budget
import Lorepia.Memory.Summary

/-!
# Choosing memories for a prompt (`retrieval.rs`)

`select_memories` takes at most one consolidated summary and then fills buckets with leaves
it does not cover, each bucket in its own order and within its own budget: the latest ones,
the ones most similar to the query, and a pseudo-random sample. `materialize` looks the
selection up in the current artifacts and joins their contents.

A query or an embedding match is given as data: where the source compares a field with what
it recomputes, so does the model. The sum of reservations at the end is `u32` arithmetic
(`sumReservations`); everything before it is `chooseMemories`.
-/

namespace Lorepia.Memory

open Code (bigEndian utf8Bytes)

variable {π : Type}

/-! ## Queries and candidates -/

structure EmbeddingQueryPlan where
  scope : Scope
  embeddingProfile : EmbeddingProfileRef
  messages : List MemorySourceMessage
  messageSnapshotDigest : Digest
  deriving DecidableEq

inductive AuthoritativeEmbeddingQuery where
  | rollingSummary
  | hybrid (plan : EmbeddingQueryPlan) (messages : List MemorySourceMessage)
  deriving DecidableEq

structure EmbeddingMatch where
  memoryArtifactId : MemoryArtifactId
  memoryArtifactRevision : Nat
  chatId : ChatId
  characterCardId : CharacterCardId
  memoryGeneration : UInt64
  memoryPresetId : MemoryPresetId
  memoryPresetRevision : UInt64
  embeddingProfile : EmbeddingProfileRef
  queryMessageIds : List MessageId
  querySnapshotDigest : Digest
  score : Int
  deriving DecidableEq

@[ext]
structure MemoryCandidate where
  artifact : SummaryArtifact
  reservedPromptTokens : Nat
  embeddingMatch : Option EmbeddingMatch
  positive : 0 < reservedPromptTokens
  word : reservedPromptTokens < 2 ^ 32
  evidence : ∀ found ∈ embeddingMatch,
    found.memoryArtifactId = artifact.id ∧ found.memoryArtifactRevision = artifact.revision

instance : DecidableEq MemoryCandidate := fun _ _ =>
  decidable_of_iff' _ MemoryCandidate.ext_iff

def MemoryCandidate.new (artifact : SummaryArtifact) (reservedPromptTokens : UInt32)
    (embeddingMatch : Option EmbeddingMatch) : Result MemoryCandidate :=
  if hpositive : 0 < reservedPromptTokens.toNat then
    if hevidence : ∀ found ∈ embeddingMatch,
        found.memoryArtifactId = artifact.id ∧ found.memoryArtifactRevision = artifact.revision then
      .ok ⟨artifact, reservedPromptTokens.toNat, embeddingMatch, hpositive,
        reservedPromptTokens.toNat_lt, hevidence⟩
    else
      .error (.retrievalUnavailable
        "embedding evidence does not belong to the memory artifact revision")
  else .error (.invalidField "memoryCandidate.reservedPromptTokens" "must be at least 1")

def EmbeddingQueryPlan.verifyBinding (plan : EmbeddingQueryPlan) (binding : MemorySessionBinding) :
    Result Unit :=
  match binding.preset.strategy with
  | .rollingSummary => .error (.retrievalUnavailable "rolling-summary mode has no embedding query")
  | .hybridRetrieval policy =>
    ensure (plan.scope = binding.scope ∧ plan.embeddingProfile = policy.embeddingProfile)
      (.retrievalUnavailable "embedding query plan is outside the active memory session snapshot")

def EmbeddingQueryPlan.verifyAuthoritativeMessages (P : Prompts π) (plan : EmbeddingQueryPlan)
    (binding : MemorySessionBinding) (messages : List MemorySourceMessage) : Result Unit := do
  plan.verifyBinding binding
  validateMessageSnapshot binding messages
  ensure (plan.messages = messages ∧ plan.messageSnapshotDigest = digestMessageSnapshot P messages)
    (.retrievalUnavailable "embedding query messages changed after the plan was created")

def checkDistinct (field : String) : List OpaqueId → List OpaqueId → Result Unit
  | [], _ => .ok ()
  | id :: rest, seen => do
    ensure (id ∉ seen) (.duplicateId field id.text)
    checkDistinct field rest (id :: seen)

/-- The ids and the digest of the query's messages. -/
structure QueryContext where
  messageIds : List MessageId
  snapshotDigest : Option Digest
  deriving DecidableEq

def validateQueryContext (P : Prompts π) (binding : MemorySessionBinding) :
    AuthoritativeEmbeddingQuery → Result QueryContext
  | .rollingSummary =>
    match binding.preset.strategy with
    | .rollingSummary => .ok ⟨[], none⟩
    | .hybridRetrieval _ =>
      .error (.retrievalUnavailable "hybrid retrieval requires an authoritative embedding query plan")
  | .hybrid plan messages =>
    match binding.preset.strategy with
    | .rollingSummary =>
      .error (.retrievalUnavailable "rolling-summary mode must not receive an embedding query")
    | .hybridRetrieval _ => do
      plan.verifyAuthoritativeMessages P binding messages
      let messageIds := plan.messages.map (·.id)
      ensure (messageIds.length ≤ maxQueryMessageCount)
        (.tooManyItems "queryMessageIds" maxQueryMessageCount)
      ensure (messageIds ≠ [])
        (.retrievalUnavailable "hybrid retrieval requires a pinned query-message snapshot")
      checkDistinct "queryMessageId" messageIds []
      .ok ⟨messageIds, some plan.messageSnapshotDigest⟩

def verifyEvidence (binding : MemorySessionBinding) (context : QueryContext)
    (artifact : SummaryArtifact) (evidence : EmbeddingMatch) : Result Unit :=
  match binding.preset.strategy with
  | .rollingSummary =>
    .error (.retrievalUnavailable "rolling-summary mode must not consume embedding evidence")
  | .hybridRetrieval policy =>
    ensure (evidence.memoryArtifactId = artifact.id ∧
        evidence.memoryArtifactRevision = artifact.revision ∧
        evidence.chatId = binding.chatId ∧
        evidence.characterCardId = binding.characterCardId ∧
        evidence.memoryGeneration = binding.memoryGeneration ∧
        evidence.memoryPresetId = binding.preset.id ∧
        evidence.memoryPresetRevision = binding.preset.revision ∧
        evidence.embeddingProfile = policy.embeddingProfile ∧
        evidence.queryMessageIds = context.messageIds ∧
        some evidence.querySnapshotDigest = context.snapshotDigest)
      (.retrievalUnavailable "embedding evidence is stale or belongs to another query snapshot")

def verifyCandidateScope (binding : MemorySessionBinding) (context : QueryContext)
    (candidate : MemoryCandidate) : Result Unit := do
  verifyArtifactScope "memory candidate is outside the active session snapshot" binding
    candidate.artifact.scope
  checkSome (verifyEvidence binding context candidate.artifact) candidate.embeddingMatch

def verifyCandidates (binding : MemorySessionBinding) (context : QueryContext) :
    List MemoryCandidate → List MemoryArtifactId → Result Unit
  | [], _ => .ok ()
  | candidate :: rest, ids => do
    verifyCandidateScope binding context candidate
    ensure (candidate.artifact.id ∉ ids) (.duplicateId "memoryArtifactId" candidate.artifact.id.text)
    verifyCandidates binding context rest (candidate.artifact.id :: ids)

/-! ## Selections -/

inductive MemorySelectionBucket where
  | consolidated
  | recent
  | similar
  | random
  deriving DecidableEq

structure SelectedMemory where
  artifactId : MemoryArtifactId
  artifactRevision : Nat
  firstSourceSequence : UInt64
  lastSourceSequence : UInt64
  bucket : MemorySelectionBucket
  reservedPromptTokens : Nat
  deriving DecidableEq

structure MemorySelection where
  chatId : ChatId
  characterCardId : CharacterCardId
  memoryGeneration : UInt64
  memoryPresetId : MemoryPresetId
  memoryPresetRevision : UInt64
  budgetInput : MemoryBudgetInput
  querySnapshotDigest : Option Digest
  selected : List SelectedMemory
  reservedPromptTokens : Nat
  deriving DecidableEq

/-- What `push_selected` pushes. -/
def selectedMemory (bucket : MemorySelectionBucket) (candidate : MemoryCandidate) : SelectedMemory where
  artifactId := candidate.artifact.id
  artifactRevision := candidate.artifact.revision
  firstSourceSequence := candidate.artifact.firstSourceSequence
  lastSourceSequence := candidate.artifact.lastSourceSequence
  bucket := bucket
  reservedPromptTokens := candidate.reservedPromptTokens

/-- The ids already selected are those of `selected`. -/
def selectBucket (ranked : List MemoryCandidate) (tokenBudget : Nat) (bucket : MemorySelectionBucket)
    (selected : List SelectedMemory) : List SelectedMemory :=
  selected ++ (Budget.greedy (·.reservedPromptTokens) (·.artifact.id) ranked tokenBudget
    (selected.map (·.artifactId))).map (selectedMemory bucket)

def latestFirst (left right : MemoryCandidate) : Prop :=
  right.artifact.lastSourceSequence < left.artifact.lastSourceSequence ∨
    right.artifact.lastSourceSequence = left.artifact.lastSourceSequence ∧
      left.artifact.id.text ≤ right.artifact.id.text

instance : DecidableRel latestFirst := fun left right => by
  unfold latestFirst
  infer_instance

def MemoryCandidate.similarity (candidate : MemoryCandidate) : Int :=
  (candidate.embeddingMatch.map (·.score)).getD 0

def mostSimilarFirst (left right : MemoryCandidate) : Prop :=
  right.similarity < left.similarity ∨
    right.similarity = left.similarity ∧ left.artifact.id.text ≤ right.artifact.id.text

instance : DecidableRel mostSimilarFirst := fun left right => by
  unfold mostSimilarFirst
  infer_instance

def deterministicRandomKey (P : Prompts π) (binding : MemorySessionBinding) (snapshotDigest : Digest)
    (id : MemoryArtifactId) : Digest :=
  P.sha256 (utf8Bytes "lorepia-memory-random-order-v1" ++ digestField binding.chatId ++
    bigEndian 8 binding.memoryGeneration.toNat ++ snapshotDigest.toList ++ digestField id.text)

def smallestKeyFirst (P : Prompts π) (binding : MemorySessionBinding) (snapshotDigest : Digest)
    (left right : MemoryCandidate) : Prop :=
  (deterministicRandomKey P binding snapshotDigest left.artifact.id).toList.map UInt8.toNat ≤
    (deterministicRandomKey P binding snapshotDigest right.artifact.id).toList.map UInt8.toNat

instance (P : Prompts π) (binding : MemorySessionBinding) (snapshotDigest : Digest) :
    DecidableRel (smallestKeyFirst P binding snapshotDigest) := fun left right => by
  unfold smallestKeyFirst
  infer_instance

def chronological (left right : SelectedMemory) : Prop :=
  left.firstSourceSequence < right.firstSourceSequence ∨
    left.firstSourceSequence = right.firstSourceSequence ∧
      (left.lastSourceSequence < right.lastSourceSequence ∨
        left.lastSourceSequence = right.lastSourceSequence ∧ left.artifactId.text ≤ right.artifactId.text)

instance : DecidableRel chronological := fun left right => by
  unfold chronological
  infer_instance

def chooseConsolidated (budget : MemoryTokenBudget) (eligible : List MemoryCandidate) :
    Option MemoryCandidate :=
  ((eligible.filter fun candidate => decide (candidate.artifact.kind = .consolidated ∧
    candidate.reservedPromptTokens ≤ budget.consolidatedSummary)).insertionSort latestFirst).head?

def uncoveredLeaves (consolidated : Option MemoryCandidate) (eligible : List MemoryCandidate) :
    List MemoryCandidate :=
  (eligible.filter fun candidate => decide (candidate.artifact.kind = .leaf)).filter fun candidate =>
    consolidated.all fun summary => !summary.artifact.coversLeaf candidate.artifact.id

def selectHybrid (P : Prompts π) (binding : MemorySessionBinding) (snapshotDigest : Digest)
    (budget : RetrievalTokenBudget) (leaves : List MemoryCandidate) (selected : List SelectedMemory) :
    Result (List SelectedMemory) := do
  ensure (¬ (0 < budget.similar ∧ leaves.any (fun candidate => candidate.embeddingMatch.isNone) = true))
    (.retrievalUnavailable "hybrid retrieval requires a similarity score for every eligible leaf")
  let selected := if 0 < budget.similar then
      selectBucket (leaves.insertionSort mostSimilarFirst) budget.similar .similar selected
    else selected
  .ok (selectBucket (leaves.insertionSort (smallestKeyFirst P binding snapshotDigest)) budget.random
    .random selected)

structure Choice where
  querySnapshotDigest : Option Digest
  selected : List SelectedMemory

/-- `select_memories` up to the final sort. -/
def chooseMemories (P : Prompts π) (binding : MemorySessionBinding) (expectedChatId : ChatId)
    (expectedCharacterCardId : CharacterCardId) (budgetInput : MemoryBudgetInput)
    (query : AuthoritativeEmbeddingQuery) (candidates : List MemoryCandidate) : Result Choice := do
  binding.verifyScope expectedChatId expectedCharacterCardId
  let budget := MemoryTokenBudget.calculate binding.preset budgetInput
  let context ← validateQueryContext P binding query
  ensure (candidates.length ≤ maxMemoryCandidates) (.tooManyItems "memoryCandidates" maxMemoryCandidates)
  verifyCandidates binding context candidates []
  let eligible := candidates.filter fun candidate => artifactIsEligible binding candidate.artifact
  let consolidated := chooseConsolidated budget eligible
  let leaves := uncoveredLeaves consolidated eligible
  let selected := selectBucket (leaves.insertionSort latestFirst) budget.retrieval.recent .recent
    (consolidated.map (selectedMemory .consolidated)).toList
  match binding.preset.strategy, context.snapshotDigest with
  | .hybridRetrieval _, some snapshotDigest => do
    let selected ← selectHybrid P binding snapshotDigest budget.retrieval leaves selected
    .ok ⟨context.snapshotDigest, selected⟩
  -- a query that hybrid retrieval accepts always has a snapshot
  | _, _ => .ok ⟨context.snapshotDigest, selected⟩

/-- `try_fold(0u32, u32::checked_add)`. -/
def sumReservations : List SelectedMemory → Nat → Option Nat
  | [], total => some total
  | memory :: rest, total =>
    if total + memory.reservedPromptTokens < 2 ^ 32 then
      sumReservations rest (total + memory.reservedPromptTokens)
    else none

/-- The end of `select_memories`. -/
def finishSelection (binding : MemorySessionBinding) (budgetInput : MemoryBudgetInput) (choice : Choice) :
    Result MemorySelection :=
  let selected := choice.selected.insertionSort chronological
  match sumReservations selected 0 with
  | none => .error (.invalidField "memorySelection" "token reservation overflowed")
  | some reservedPromptTokens => do
    ensure (reservedPromptTokens ≤ (MemoryTokenBudget.calculate binding.preset budgetInput).totalMemory)
      (.invalidField "memorySelection" "selected reservations exceed the total memory budget")
    .ok
      { chatId := binding.chatId
        characterCardId := binding.characterCardId
        memoryGeneration := binding.memoryGeneration
        memoryPresetId := binding.preset.id
        memoryPresetRevision := binding.preset.revision
        budgetInput
        querySnapshotDigest := choice.querySnapshotDigest
        selected
        reservedPromptTokens }

def selectMemories (P : Prompts π) (binding : MemorySessionBinding) (expectedChatId : ChatId)
    (expectedCharacterCardId : CharacterCardId) (budgetInput : MemoryBudgetInput)
    (query : AuthoritativeEmbeddingQuery) (candidates : List MemoryCandidate) :
    Result MemorySelection := do
  let choice ← chooseMemories P binding expectedChatId expectedCharacterCardId budgetInput query candidates
  finishSelection binding budgetInput choice

/-! ## Materialisation -/

def MemorySelection.verifyApplicationContext (P : Prompts π) (selection : MemorySelection)
    (binding : MemorySessionBinding) (expectedChatId : ChatId)
    (expectedCharacterCardId : CharacterCardId) (expectedBudgetInput : MemoryBudgetInput)
    (query : AuthoritativeEmbeddingQuery) : Result Unit := do
  binding.verifyScope expectedChatId expectedCharacterCardId
  let context ← validateQueryContext P binding query
  ensure (selection.chatId = binding.chatId ∧
      selection.characterCardId = binding.characterCardId ∧
      selection.memoryGeneration = binding.memoryGeneration ∧
      selection.memoryPresetId = binding.preset.id ∧
      selection.memoryPresetRevision = binding.preset.revision ∧
      selection.budgetInput = expectedBudgetInput ∧
      selection.querySnapshotDigest = context.snapshotDigest)
    (.retrievalUnavailable "memory selection is outside the active session snapshot")

/-- The second loop of `materialize_current_artifacts`, with the bytes of the output so far.
The source adds the separator's bytes before every item but the first. -/
def resolveSelected (binding : MemorySessionBinding) (current : List SummaryArtifact) :
    List SelectedMemory → Bool → Nat → Result (List SummaryArtifact)
  | [], _, _ => .ok []
  | memory :: rest, first, outputBytes =>
    match current.find? (fun artifact => decide (artifact.id = memory.artifactId)) with
    | none =>
      .error (.retrievalUnavailable
        "a selected artifact is absent from the current authoritative snapshot")
    | some artifact => do
      verifyArtifactScope "memory candidate is outside the active session snapshot" binding artifact.scope
      ensure (artifact.revision = memory.artifactRevision ∧
          artifact.firstSourceSequence = memory.firstSourceSequence ∧
          artifact.lastSourceSequence = memory.lastSourceSequence ∧
          artifactIsEligible binding artifact = true)
        (.retrievalUnavailable
          "a selected artifact changed or was invalidated before prompt application")
      let bytes := outputBytes + (if first then 0 else 2) + artifact.content.utf8ByteSize
      ensure (bytes ≤ maxLongTermMemoryInputBytes)
        (.payloadTooLarge "longTermMemory" maxLongTermMemoryInputBytes)
      let resolved ← resolveSelected binding current rest false bytes
      .ok (artifact :: resolved)

def materializeCurrentArtifacts (binding : MemorySessionBinding) (selected : List SelectedMemory)
    (currentArtifacts : List SummaryArtifact) : Result String := do
  ensure (currentArtifacts.length ≤ maxMemoryCandidates)
    (.tooManyItems "currentMemoryArtifacts" maxMemoryCandidates)
  checkDistinct "currentMemoryArtifactId" (currentArtifacts.map (·.id)) []
  let resolved ← resolveSelected binding currentArtifacts selected true 0
  let output := "\n\n".intercalate (resolved.map (·.content))
  ensure ('\x00' ∉ output.toList) (.invalidField "longTermMemory" "must contain no NUL")
  .ok output

def MemorySelection.materialize (P : Prompts π) (selection : MemorySelection)
    (binding : MemorySessionBinding) (expectedChatId : ChatId)
    (expectedCharacterCardId : CharacterCardId) (expectedBudgetInput : MemoryBudgetInput)
    (query : AuthoritativeEmbeddingQuery) (currentArtifacts : List SummaryArtifact) :
    Result String := do
  selection.verifyApplicationContext P binding expectedChatId expectedCharacterCardId
    expectedBudgetInput query
  materializeCurrentArtifacts binding selection.selected currentArtifacts

end Lorepia.Memory
