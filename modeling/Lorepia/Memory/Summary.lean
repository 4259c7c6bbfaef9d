import Lorepia.Memory.Model

/-!
# Summary jobs (`summary.rs`, `SummaryArtifact::new`)

Messages are summarised in batches, and summaries are summarised again. A job pins what it
was planned from, and the pin is compared with the current source when the job's result
comes back; only a result that passes can become an artifact. An artifact made from messages
covers itself, one made from artifacts covers whatever leaf those cover.
-/

namespace Lorepia.Memory

open Code (bigEndian utf8Bytes)
open Providers (MessageRole isBlank)

variable {π : Type}

/-! ## Messages -/

@[ext]
structure MemorySourceMessage where
  id : MessageId
  chatId : ChatId
  sequence : UInt64
  role : MessageRole
  content : String
  positive : sequence ≠ 0
  spoken : role ≠ .system
  bounded : content.utf8ByteSize ≤ maxSourceMessageBytes
  noNul : '\x00' ∉ content.toList

instance : DecidableEq MemorySourceMessage := fun _ _ =>
  decidable_of_iff' _ MemorySourceMessage.ext_iff

def messageSnapshotDomain : String := "lorepia-memory-message-snapshot-v1"

/-- `update_digest_field`. -/
def digestField (value : String) : List UInt8 := bigEndian 8 value.utf8ByteSize ++ utf8Bytes value

def roleByte : MessageRole → UInt8
  | .system => 0
  | .user => 1
  | .assistant => 2

def digestMessage (P : Prompts π) (message : MemorySourceMessage) : Digest :=
  P.sha256 (utf8Bytes messageSnapshotDomain ++ digestField message.id.text ++
    bigEndian 8 message.sequence.toNat ++ [roleByte message.role] ++ digestField message.content)

def digestMessageSnapshot (P : Prompts π) (messages : List MemorySourceMessage) : Digest :=
  P.sha256 (utf8Bytes messageSnapshotDomain ++ bigEndian 8 messages.length ++
    messages.flatMap fun message => (digestMessage P message).toList)

/-- The loop of `validate_message_snapshot`, with the ids seen and the last sequence. -/
def scanSnapshot (binding : MemorySessionBinding) :
    List MemorySourceMessage → List MessageId → Option UInt64 → Result Unit
  | [], _, _ => .ok ()
  | message :: rest, ids, previousSequence => do
    ensure (message.chatId = binding.chatId)
      (.bindingMismatch "sourceMessage.chatId" binding.chatId message.chatId)
    ensure (message.id ∉ ids) (.duplicateId "messageId" message.id.text)
    ensure (∀ previous ∈ previousSequence, previous < message.sequence)
      (.invalidField "sourceMessages.sequence" "messages must be strictly chronological")
    scanSnapshot binding rest (message.id :: ids) (some message.sequence)

def validateMessageSnapshot (binding : MemorySessionBinding) (messages : List MemorySourceMessage) :
    Result Unit := do
  ensure (messages.length ≤ maxSourceMessages) (.tooManyItems "sourceMessages" maxSourceMessages)
  scanSnapshot binding messages [] none

/-! ## Jobs -/

inductive SummaryJobKind where
  | initial
  | resummary
  deriving DecidableEq

inductive SummaryOutputMode where
  | initialGeneration
  | regeneration
  deriving DecidableEq

/-- Also the shape of `AuthoritativeSummarySource`, the current slice a job is compared with. -/
inductive SummaryJobSource where
  | messages (items : List MemorySourceMessage)
  | artifacts (items : List SummaryArtifact)
  deriving DecidableEq

def SummaryJobSource.isEmpty : SummaryJobSource → Bool
  | messages items => items.isEmpty
  | artifacts items => items.isEmpty

structure MessageSnapshotPin where
  id : MessageId
  sequence : UInt64
  role : MessageRole
  contentDigest : Digest
  deriving DecidableEq

def MessageSnapshotPin.fromMessage (P : Prompts π) (message : MemorySourceMessage) :
    MessageSnapshotPin :=
  ⟨message.id, message.sequence, message.role, digestMessage P message⟩

def MessageSnapshotPin.matches (P : Prompts π) (pin : MessageSnapshotPin)
    (message : MemorySourceMessage) : Bool :=
  decide (pin.id = message.id) && decide (pin.sequence = message.sequence) &&
    decide (pin.role = message.role) && decide (pin.contentDigest = digestMessage P message)

structure SummaryJob where
  scope : Scope
  kind : SummaryJobKind
  instruction : String
  firstSourceSequence : UInt64
  lastSourceSequence : UInt64
  source : SummaryJobSource
  messageSnapshot : List MessageSnapshotPin
  deriving DecidableEq

namespace SummaryJob

def requiresGeneration (job : SummaryJob) : Bool := !job.source.isEmpty

def verifyBinding (job : SummaryJob) (binding : MemorySessionBinding) : Result Unit :=
  ensure (job.scope = binding.scope)
    (.retrievalUnavailable "summary job is outside the active memory session snapshot")

def verifyScopes (binding : MemorySessionBinding) : List SummaryArtifact → Result Unit
  | [] => .ok ()
  | artifact :: rest => do
    verifyArtifactScope "summary artifact is outside the active memory session" binding artifact.scope
    verifyScopes binding rest

def verifyAuthoritativeSource (P : Prompts π) (job : SummaryJob) (binding : MemorySessionBinding)
    (current : SummaryJobSource) : Result Unit :=
  match job.source, current with
  | .messages _, .messages messages => do
    validateMessageSnapshot binding messages
    ensure (messages.length = job.messageSnapshot.length ∧
        (job.messageSnapshot.zip messages).all (fun pair => pair.1.matches P pair.2) = true)
      (.retrievalUnavailable "summary source messages changed after the job was planned")
  | .artifacts planned, .artifacts artifacts => do
    verifyScopes binding artifacts
    ensure (planned = artifacts)
      (.retrievalUnavailable "summary source artifacts changed after the job was planned")
  | _, _ =>
    .error (.retrievalUnavailable "authoritative summary source type differs from the planned job")

end SummaryJob

/-- `validate_batch_bytes`; the sums stay far below `usize::MAX`. -/
def validateBatchBytes (field : String) : List Nat → Nat → Result Nat
  | [], total => .ok total
  | size :: rest, total => do
    ensure (total + size ≤ maxSourceBatchBytes) (.payloadTooLarge field maxSourceBatchBytes)
    validateBatchBytes field rest (total + size)

/-- `slice::chunks`. -/
def chunks {α : Type} (size : Nat) (items : List α) : List (List α) :=
  (List.range ((items.length + size - 1) / size)).map fun i => (items.drop (i * size)).take size

/-- One round of the loop of `plan_initial_summary_jobs`; a chunk is never empty. -/
def planBatch (P : Prompts π) (binding : MemorySessionBinding) (batch : List MemorySourceMessage)
    (plannedBytes : Nat) : Result (SummaryJob × Nat) := do
  let summary := binding.preset.summary
  let source := batch.filter fun message => !summary.skipUserMessages || decide (message.role ≠ .user)
  let batchBytes ← validateBatchBytes "summaryJob.messages"
    (source.map fun message => message.content.utf8ByteSize) 0
  let instruction := if source.isEmpty then "" else summary.summaryPrompt
  let planned := plannedBytes + (batchBytes + instruction.utf8ByteSize)
  ensure (planned ≤ maxSummaryPlanBytes) (.payloadTooLarge "summaryPlan" maxSummaryPlanBytes)
  .ok (
    { scope := binding.scope
      kind := .initial
      instruction
      firstSourceSequence := (batch.head?.map (·.sequence)).getD 0
      lastSourceSequence := (batch.getLast?.map (·.sequence)).getD 0
      source := .messages source
      messageSnapshot := batch.map (MessageSnapshotPin.fromMessage P) }, planned)

def planBatches (P : Prompts π) (binding : MemorySessionBinding) :
    List (List MemorySourceMessage) → Nat → Result (List SummaryJob)
  | [], _ => .ok []
  | batch :: rest, plannedBytes => do
    let (job, planned) ← planBatch P binding batch plannedBytes
    let jobs ← planBatches P binding rest planned
    .ok (job :: jobs)

def planInitialSummaryJobs (P : Prompts π) (binding : MemorySessionBinding) (expectedChatId : ChatId)
    (expectedCharacterCardId : CharacterCardId) (messages : List MemorySourceMessage) :
    Result (List SummaryJob) := do
  binding.verifyScope expectedChatId expectedCharacterCardId
  validateMessageSnapshot binding messages
  planBatches P binding (chunks binding.preset.summary.maxMessagesPerSummary messages) 0

/-- The loop of `plan_resummary_job`. -/
def scanArtifacts (binding : MemorySessionBinding) :
    List SummaryArtifact → List MemoryArtifactId → Option UInt64 → Result Unit
  | [], _, _ => .ok ()
  | artifact :: rest, ids, previousLast => do
    verifyArtifactScope "summary artifact is outside the active memory session" binding artifact.scope
    ensure (artifact.validity.invalidated = false)
      (.invalidField "resummaryArtifacts.validity"
        "invalidated artifacts must never be summarized again")
    ensure (artifact.validity = .sourceCompacted → binding.preset.preserveCompactedOrphans = true)
      (.invalidField "resummaryArtifacts.validity"
        "compacted-source artifacts are disabled by this memory preset")
    ensure (artifact.id ∉ ids) (.duplicateId "memoryArtifactId" artifact.id.text)
    ensure (∀ previous ∈ previousLast, previous < artifact.firstSourceSequence)
      (.invalidField "resummaryArtifacts"
        "artifacts must be strictly chronological and non-overlapping")
    scanArtifacts binding rest (artifact.id :: ids) (some artifact.lastSourceSequence)

def planResummaryJob (binding : MemorySessionBinding) (expectedChatId : ChatId)
    (expectedCharacterCardId : CharacterCardId) (artifacts : List SummaryArtifact) :
    Result SummaryJob := do
  binding.verifyScope expectedChatId expectedCharacterCardId
  ensure (artifacts ≠ []) (.invalidField "resummaryArtifacts" "must contain at least one artifact")
  ensure (artifacts.length ≤ maxSourceMessages) (.tooManyItems "resummaryArtifacts" maxSourceMessages)
  scanArtifacts binding artifacts [] none
  let _ ← validateBatchBytes "resummaryArtifacts"
    (artifacts.map fun artifact => artifact.content.utf8ByteSize) 0
  .ok
    { scope := binding.scope
      kind := .resummary
      instruction := binding.preset.summary.resummaryPrompt
      firstSourceSequence := (artifacts.head?.map (·.firstSourceSequence)).getD 0
      lastSourceSequence := (artifacts.getLast?.map (·.lastSourceSequence)).getD 0
      source := .artifacts artifacts
      messageSnapshot := [] }

/-! ## Results -/

structure ProcessedSummary where
  job : SummaryJob
  content : String

/-- `validate_generated_content` and `validate_artifact_content`, which differ in the field. -/
def validateContent (field content : String) : Result Unit := do
  ensure (isBlank content = false) (.invalidField field "must not be empty")
  ensure (content.utf8ByteSize ≤ maxMemoryArtifactBytes)
    (.payloadTooLarge field maxMemoryArtifactBytes)
  ensure ('\x00' ∉ content.toList) (.invalidField field "must contain no NUL")

def validateGeneratedContent : String → Result Unit := validateContent "generatedSummary"

def validateArtifactContent : String → Result Unit := validateContent "summaryArtifact.content"

def promptResult {α : Type} : Except String α → Result α
  | .ok a => .ok a
  | .error reason => .error (.prompt reason)

def verifyPromptPreset (P : Prompts π) (binding : MemorySessionBinding) (preset : π) : Result Unit := do
  promptResult (P.validatePreset preset)
  ensure (P.digestPromptPreset preset = binding.promptPresetDigest)
    (.retrievalUnavailable "resolved prompt preset content differs from the session snapshot")

structure SummaryOutputCandidate (π : Type) where
  currentSource : SummaryJobSource
  resolvedPrompt : π
  mode : SummaryOutputMode
  rawOutput : String

def SummaryOutputCandidate.transformed (P : Prompts π) (binding : MemorySessionBinding)
    (candidate : SummaryOutputCandidate π) : Result String :=
  match candidate.mode, binding.preset.regenerationRegex with
  | .initialGeneration, _ => .ok candidate.rawOutput
  | .regeneration, .skip => .ok candidate.rawOutput
  | .regeneration, .applyPinnedPromptResponseRules =>
    promptResult (P.applyResponseTransforms candidate.resolvedPrompt candidate.rawOutput)

def processSummaryOutput (P : Prompts π) (binding : MemorySessionBinding) (expectedChatId : ChatId)
    (expectedCharacterCardId : CharacterCardId) (job : SummaryJob)
    (candidate : SummaryOutputCandidate π) : Result ProcessedSummary := do
  binding.verifyScope expectedChatId expectedCharacterCardId
  job.verifyBinding binding
  job.verifyAuthoritativeSource P binding candidate.currentSource
  verifyPromptPreset P binding candidate.resolvedPrompt
  validateGeneratedContent candidate.rawOutput
  let output ← candidate.transformed P binding
  validateGeneratedContent output
  .ok ⟨job, output⟩

def coverLeaves : List MemoryArtifactId → IdSet → Result IdSet
  | [], covered => .ok covered
  | id :: rest, covered => do
    ensure ((covered.insert id).ids.length ≤ maxMemoryCandidates)
      (.tooManyItems "coveredLeafArtifactIds" maxMemoryCandidates)
    coverLeaves rest (covered.insert id)

def coverage (id : MemoryArtifactId) (job : SummaryJob) : Result (SummaryArtifactKind × IdSet) :=
  match job.kind, job.source with
  | .initial, .messages _ => .ok (.leaf, .single id)
  | .resummary, .artifacts artifacts => do
    let covered ← coverLeaves (artifacts.flatMap (·.coveredLeafArtifactIds.ids)) .empty
    ensure (covered.ids ≠ [])
      (.invalidField "coveredLeafArtifactIds" "a consolidated summary must cover at least one leaf")
    .ok (.consolidated, covered)
  | _, _ => .error (.invalidField "summaryJob.source" "summary job kind and source type differ")

def SummaryArtifact.new (binding : MemorySessionBinding) (expectedChatId : ChatId)
    (expectedCharacterCardId : CharacterCardId) (processed : ProcessedSummary)
    (id : MemoryArtifactId) : Result SummaryArtifact := do
  binding.verifyScope expectedChatId expectedCharacterCardId
  processed.job.verifyBinding binding
  ensure (processed.job.requiresGeneration = true)
    (.invalidField "summaryJob.source" "a filtered-empty summary job cannot produce an artifact")
  validateArtifactContent processed.content
  let (kind, coveredLeafArtifactIds) ← coverage id processed.job
  .ok
    { id
      revision := 1
      scope := binding.scope
      kind
      firstSourceSequence := processed.job.firstSourceSequence
      lastSourceSequence := processed.job.lastSourceSequence
      coveredLeafArtifactIds
      content := processed.content
      validity := .attached }

/-! ## What jobs and artifacts are made from -/

theorem mem_coverLeaves {ids : List MemoryArtifactId} {covered covered' : IdSet}
    (h : coverLeaves ids covered = .ok covered') {id : MemoryArtifactId} :
    id ∈ covered'.ids ↔ id ∈ ids ∨ id ∈ covered.ids := by
  induction ids generalizing covered with
  | nil =>
    cases h
    simp
  | cons first rest ih =>
    obtain ⟨_, _, h⟩ := except_bind_ok.mp h
    rw [ih h, List.mem_cons]
    have : id ∈ (covered.insert first).ids ↔ id = first ∨ id ∈ covered.ids := IdSet.mem_insertId
    tauto

variable {binding : MemorySessionBinding} {chatId : ChatId} {cardId : CharacterCardId}
  {P : Prompts π}

theorem scanArtifacts_valid {artifacts : List SummaryArtifact}
    {ids : List MemoryArtifactId} {previous : Option UInt64} {u : Unit}
    (h : scanArtifacts binding artifacts ids previous = .ok u) :
    ∀ artifact ∈ artifacts, artifact.validity.invalidated = false := by
  induction artifacts generalizing ids previous with
  | nil =>
    intro artifact hmem
    cases hmem
  | cons first rest ih =>
    obtain ⟨_, _, h⟩ := except_bind_ok.mp h
    obtain ⟨_, hvalid, h⟩ := except_bind_ok.mp h
    obtain ⟨_, _, h⟩ := except_bind_ok.mp h
    obtain ⟨_, _, h⟩ := except_bind_ok.mp h
    obtain ⟨_, _, h⟩ := except_bind_ok.mp h
    intro artifact hmem
    obtain rfl | hmem := List.mem_cons.mp hmem
    · exact ensure_ok.mp hvalid
    · exact ih h artifact hmem

/-- A job is about messages, or about artifacts that were valid when it was planned. -/
def SummaryJob.Planned (job : SummaryJob) : Prop :=
  match job.kind, job.source with
  | .initial, .messages _ => True
  | .resummary, .artifacts artifacts => ∀ artifact ∈ artifacts, artifact.validity.invalidated = false
  | _, _ => False

theorem planResummaryJob_planned {artifacts : List SummaryArtifact} {job : SummaryJob}
    (h : planResummaryJob binding chatId cardId artifacts = .ok job) : job.Planned := by
  obtain ⟨_, _, h⟩ := except_bind_ok.mp h
  obtain ⟨_, _, h⟩ := except_bind_ok.mp h
  obtain ⟨_, _, h⟩ := except_bind_ok.mp h
  obtain ⟨_, hscan, h⟩ := except_bind_ok.mp h
  obtain ⟨_, _, h⟩ := except_bind_ok.mp h
  cases h
  exact scanArtifacts_valid hscan

theorem planBatches_planned
    {batches : List (List MemorySourceMessage)} {plannedBytes : Nat} {jobs : List SummaryJob}
    (h : planBatches P binding batches plannedBytes = .ok jobs) : ∀ job ∈ jobs, job.Planned := by
  induction batches generalizing plannedBytes jobs with
  | nil =>
    cases h
    intro job hmem
    cases hmem
  | cons batch rest ih =>
    obtain ⟨⟨first, planned⟩, hbatch, h⟩ := except_bind_ok.mp h
    obtain ⟨others, hrest, h⟩ := except_bind_ok.mp h
    cases h
    intro job hmem
    obtain rfl | hmem := List.mem_cons.mp hmem
    · obtain ⟨_, _, hbatch⟩ := except_bind_ok.mp hbatch
      obtain ⟨_, _, hbatch⟩ := except_bind_ok.mp hbatch
      cases hbatch
      trivial
    · exact ih hrest job hmem

theorem planInitialSummaryJobs_planned {messages : List MemorySourceMessage}
    {jobs : List SummaryJob} (h : planInitialSummaryJobs P binding chatId cardId messages = .ok jobs) :
    ∀ job ∈ jobs, job.Planned := by
  obtain ⟨_, _, h⟩ := except_bind_ok.mp h
  obtain ⟨_, _, h⟩ := except_bind_ok.mp h
  exact planBatches_planned h

theorem processSummaryOutput_source {job : SummaryJob} {candidate : SummaryOutputCandidate π}
    {processed : ProcessedSummary}
    (h : processSummaryOutput P binding chatId cardId job candidate = .ok processed) :
    processed.job = job ∧
      ∀ artifacts, job.source = .artifacts artifacts → candidate.currentSource = .artifacts artifacts := by
  obtain ⟨_, _, h⟩ := except_bind_ok.mp h
  obtain ⟨_, _, h⟩ := except_bind_ok.mp h
  obtain ⟨_, hsource, h⟩ := except_bind_ok.mp h
  obtain ⟨_, _, h⟩ := except_bind_ok.mp h
  obtain ⟨_, _, h⟩ := except_bind_ok.mp h
  obtain ⟨_, _, h⟩ := except_bind_ok.mp h
  obtain ⟨_, _, h⟩ := except_bind_ok.mp h
  cases h
  refine ⟨rfl, fun artifacts hjob => ?_⟩
  unfold SummaryJob.verifyAuthoritativeSource at hsource
  rw [hjob] at hsource
  cases hcurrent : candidate.currentSource with
  | messages _ =>
    rw [hcurrent] at hsource
    cases hsource
  | artifacts current =>
    rw [hcurrent] at hsource
    obtain ⟨_, _, hsame⟩ := except_bind_ok.mp hsource
    rw [ensure_ok.mp hsame]

theorem new_covers
    {processed : ProcessedSummary} {id : MemoryArtifactId} {artifact : SummaryArtifact}
    (h : SummaryArtifact.new binding chatId cardId processed id = .ok artifact) :
    artifact.id = id ∧ artifact.validity = .attached ∧
      (artifact.kind = .leaf ∧ artifact.coveredLeafArtifactIds = .single id ∨
        artifact.kind = .consolidated ∧ ∃ sources, processed.job.source = .artifacts sources ∧
          ∀ leaf ∈ artifact.coveredLeafArtifactIds.ids, ∃ source ∈ sources,
            leaf ∈ source.coveredLeafArtifactIds.ids) := by
  obtain ⟨_, _, h⟩ := except_bind_ok.mp h
  obtain ⟨_, _, h⟩ := except_bind_ok.mp h
  obtain ⟨_, _, h⟩ := except_bind_ok.mp h
  obtain ⟨_, _, h⟩ := except_bind_ok.mp h
  obtain ⟨⟨kind, covered⟩, hcoverage, h⟩ := except_bind_ok.mp h
  cases h
  refine ⟨rfl, rfl, ?_⟩
  unfold coverage at hcoverage
  split at hcoverage
  · cases hcoverage
    exact .inl ⟨rfl, rfl⟩
  · next sources _ hsource =>
    obtain ⟨_, hcover, hcoverage⟩ := except_bind_ok.mp hcoverage
    obtain ⟨_, _, hcoverage⟩ := except_bind_ok.mp hcoverage
    cases hcoverage
    refine .inr ⟨rfl, sources, hsource, fun leaf hleaf => ?_⟩
    obtain hleaf | hleaf := (mem_coverLeaves hcover).mp hleaf
    · exact List.mem_flatMap.mp hleaf
    · cases hleaf
  · cases hcoverage

end Lorepia.Memory
