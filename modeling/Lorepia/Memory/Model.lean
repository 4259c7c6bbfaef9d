import Mathlib
import Lorepia.Lib.Budget
import Lorepia.Lib.Code
import Lorepia.Providers.Validate

/-!
# Memory presets, sessions and artifacts (`config.rs`, `session.rs`, `artifact.rs`)

A memory session is bound to a chat, a character card and one revision of a memory preset.
Everything that is made in a session carries that binding: the fields that tie an artifact,
a job or a query plan to it are one record here (`Scope`), since the source always compares
them together.

Values whose constructors check something carry the check as a field. The prompt crate is a
parameter (`Prompts`): the memory crate only validates a prompt preset, digests it, and asks
for a text to be transformed.
-/

namespace Lorepia.Memory

open Providers (MessageRole isBlank)

def basisPointsScale : Nat := 10000
def maxSourceMessages : Nat := 4096
def maxSourceMessageBytes : Nat := 256 * 1024
def maxSourceBatchBytes : Nat := 4 * 1024 * 1024
def maxSummaryPlanBytes : Nat := 16 * 1024 * 1024
def maxMemoryArtifactBytes : Nat := 256 * 1024
def maxMemoryCandidates : Nat := 4096
def maxQueryMessageCount : Nat := 128
def maxLongTermMemoryInputBytes : Nat := 1024 * 1024

/-! ## Errors -/

inductive MemoryError where
  | invalidField (field reason : String)
  | tooManyItems (field : String) (max : Nat)
  | payloadTooLarge (field : String) (maxBytes : Nat)
  | bindingMismatch (field expected actual : String)
  | duplicateId (field id : String)
  | retrievalUnavailable (reason : String)
  | revisionOverflow
  | prompt (reason : String)
  deriving DecidableEq

abbrev Result := Except MemoryError

/-! ## Identifiers -/

def isOpaqueIdChar (c : Char) : Bool := c.isAlphanum || c = '-' || c = '_' || c = '.'

/-- `validate_id` is the only way to an identifier, so its checks are a field. -/
structure OpaqueId where
  text : String
  valid : text ≠ "" ∧ text.utf8ByteSize ≤ 128 ∧ ¬ ['.', '.'] <:+: text.toList ∧
    text.toList.all isOpaqueIdChar = true
  deriving DecidableEq

theorem OpaqueId.ext {a b : OpaqueId} (h : a.text = b.text) : a = b := by
  cases a
  cases b
  cases h
  rfl

abbrev MemoryPresetId := OpaqueId
abbrev MemoryArtifactId := OpaqueId
abbrev MessageId := OpaqueId

/-- A reference to one revision. -/
structure VersionedRef where
  id : OpaqueId
  revision : UInt64
  positive : revision ≠ 0
  deriving DecidableEq

abbrev PromptPresetRef := VersionedRef
abbrev ModelPresetRef := VersionedRef
abbrev EmbeddingProfileRef := VersionedRef

abbrev ChatId := String
abbrev CharacterCardId := String
abbrev Digest := Vector UInt8 32

/-! ## Presets -/

structure BasisPoints where
  get : Nat
  bounded : get ≤ basisPointsScale
  deriving DecidableEq

structure MemoryMix where
  recent : BasisPoints
  similar : BasisPoints
  random : BasisPoints
  exact : recent.get + similar.get + random.get = basisPointsScale
  deriving DecidableEq

inductive EmbeddingQueryScope where
  | conversation
  | assistantOnly
  deriving DecidableEq

inductive RegenerationRegexPolicy where
  | skip
  | applyPinnedPromptResponseRules
  deriving DecidableEq

structure SummaryPolicy where
  summaryPrompt : String
  resummaryPrompt : String
  maxMessagesPerSummary : Nat
  skipUserMessages : Bool
  batches : 0 < maxMessagesPerSummary
  deriving DecidableEq

structure InsertionPolicy where
  memoryBudget : BasisPoints
  additionalDetailBudget : BasisPoints
  positive : 0 < memoryBudget.get
  deriving DecidableEq

structure HybridRetrievalPolicy where
  queryMessageCount : Nat
  queryScope : EmbeddingQueryScope
  selectionMix : MemoryMix
  embeddingProfile : EmbeddingProfileRef
  counted : 0 < queryMessageCount ∧ queryMessageCount ≤ maxQueryMessageCount
  compared : 0 < selectionMix.similar.get
  deriving DecidableEq

inductive MemoryStrategy where
  | rollingSummary
  | hybridRetrieval (policy : HybridRetrievalPolicy)
  deriving DecidableEq

structure MemoryPreset where
  id : MemoryPresetId
  revision : UInt64
  strategy : MemoryStrategy
  promptPreset : PromptPresetRef
  summary : SummaryPolicy
  insertion : InsertionPolicy
  preserveCompactedOrphans : Bool
  regenerationRegex : RegenerationRegexPolicy
  deriving DecidableEq

/-! ## Sessions -/

/-- What ties a value to a session. -/
structure Scope where
  chatId : ChatId
  characterCardId : CharacterCardId
  memoryGeneration : UInt64
  memoryPresetId : MemoryPresetId
  memoryPresetRevision : UInt64
  promptPreset : PromptPresetRef
  summaryModel : ModelPresetRef
  deriving DecidableEq

structure MemorySessionBinding where
  chatId : ChatId
  characterCardId : CharacterCardId
  memoryGeneration : UInt64
  preset : MemoryPreset
  resolvedSummaryModel : ModelPresetRef
  promptPresetDigest : Digest
  deriving DecidableEq

namespace MemorySessionBinding

def scope (binding : MemorySessionBinding) : Scope where
  chatId := binding.chatId
  characterCardId := binding.characterCardId
  memoryGeneration := binding.memoryGeneration
  memoryPresetId := binding.preset.id
  memoryPresetRevision := binding.preset.revision
  promptPreset := binding.preset.promptPreset
  summaryModel := binding.resolvedSummaryModel

def verifyScope (binding : MemorySessionBinding) (expectedChatId : ChatId)
    (expectedCharacterCardId : CharacterCardId) : Result Unit := do
  ensure (binding.chatId = expectedChatId) (.bindingMismatch "chatId" expectedChatId binding.chatId)
  ensure (binding.characterCardId = expectedCharacterCardId)
    (.bindingMismatch "characterCardId" expectedCharacterCardId binding.characterCardId)

end MemorySessionBinding

/-- `verify_artifact_scope`, which differs in its text between the summaries and the retrieval. -/
def verifyArtifactScope (reason : String) (binding : MemorySessionBinding) (scope : Scope) :
    Result Unit :=
  ensure (scope = binding.scope) (.retrievalUnavailable reason)

/-- What the memory crate uses of the prompt crate and of SHA-256, for prompt presets `π`. -/
structure Prompts (π : Type) where
  validatePreset : π → Except String Unit
  digestPromptPreset : π → Digest
  applyResponseTransforms : π → String → Except String String
  sha256 : List UInt8 → Digest

/-! ## Artifacts -/

inductive SummaryArtifactKind where
  | leaf
  | consolidated
  deriving DecidableEq

inductive MemoryValidity where
  | attached
  | sourceCompacted
  | invalidatedByEdit
  | invalidatedByDeletion
  deriving DecidableEq

def MemoryValidity.invalidated : MemoryValidity → Bool
  | attached | sourceCompacted => false
  | invalidatedByEdit | invalidatedByDeletion => true

/-- The ids of a `BTreeSet`, in their order and each once. -/
structure IdSet where
  ids : List MemoryArtifactId
  sorted : ids.Pairwise fun a b => a.text < b.text
  deriving DecidableEq

namespace IdSet

def insertId (id : MemoryArtifactId) : List MemoryArtifactId → List MemoryArtifactId
  | [] => [id]
  | first :: rest =>
    if id.text < first.text then id :: first :: rest
    else if first.text < id.text then first :: insertId id rest
    else first :: rest

theorem mem_insertId {id a : MemoryArtifactId} {ids : List MemoryArtifactId} :
    a ∈ insertId id ids ↔ a = id ∨ a ∈ ids := by
  induction ids with
  | nil => simp [insertId]
  | cons first rest ih =>
    unfold insertId
    split
    · exact List.mem_cons
    · next hlt =>
      split
      · rw [List.mem_cons, ih, List.mem_cons]
        tauto
      · next hgt =>
        have heq : id = first := OpaqueId.ext (le_antisymm (not_lt.mp hgt) (not_lt.mp hlt))
        rw [heq, List.mem_cons]
        tauto

theorem sorted_insertId (id : MemoryArtifactId) {ids : List MemoryArtifactId}
    (h : ids.Pairwise fun a b => a.text < b.text) :
    (insertId id ids).Pairwise fun a b => a.text < b.text := by
  induction ids with
  | nil => exact List.pairwise_singleton _ _
  | cons first rest ih =>
    obtain ⟨hfirst, hrest⟩ := List.pairwise_cons.mp h
    unfold insertId
    split
    · next hlt =>
      refine List.pairwise_cons.mpr ⟨fun a ha => ?_, h⟩
      obtain rfl | ha := List.mem_cons.mp ha
      · exact hlt
      · exact lt_trans hlt (hfirst a ha)
    · split
      · next hgt =>
        refine List.pairwise_cons.mpr ⟨fun a ha => ?_, ih hrest⟩
        obtain rfl | ha := mem_insertId.mp ha
        · exact hgt
        · exact hfirst a ha
      · exact h

def empty : IdSet := ⟨[], .nil⟩

def single (id : MemoryArtifactId) : IdSet := ⟨[id], List.pairwise_singleton _ _⟩

def insert (set : IdSet) (id : MemoryArtifactId) : IdSet :=
  ⟨insertId id set.ids, sorted_insertId id set.sorted⟩

end IdSet

structure SummaryArtifact where
  id : MemoryArtifactId
  revision : Nat
  scope : Scope
  kind : SummaryArtifactKind
  firstSourceSequence : UInt64
  lastSourceSequence : UInt64
  coveredLeafArtifactIds : IdSet
  content : String
  validity : MemoryValidity
  deriving DecidableEq

namespace SummaryArtifact

/-- `covers_leaf`, a binary search in the sorted list. -/
def coversLeaf (artifact : SummaryArtifact) (id : MemoryArtifactId) : Bool :=
  decide (id ∈ artifact.coveredLeafArtifactIds.ids)

def sourceCompacted (artifact : SummaryArtifact) : SummaryArtifact :=
  if artifact.validity = .attached then { artifact with validity := .sourceCompacted } else artifact

def invalidatedBy (reason : MemoryValidity) (artifact : SummaryArtifact) : Result SummaryArtifact := do
  ensure (artifact.revision + 1 < 2 ^ 64) .revisionOverflow
  .ok { artifact with revision := artifact.revision + 1, validity := reason, content := "" }

def invalidatedByEdit : SummaryArtifact → Result SummaryArtifact := invalidatedBy .invalidatedByEdit

def invalidatedByDeletion : SummaryArtifact → Result SummaryArtifact :=
  invalidatedBy .invalidatedByDeletion

end SummaryArtifact

def artifactIsEligible (binding : MemorySessionBinding) (artifact : SummaryArtifact) : Bool :=
  match artifact.validity with
  | .attached => true
  | .sourceCompacted => binding.preset.preserveCompactedOrphans
  | .invalidatedByEdit | .invalidatedByDeletion => false

theorem invalidated_of_eligible {binding : MemorySessionBinding} {artifact : SummaryArtifact}
    (h : artifactIsEligible binding artifact = true) : artifact.validity.invalidated = false := by
  unfold artifactIsEligible at h
  cases hvalidity : artifact.validity with
  | attached => rfl
  | sourceCompacted => rfl
  | invalidatedByEdit =>
    rw [hvalidity] at h
    cases h
  | invalidatedByDeletion =>
    rw [hvalidity] at h
    cases h

end Lorepia.Memory
