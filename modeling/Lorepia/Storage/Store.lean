import Mathlib
import Lorepia.Lib.Runs
import Lorepia.Storage.Schema

/-!
# The operations of the store (`store.rs`, `migration.rs`)

Each public operation of `Store` that writes one of the four tables, as the
transaction it runs: the checks in the source's order, the queries, and the
statements of `Schema.lean`. Identifiers drawn with `Uuid::new_v4` are parameters.

Three things are not represented. A column is a `Nat`, so the negative branches of
`decode_u64` are not; `i64::try_from` after `encode_u64`'s own range check cannot
fail; and opening a connection (`Store::connection`) succeeds or the operation
does not start.
-/

namespace Lorepia.Storage

/-! ## Scalars (store.rs:2615–2686) -/

/-- `i64::checked_add`. -/
def checkedAddI64 (a b : Nat) : Option Nat := if a + b < 2 ^ 63 then some (a + b) else none

/-- `u64::checked_add`. -/
def checkedAddU64 (a b : Nat) : Option Nat := if a + b < 2 ^ 64 then some (a + b) else none

def encodeU64 (value : Nat) (field : String) : Except StorageError Nat := do
  ensure (value ≤ maxSafeInteger) (.invalidInput field "exceeds the safe integer range")
  pure value

/-- The reason `decode_u64` gives for a number above the safe range. -/
def integerRangeReason : String := "numeric value exceeds the safe integer range"

def decodeU64 (value : Nat) : Except StorageError Nat := do
  ensure (value ≤ maxSafeInteger) (.incompatibleSchema integerRangeReason)
  pure value

def encodeUsage (usage : TokenUsage) : Except StorageError TokenUsage := do
  let inputTokens ← encodeU64 usage.inputTokens "input token usage"
  let outputTokens ← encodeU64 usage.outputTokens "output token usage"
  let cachedInputTokens ← encodeU64 usage.cachedInputTokens "cached input token usage"
  let reasoningTokens ← encodeU64 usage.reasoningTokens "reasoning token usage"
  pure { inputTokens, outputTokens, cachedInputTokens, reasoningTokens }

def decodeUsage (usage : TokenUsage) : Except StorageError TokenUsage := do
  let inputTokens ← decodeU64 usage.inputTokens
  let outputTokens ← decodeU64 usage.outputTokens
  let cachedInputTokens ← decodeU64 usage.cachedInputTokens
  let reasoningTokens ← decodeU64 usage.reasoningTokens
  pure { inputTokens, outputTokens, cachedInputTokens, reasoningTokens }

/-! ## Checks of arguments (store.rs:2112–2180, 2411–2558) -/

def validateChatTitle (title : String) : Except StorageError Unit := do
  ensure (title.utf8ByteSize ≤ maxChatTitleBytes)
    (.invalidInput "chat title" "exceeds the byte limit")
  ensure (containsNul title = false) (.invalidInput "chat title" "contains a null character")

def validateUserMessage (content : String) : Except StorageError Unit := do
  -- `content.trim().is_empty()`
  ensure (content.toList.all isWhitespace = false)
    (.invalidInput "user message" "must not be blank")
  ensure (content.utf8ByteSize ≤ maxUserMessageBytes)
    (.invalidInput "user message" "exceeds the byte limit")
  ensure (containsNul content = false) (.invalidInput "user message" "contains a null character")

def validateCompleteMessage (role : MessageRole) (text : String) : Except StorageError Unit :=
  match role with
  | .user => validateUserMessage text
  | .assistant => do
    ensure (text.utf8ByteSize ≤ maxMessageBytes)
      (.invalidInput "assistant message" "exceeds the byte limit")
    ensure (containsNul text = false)
      (.invalidInput "assistant message" "contains a null character")

def validateBranchDepth (depth : Nat) : Except StorageError Unit :=
  ensure (depth ≤ maxBranchDepth) (.invalidInput "message depth" "exceeds the branch depth limit")

/-- `validate_persisted_text`, with the reason its field selects. -/
def validatePersistedText (value : String) (maxBytes : Nat) (reason : String) :
    Except StorageError Unit :=
  ensure (value.utf8ByteSize ≤ maxBytes ∧ containsNul value = false) (.incompatibleSchema reason)

def validateResponseId (responseId : String) : Except StorageError Unit := do
  ensure (responseId.isEmpty = false ∧ responseId.utf8ByteSize ≤ maxProviderResponseIdBytes)
    (.invalidInput "provider response ID" "has an invalid byte length")
  ensure (responseId.toList.any isControl = false)
    (.invalidInput "provider response ID" "contains a control character")

def validateCheckpoint (checkpoint : ResponseCheckpoint) : Except StorageError Unit := do
  ensure (checkpoint.expectedLastDurableSeq < checkpoint.throughSeq)
    (.invalidInput "checkpoint sequence" "must advance beyond the expected sequence")
  let _ ← encodeU64 checkpoint.expectedLastDurableSeq "durable sequence"
  let _ ← encodeU64 checkpoint.throughSeq "durable sequence"
  ensure (checkpoint.appendedText.utf8ByteSize ≤ maxCheckpointBytes)
    (.invalidInput "checkpoint text" "exceeds the byte limit")
  ensure (containsNul checkpoint.appendedText = false)
    (.invalidInput "checkpoint text" "contains a null character")
  checkSome validateResponseId checkpoint.providerResponseId
  checkSome encodeUsage checkpoint.usage

def validateDeliveryCheckpoint (checkpoint : DeliveryCheckpoint) : Except StorageError Unit := do
  let _ ← encodeU64 checkpoint.expectedLastDeliveredSeq "delivered sequence"
  let _ ← encodeU64 checkpoint.throughSeq "delivered sequence"
  -- `checked_add` cannot overflow here: `encode_u64` has bounded its argument
  ensure (checkpoint.throughSeq = checkpoint.expectedLastDeliveredSeq + 1)
    (.invalidInput "delivered sequence" "must advance by exactly one contiguous sequence")

def validateAckedSequence (sequence : Nat) : Except StorageError Unit := do
  ensure (sequence ≠ 0)
    (.invalidInput "acknowledged sequence" "zero is represented by no acknowledgement")
  let _ ← encodeU64 sequence "acknowledged sequence"
  pure ()

def validateCumulativeAck (acknowledgement : CumulativeAck) : Except StorageError Unit := do
  checkSome validateAckedSequence acknowledgement.expectedLastAckedSeq
  let _ ← encodeU64 acknowledgement.throughSeq "acknowledged sequence"
  ensure (acknowledgement.expectedLastAckedSeq.getD 0 < acknowledgement.throughSeq)
    (.invalidInput "acknowledged sequence"
      "must cumulatively advance beyond the previous acknowledgement")

def ensureStreamOwned (state : RequestState) (ownerLabel : StreamOwnerLabel)
    (streamGeneration : StreamGeneration) : Except StorageError Unit :=
  ensure (state.ownerLabel = ownerLabel ∧ state.streamGeneration = streamGeneration)
    (.conflict "stream identity")

def ensureRunningAndOwned (state : RequestState) (ownerLabel : StreamOwnerLabel)
    (streamGeneration : StreamGeneration) : Except StorageError Unit := do
  ensure (state.status = .running)
    (.invalidState RequestStatus.running.asStr state.status.asStr)
  ensureStreamOwned state ownerLabel streamGeneration

def responseIdChanged (existing candidate : Option String) : Bool :=
  match existing, candidate with
  | some a, some b => a != b
  | _, _ => false

/-- Some count of `candidate` is below that of `existing`. -/
def usageDecreased (existing candidate : Option TokenUsage) : Bool :=
  match existing, candidate with
  | some a, some b =>
    decide (b.inputTokens < a.inputTokens) || decide (b.outputTokens < a.outputTokens) ||
      decide (b.cachedInputTokens < a.cachedInputTokens) ||
      decide (b.reasoningTokens < a.reasoningTokens)
  | _, _ => false

def validateResponseMetadata (state : RequestState) (checkpoint : ResponseCheckpoint) :
    Except StorageError Unit := do
  ensure (responseIdChanged state.providerResponseId checkpoint.providerResponseId = false)
    (.invalidInput "provider response ID" "cannot change after it is set")
  ensure (usageDecreased state.usage checkpoint.usage = false)
    (.invalidInput "token usage" "must be monotonic")

def effectiveStreamTimestamp (state : RequestState) (candidate : TimestampMillis) :
    TimestampMillis :=
  max (max candidate state.startedAtMs) state.updatedAtMs

def validateStreamSequenceInvariant (lastDeliveredSeq lastDurableSeq : Nat)
    (lastAckedSeq : Option Nat) : Except StorageError Unit :=
  ensure (lastDurableSeq ≤ lastDeliveredSeq ∧ ∀ s ∈ lastAckedSeq, s ≠ 0 ∧ s ≤ lastDurableSeq)
    (.incompatibleSchema "stream journal sequence invariant failed")

/-! ## Reading rows -/

/-- `ensure_chat_exists` and `SELECT .. FROM chats WHERE id = ?1`. -/
def findChat (chatId : ChatId) : StoreTx Chat :=
  Tx.lookup (fun db => db.chats.find? fun c => c.id = chatId) (.notFound "chat")

/-- `decode_request_state` (store.rs:1889–1928). -/
def decodeRequestState (raw : RequestState) : Except StorageError RequestState := do
  checkSome decodeUsage raw.usage
  let _ ← decodeU64 raw.lastDeliveredSeq
  let _ ← decodeU64 raw.lastDurableSeq
  checkSome decodeU64 raw.lastAckedSeq
  validateStreamSequenceInvariant raw.lastDeliveredSeq raw.lastDurableSeq raw.lastAckedSeq
  pure raw

/-- `load_request_state` (store.rs:1930–1952). -/
def loadRequestState (requestStateId : RequestStateId) : StoreTx RequestState := do
  let raw ← Tx.lookup (fun db => db.requests.find? fun r => r.id = requestStateId)
    (.notFound "request state")
  Tx.check (decodeRequestState raw)

/-- `decode_chat` (store.rs:1674–1684). -/
def decodeChat (raw : Chat) : Except StorageError Chat := do
  validatePersistedText raw.title maxChatTitleBytes "chat title violates the storage contract"
  let _ ← decodeU64 raw.revision
  pure raw

/-- `decode_message` (store.rs:1807–1823). -/
def decodeMessage (raw : Message) : Except StorageError Message := do
  validatePersistedText raw.text maxMessageBytes "message text violates the storage contract"
  let _ ← decodeU64 raw.siblingOrd
  let _ ← decodeU64 raw.depth
  let _ ← decodeU64 raw.ordinal
  pure raw

/-- `query_message` (store.rs:1825–1836). -/
def queryMessage (messageId : MessageId) : StoreTx Message :=
  Tx.lookup (fun db => db.messages.find? fun m => m.id = messageId) (.notFound "message")

/-- `UPDATE chats SET updated_at_ms = max(updated_at_ms, ?2) WHERE id = ?1`. -/
def touchChat (chatId : ChatId) (atMs : TimestampMillis) : StoreTx Nat :=
  updateChats (fun c => c.id == chatId) fun c => { c with updatedAtMs := max c.updatedAtMs atMs }

/-! ## The conversation tree (store.rs:2182–2369) -/

def Database.activeLeafRow (db : Database) (chatId : ChatId) : Option (PathRow × Node) :=
  (Table.join (fun (p : PathRow) (m : Node) => m.chatId == p.chatId && m.id == p.messageId)
    (db.activePath.filter fun p => p.chatId == chatId) db.nodes).argmax fun row => row.1.position

/-- `current_active_leaf` (store.rs:2182–2205). -/
def currentActiveLeaf (chatId : ChatId) : StoreTx (Option (MessageId × Nat)) := do
  let row ← Tx.query fun db => db.activeLeafRow chatId
  match row with
  | some (p, m) => do
    let depth ← Tx.check (decodeU64 m.depth)
    pure (some (p.messageId, depth))
  | none => pure none

def ensureExpectedActiveLeaf (chatId : ChatId) (expected : Option MessageId) : StoreTx Unit := do
  let actual ← currentActiveLeaf chatId
  Tx.require (actual.map Prod.fst = expected) (.conflict "active path")

def messageDepth (chatId : ChatId) (messageId : MessageId) : StoreTx Nat := do
  let row ← Tx.lookup (fun db => db.nodes.find? fun n => n.chatId == chatId && n.id == messageId)
    (.notFound "message")
  let depth ← Tx.check (decodeU64 row.depth)
  Tx.check (validateBranchDepth depth)
  pure depth

/-- `SELECT max(ordinal) FROM messages WHERE chat_id = ?1`. -/
def Database.lastOrdinal (db : Database) (chatId : ChatId) : Option Nat :=
  ((db.nodes.filter fun n => n.chatId == chatId).map Node.ordinal).max?

/-- `SELECT max(sibling_ord) FROM messages WHERE chat_id = ?1 AND parent_id IS ?2`. -/
def Database.lastSibling (db : Database) (chatId : ChatId) (parentId : Option MessageId) :
    Option Nat :=
  ((db.nodes.filter fun n => n.chatId == chatId && n.parentId == parentId).map
    Node.siblingOrd).max?

def nextSiblingOrdinal (chatId : ChatId) (parentId : Option MessageId) : StoreTx Nat := do
  let maximum ← Tx.query fun db => db.lastSibling chatId parentId
  let next ← Tx.lookup (fun _ => checkedAddI64 (maximum.getD 0) 1)
    (.invalidInput "message sibling ordinal" "cannot advance beyond the supported range")
  Tx.check (decodeU64 next)

def nextMessageOrdinal (chatId : ChatId) : StoreTx Nat := do
  let maximum ← Tx.query fun db => db.lastOrdinal chatId
  let next ← Tx.lookup (fun _ => checkedAddI64 (maximum.getD 0) 1)
    (.invalidInput "message ordinal" "cannot advance beyond the supported range")
  Tx.check (decodeU64 next)

/-- The recursive query `ancestry`, level by level. A chain of parents that visits
more than `fuel` rows is cut; the query then has no result at all, since the chain
runs in a circle. -/
def ancestryFrom (nodes : List Node) (chatId : ChatId) : Nat → List Node → List Node
  | 0, _ => []
  | fuel + 1, level =>
    level ++ ancestryFrom nodes chatId fuel
      (level.flatMap fun child =>
        nodes.filter fun parent => some parent.id == child.parentId && parent.chatId == chatId)

/-- `WITH RECURSIVE ancestry(message_id, parent_id, position)`. There are no more
levels than rows. -/
def Database.ancestry (db : Database) (chatId : ChatId) (leafMessageId : MessageId) : List Node :=
  ancestryFrom db.nodes chatId db.nodes.length
    (db.nodes.filter fun n => n.chatId == chatId && n.id == leafMessageId)

/-- `ancestry LEFT JOIN active_path AS current`, on the position. -/
def Database.ancestryOnPath (db : Database) (chatId : ChatId) (ancestry : List Node) :
    List (Node × Option PathRow) :=
  Table.leftJoin (fun (a : Node) (p : PathRow) => p.chatId == chatId && p.position == a.depth)
    ancestry db.activePath

/-- A row of the ancestry that the current path does not hold at its position. -/
def pathMismatch (row : Node × Option PathRow) : Bool :=
  match row.2 with
  | none => true
  | some current => current.messageId != row.1.id

/-- `first_mismatch.unwrap_or(path_length)`. -/
def pathDivergence (rows : List (Node × Option PathRow)) (pathLength : Nat) : Nat :=
  (((rows.filter pathMismatch).map fun row => row.1.depth).min?).getD pathLength

/-- The new path rows from `start` on, `ORDER BY position ASC`. -/
def ancestrySuffix (chatId : ChatId) (ancestry : List Node) (start : Nat) : List PathRow :=
  ((ancestry.filter fun n => decide (start ≤ n.depth)).insertionSort
    fun a b => a.depth ≤ b.depth).map
      fun n => { chatId, position := n.depth, messageId := n.id }

/-- `replace_active_path`. The second statement evaluates `ancestry` again, on the
same messages; `checked_sub` after the bound on the divergence cannot fail. -/
def replaceActivePath (chatId : ChatId) (leafMessageId : MessageId) : StoreTx Nat := do
  let leafDepth ← messageDepth chatId leafMessageId
  let pathLength ← Tx.lookup (fun _ => checkedAddU64 leafDepth 1)
    (.incompatibleSchema "active path length exceeds the supported range")
  let _ ← Tx.check (encodeU64 leafDepth "message depth")
  let _ ← Tx.check (encodeU64 pathLength "active path length")
  let ancestry ← Tx.query fun db => db.ancestry chatId leafMessageId
  let rows ← Tx.query fun db => db.ancestryOnPath chatId ancestry
  let positions := rows.map fun row => row.1.depth
  Tx.require
    (rows.length = pathLength ∧ positions.min? = some 0 ∧ positions.max? = some leafDepth)
    (.incompatibleSchema "message ancestry is incomplete or has invalid depth")
  let divergence := pathDivergence rows pathLength
  Tx.require (divergence ≤ pathLength)
    (.incompatibleSchema "active path divergence is outside the ancestry")
  deletePathSuffix chatId divergence
  insertPathRows (ancestrySuffix chatId ancestry divergence)
  Tx.require ((ancestrySuffix chatId ancestry divergence).length = pathLength - divergence)
    (.incompatibleSchema "active path suffix was not materialized completely")
  pure pathLength

/-! ## Chats and turns -/

/-- `create_chat` (store.rs:156–180). -/
def createChat (input : CreateChat) (id : ChatId) : StoreTx Chat := do
  Tx.check (validateChatTitle input.title)
  let chat : Chat :=
    { id, characterId := input.characterId, title := input.title, revision := 1
      createdAtMs := input.atMs, updatedAtMs := input.atMs }
  insertChat chat (.conflict "chat")
  pure chat

/-- `rename_chat` (store.rs:196–230). -/
def renameChat (chatId : ChatId) (expectedRevision : Nat) (title : String)
    (atMs : TimestampMillis) : StoreTx Chat := do
  Tx.check (validateChatTitle title)
  Tx.require (expectedRevision < maxSafeInteger)
    (.invalidInput "chat revision" "cannot advance beyond the safe integer range")
  let _ ← Tx.check (encodeU64 expectedRevision "chat revision")
  let changed ← updateChats (fun c => c.id == chatId && c.revision == expectedRevision) fun c =>
    { c with title, revision := c.revision + 1, updatedAtMs := max c.updatedAtMs atMs }
  if changed = 0 then do
    let _ ← findChat chatId
    Tx.check (.error (.conflict "chat revision"))
  else do
    let raw ← findChat chatId
    Tx.check (decodeChat raw)

/-- `delete_chat` (store.rs:232–255). -/
def deleteChat (chatId : ChatId) : StoreTx Unit := do
  let _ ← findChat chatId
  let running ← Tx.query fun db =>
    db.requests.any fun r => r.chatId == chatId && r.status == .running
  Tx.require (running = false) (.conflict "chat with an active request")
  let changed ← deleteChatRow chatId
  Tx.require (changed ≠ 0) (.notFound "chat")

/-- Where the next message goes: under the active leaf, or at the root. -/
def turnParent : Option (MessageId × Nat) → Except StorageError (Option MessageId × Nat)
  | some (messageId, depth) =>
    match checkedAddU64 depth 1 with
    | some nextDepth => .ok (some messageId, nextDepth)
    | none => .error (.invalidInput "message depth" "exceeds the branch depth limit")
  | none => .ok (none, 0)

/-- The row `begin_turn` inserts for the user's message. -/
def BeginTurn.userMessage (input : BeginTurn) (ids : TurnIds) (parentId : Option MessageId)
    (siblingOrd depth ordinal : Nat) : Message :=
  { id := ids.userMessageId, chatId := input.chatId, parentId, siblingOrd, depth, ordinal
    role := .user, status := .complete, text := input.userText
    createdAtMs := input.startedAtMs, updatedAtMs := input.startedAtMs
    completedAtMs := some input.startedAtMs }

/-- The row `begin_turn` inserts for the assistant's message, still empty. -/
def BeginTurn.assistantMessage (input : BeginTurn) (ids : TurnIds) (depth ordinal : Nat) :
    Message :=
  { id := ids.assistantMessageId, chatId := input.chatId, parentId := some ids.userMessageId
    siblingOrd := 1, depth, ordinal, role := .assistant, status := .partialText, text := ""
    createdAtMs := input.startedAtMs, updatedAtMs := input.startedAtMs, completedAtMs := none }

/-- The row `begin_turn` inserts into the stream journal. -/
def BeginTurn.requestState (input : BeginTurn) (ids : TurnIds) : RequestState :=
  { id := ids.requestStateId, chatId := input.chatId, userMessageId := ids.userMessageId
    assistantMessageId := ids.assistantMessageId, selection := input.selection
    ownerLabel := input.ownerLabel, streamGeneration := input.streamGeneration
    status := .running, lastDeliveredSeq := 0, lastDurableSeq := 0, lastAckedSeq := none
    providerResponseId := none, usage := none, failureCode := none
    startedAtMs := input.startedAtMs, updatedAtMs := input.startedAtMs, finishedAtMs := none }

/-- `begin_turn` (store.rs:312–476). -/
def beginTurn (input : BeginTurn) (ids : TurnIds) : StoreTx StartedTurn := do
  Tx.check (validateUserMessage input.userText)
  let chat ← findChat input.chatId
  Tx.require (chat.createdAtMs ≤ input.startedAtMs)
    (.invalidInput "turn timestamp" "must not predate the chat")
  let lastOrdinal ← Tx.query fun db => db.lastOrdinal input.chatId
  let userOrdinalI64 ← Tx.lookup (fun _ => checkedAddI64 (lastOrdinal.getD 0) 1)
    (.incompatibleSchema "message ordinal overflowed")
  let assistantOrdinalI64 ← Tx.lookup (fun _ => checkedAddI64 userOrdinalI64 1)
    (.incompatibleSchema "message ordinal overflowed")
  let userOrdinal ← Tx.check (decodeU64 userOrdinalI64)
  let assistantOrdinal ← Tx.check (decodeU64 assistantOrdinalI64)
  let activeLeaf ← currentActiveLeaf input.chatId
  Tx.require (lastOrdinal.isSome = activeLeaf.isSome)
    (.incompatibleSchema "chat messages and active path disagree")
  let parent ← Tx.check (turnParent activeLeaf)
  let userDepth := parent.2
  let assistantDepth ← Tx.lookup (fun _ => checkedAddU64 userDepth 1)
    (.invalidInput "message depth" "exceeds the branch depth limit")
  Tx.check (validateBranchDepth assistantDepth)
  let userSiblingOrd ← nextSiblingOrdinal input.chatId parent.1
  let _ ← Tx.check (encodeU64 userSiblingOrd "message sibling ordinal")
  let _ ← Tx.check (encodeU64 userDepth "message depth")
  insertMessage (input.userMessage ids parent.1 userSiblingOrd userDepth userOrdinal)
    (.conflict "message")
  let _ ← Tx.check (encodeU64 assistantDepth "message depth")
  insertMessage (input.assistantMessage ids assistantDepth assistantOrdinal) (.conflict "message")
  insertPathRows
    [{ chatId := input.chatId, position := userDepth, messageId := ids.userMessageId },
     { chatId := input.chatId, position := assistantDepth, messageId := ids.assistantMessageId }]
  insertRequest (input.requestState ids) (.conflict "active request")
  let _ ← touchChat input.chatId input.startedAtMs
  pure
    { requestStateId := ids.requestStateId, userMessageId := ids.userMessageId
      assistantMessageId := ids.assistantMessageId, userOrdinal, assistantOrdinal
      ownerLabel := input.ownerLabel, streamGeneration := input.streamGeneration
      lastDeliveredSeq := 0, lastDurableSeq := 0, lastAckedSeq := none }

/-! ## The stream journal -/

/-- `UPDATE request_state SET last_delivered_seq = ?2, ..`. -/
def deliverRequest (checkpoint : DeliveryCheckpoint) (atMs : TimestampMillis)
    (r : RequestState) : RequestState :=
  { r with
    lastDeliveredSeq := checkpoint.throughSeq, updatedAtMs := max r.updatedAtMs atMs }

/-- `record_response_delivery` (store.rs:478–535). -/
def recordResponseDelivery (checkpoint : DeliveryCheckpoint) : StoreTx StreamSequenceProgress := do
  Tx.check (validateDeliveryCheckpoint checkpoint)
  let state ← loadRequestState checkpoint.requestStateId
  Tx.check (ensureRunningAndOwned state checkpoint.ownerLabel checkpoint.streamGeneration)
  let effectiveAtMs := effectiveStreamTimestamp state checkpoint.atMs
  let mismatch : StorageError :=
    .sequenceMismatch state.lastDeliveredSeq checkpoint.expectedLastDeliveredSeq
  Tx.require (state.lastDeliveredSeq = checkpoint.expectedLastDeliveredSeq) mismatch
  let changed ← updateRequests
    (fun r => r.id == checkpoint.requestStateId && r.ownerLabel == checkpoint.ownerLabel &&
      r.streamGeneration == checkpoint.streamGeneration && r.status == .running &&
      r.lastDeliveredSeq == checkpoint.expectedLastDeliveredSeq)
    (deliverRequest checkpoint effectiveAtMs)
  Tx.require (changed = 1) mismatch
  pure
    { requestStateId := state.id, ownerLabel := state.ownerLabel
      streamGeneration := state.streamGeneration, lastDeliveredSeq := checkpoint.throughSeq
      lastDurableSeq := state.lastDurableSeq, lastAckedSeq := state.lastAckedSeq
      status := state.status, updatedAtMs := effectiveAtMs }

/-- `UPDATE request_state SET last_acked_seq = ?2, ..`. -/
def ackRequest (acknowledgement : CumulativeAck) (atMs : TimestampMillis)
    (r : RequestState) : RequestState :=
  { r with
    lastAckedSeq := some acknowledgement.throughSeq, updatedAtMs := max r.updatedAtMs atMs }

/-- `acknowledge_response` (store.rs:537–602). It does not ask for a running
request. -/
def acknowledgeResponse (acknowledgement : CumulativeAck) : StoreTx StreamSequenceProgress := do
  Tx.check (validateCumulativeAck acknowledgement)
  let state ← loadRequestState acknowledgement.requestStateId
  Tx.check (ensureStreamOwned state acknowledgement.ownerLabel acknowledgement.streamGeneration)
  let effectiveAtMs := effectiveStreamTimestamp state acknowledgement.atMs
  let mismatch : StorageError :=
    .sequenceMismatch (state.lastAckedSeq.getD 0) (acknowledgement.expectedLastAckedSeq.getD 0)
  Tx.require (state.lastAckedSeq = acknowledgement.expectedLastAckedSeq) mismatch
  Tx.require (acknowledgement.throughSeq ≤ state.lastDurableSeq)
    (.invalidInput "acknowledged sequence" "must not advance beyond the durable sequence")
  let changed ← updateRequests
    (fun r => r.id == acknowledgement.requestStateId &&
      r.ownerLabel == acknowledgement.ownerLabel &&
      r.streamGeneration == acknowledgement.streamGeneration &&
      r.lastAckedSeq == acknowledgement.expectedLastAckedSeq)
    (ackRequest acknowledgement effectiveAtMs)
  Tx.require (changed = 1) mismatch
  pure
    { requestStateId := state.id, ownerLabel := state.ownerLabel
      streamGeneration := state.streamGeneration, lastDeliveredSeq := state.lastDeliveredSeq
      lastDurableSeq := state.lastDurableSeq, lastAckedSeq := some acknowledgement.throughSeq
      status := state.status, updatedAtMs := effectiveAtMs }

def progressStatus : Option TerminalOutcome → RequestStatus
  | none => .running
  | some .completed => .completed
  | some .cancelled => .cancelled
  | some (.failed _) => .failed

def progressMessageStatus : Option TerminalOutcome → MessageStatus
  | none => .partialText
  | some .completed => .complete
  | some .cancelled => .partialText
  | some (.failed _) => .failed

def progressFailureCode : Option TerminalOutcome → Option RequestFailureCode
  | some (.failed code) => some code
  | _ => none

/-- `UPDATE messages SET text = text || ?2, ..` of a progress call. -/
def progressMessage (checkpoint : ResponseCheckpoint) (terminal : Option TerminalOutcome)
    (atMs : TimestampMillis) (m : Message) : Message :=
  { m with
    text := m.text ++ checkpoint.appendedText
    status := progressMessageStatus terminal
    updatedAtMs := max m.updatedAtMs atMs
    completedAtMs := if progressMessageStatus terminal = .complete then some atMs else none }

/-- `UPDATE request_state SET status = ?2, ..` of a progress call, on top of the row
`state` it read. -/
def progressRequest (checkpoint : ResponseCheckpoint) (terminal : Option TerminalOutcome)
    (state : RequestState) (atMs : TimestampMillis) (r : RequestState) : RequestState :=
  { r with
    status := progressStatus terminal
    lastDurableSeq := checkpoint.throughSeq
    providerResponseId := checkpoint.providerResponseId.or state.providerResponseId
    usage := checkpoint.usage.or state.usage
    failureCode := progressFailureCode terminal
    updatedAtMs := max r.updatedAtMs atMs
    finishedAtMs := terminal.map fun _ => atMs }

/-- `apply_response_progress` (store.rs:1954–2110). The byte count of a stored text
fits `usize`, and an overflowing sum has the same error as one above the limit. -/
def applyResponseProgress (checkpoint : ResponseCheckpoint) (terminal : Option TerminalOutcome) :
    StoreTx ResponseProgress := do
  Tx.check (validateCheckpoint checkpoint)
  let state ← loadRequestState checkpoint.requestStateId
  Tx.check (ensureRunningAndOwned state checkpoint.ownerLabel checkpoint.streamGeneration)
  let mismatch : StorageError :=
    .sequenceMismatch state.lastDurableSeq checkpoint.expectedLastDurableSeq
  Tx.require (state.lastDurableSeq = checkpoint.expectedLastDurableSeq) mismatch
  Tx.require (checkpoint.throughSeq ≤ state.lastDeliveredSeq)
    (.invalidInput "durable sequence" "must not advance beyond the delivered sequence")
  Tx.check (validateResponseMetadata state checkpoint)
  let atMs := effectiveStreamTimestamp state checkpoint.atMs
  let message ← Tx.lookup (fun db => db.messages.find? fun m => m.id = state.assistantMessageId)
    (.database "Query returned no rows")
  let textBytes := message.text.utf8ByteSize + checkpoint.appendedText.utf8ByteSize
  Tx.require (textBytes ≤ maxMessageBytes)
    (.invalidInput "assistant message" "exceeds the byte limit")
  Tx.check (checkSome encodeUsage (checkpoint.usage.or state.usage))
  let _ ← Tx.check (encodeU64 checkpoint.throughSeq "request sequence")
  let changedMessage ← updateMessages
    (fun m => m.id == state.assistantMessageId && m.status == .partialText)
    (progressMessage checkpoint terminal atMs)
  Tx.require (changedMessage = 1)
    (.incompatibleSchema "running request has no partial assistant message")
  let changedRequest ← updateRequests
    (fun r => r.id == checkpoint.requestStateId && r.ownerLabel == checkpoint.ownerLabel &&
      r.streamGeneration == checkpoint.streamGeneration && r.status == .running &&
      r.lastDurableSeq == checkpoint.expectedLastDurableSeq)
    (progressRequest checkpoint terminal state atMs)
  Tx.require (changedRequest = 1) mismatch
  let _ ← touchChat state.chatId atMs
  pure
    { requestStateId := checkpoint.requestStateId, assistantMessageId := state.assistantMessageId
      lastDeliveredSeq := state.lastDeliveredSeq, lastDurableSeq := checkpoint.throughSeq
      lastAckedSeq := state.lastAckedSeq, textBytes, status := progressStatus terminal
      updatedAtMs := atMs }

/-- `checkpoint_response` (store.rs:604–610). -/
def checkpointResponse (checkpoint : ResponseCheckpoint) : StoreTx ResponseProgress :=
  applyResponseProgress checkpoint none

/-- `finish_turn` (store.rs:612–625). -/
def finishTurn (terminal : TerminalCheckpoint) : StoreTx ResponseProgress := do
  Tx.require (terminal.outcome ≠ .failed .appRestarted)
    (.invalidInput "failure code" "APP_RESTARTED is reserved for startup recovery")
  applyResponseProgress terminal.checkpoint (some terminal.outcome)

/-! ## Branches and recovery -/

/-- The row `append_branch_message` inserts. -/
def AppendBranchMessage.message (input : AppendBranchMessage) (id : MessageId)
    (siblingOrd depth ordinal : Nat) : Message :=
  { id, chatId := input.chatId, parentId := input.parentId, siblingOrd, depth, ordinal
    role := input.role, status := .complete, text := input.text
    createdAtMs := input.atMs, updatedAtMs := input.atMs, completedAtMs := some input.atMs }

/-- The depth below a parent that may be absent (store.rs:819–830). -/
def branchDepth (chatId : ChatId) : Option MessageId → StoreTx Nat
  | some parentId => do
    let parentDepth ← messageDepth chatId parentId
    Tx.lookup (fun _ => checkedAddU64 parentDepth 1)
      (.invalidInput "message depth" "exceeds the branch depth limit")
  | none => pure 0

/-- `append_branch_message` (store.rs:792–875). -/
def appendBranchMessage (input : AppendBranchMessage) (id : MessageId) :
    StoreTx AppendedBranchMessage := do
  Tx.check (validateCompleteMessage input.role input.text)
  let chat ← findChat input.chatId
  Tx.require (chat.createdAtMs ≤ input.atMs)
    (.invalidInput "message timestamp" "must not predate the chat")
  ensureExpectedActiveLeaf input.chatId input.expectedActiveLeafId
  let depth ← branchDepth input.chatId input.parentId
  Tx.check (validateBranchDepth depth)
  let siblingOrd ← nextSiblingOrdinal input.chatId input.parentId
  let ordinal ← nextMessageOrdinal input.chatId
  let _ ← Tx.check (encodeU64 siblingOrd "message sibling ordinal")
  let _ ← Tx.check (encodeU64 depth "message depth")
  let _ ← Tx.check (encodeU64 ordinal "message ordinal")
  insertMessage (input.message id siblingOrd depth ordinal) (.conflict "branch message")
  let pathLength ← replaceActivePath input.chatId id
  let _ ← touchChat input.chatId input.atMs
  let raw ← queryMessage id
  let message ← Tx.check (decodeMessage raw)
  pure { message, activePath := { chatId := input.chatId, leafMessageId := id, pathLength } }

/-- `select_active_path` (store.rs:877–899). -/
def selectActivePath (input : SelectActivePath) : StoreTx ActivePathSelection := do
  let _ ← findChat input.chatId
  ensureExpectedActiveLeaf input.chatId input.expectedLeafId
  let pathLength ← replaceActivePath input.chatId input.leafMessageId
  let _ ← touchChat input.chatId input.atMs
  pure { chatId := input.chatId, leafMessageId := input.leafMessageId, pathLength }

/-- `UPDATE messages SET status = 'partial', ..` of the recovery. -/
def recoverMessage (recoveredAtMs : TimestampMillis) (m : Message) : Message :=
  { m with status := .partialText, updatedAtMs := max m.updatedAtMs recoveredAtMs }

/-- `UPDATE request_state SET status = 'interrupted', ..` of the recovery. -/
def recoverRequest (recoveredAtMs : TimestampMillis) (r : RequestState) : RequestState :=
  { r with
    status := .interrupted
    failureCode := some .appRestarted
    updatedAtMs := max r.updatedAtMs recoveredAtMs
    finishedAtMs := some (max (max r.updatedAtMs r.startedAtMs) recoveredAtMs) }

/-- `recover_interrupted_requests` (migration.rs:515–550), which `Store::open` runs
before the store answers anything. -/
def recoverInterruptedRequests (recoveredAtMs : TimestampMillis) : StoreTx Nat := do
  let running ← Tx.query fun db => db.requests.filter RequestState.isRunning
  let _ ← updateChats (fun c => running.any fun r => r.chatId == c.id) fun c =>
    { c with updatedAtMs := max c.updatedAtMs recoveredAtMs }
  let _ ← updateMessages (fun m => running.any fun r => r.assistantMessageId == m.id)
    (recoverMessage recoveredAtMs)
  updateRequests RequestState.isRunning (recoverRequest recoveredAtMs)

/-! ## The store as a server -/

/-- The operations a client of the store can call; `restart` is a new `Store::open`
on the same file. -/
inductive Call where
  | createChat (input : CreateChat) (id : ChatId)
  | renameChat (chatId : ChatId) (expectedRevision : Nat) (title : String) (atMs : TimestampMillis)
  | deleteChat (chatId : ChatId)
  | beginTurn (input : BeginTurn) (ids : TurnIds)
  | recordResponseDelivery (checkpoint : DeliveryCheckpoint)
  | acknowledgeResponse (acknowledgement : CumulativeAck)
  | checkpointResponse (checkpoint : ResponseCheckpoint)
  | finishTurn (terminal : TerminalCheckpoint)
  | appendBranchMessage (input : AppendBranchMessage) (id : MessageId)
  | selectActivePath (input : SelectActivePath)
  | restart (recoveredAtMs : TimestampMillis)
  deriving DecidableEq

inductive Response where
  | chat (chat : Chat)
  | done
  | started (turn : StartedTurn)
  | sequence (progress : StreamSequenceProgress)
  | progress (progress : ResponseProgress)
  | appended (result : AppendedBranchMessage)
  | selection (selection : ActivePathSelection)
  | recovered (count : Nat)
  deriving DecidableEq

abbrev Reply := Except StorageError Response

def transaction : Call → StoreTx Response
  | .createChat input id => Response.chat <$> createChat input id
  | .renameChat chatId expectedRevision title atMs =>
    Response.chat <$> renameChat chatId expectedRevision title atMs
  | .deleteChat chatId => (fun _ => Response.done) <$> deleteChat chatId
  | .beginTurn input ids => Response.started <$> beginTurn input ids
  | .recordResponseDelivery checkpoint => Response.sequence <$> recordResponseDelivery checkpoint
  | .acknowledgeResponse acknowledgement =>
    Response.sequence <$> acknowledgeResponse acknowledgement
  | .checkpointResponse checkpoint => Response.progress <$> checkpointResponse checkpoint
  | .finishTurn terminal => Response.progress <$> finishTurn terminal
  | .appendBranchMessage input id => Response.appended <$> appendBranchMessage input id
  | .selectActivePath input => Response.selection <$> selectActivePath input
  | .restart recoveredAtMs => Response.recovered <$> recoverInterruptedRequests recoveredAtMs

def store : Server Database Call Reply where
  exec call db := (transaction call).commit db

/-- What the store can be in: any run of calls from the empty database that the
migrations create. -/
def Reachable (db : Database) : Prop := store.Reachable {} db

end Lorepia.Storage
