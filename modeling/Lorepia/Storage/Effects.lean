import Lorepia.Storage.Store

/-!
# What a call does to the database

Every transaction of the store keeps the guarantees of the schema, because it is made of
statements that do. Then one inversion lemma per operation: what held when it succeeded and which
rows it wrote. Every later result about the store is derived from these lemmas.
-/

namespace Lorepia.Storage

section Calls

/-! ## Scalars -/

variable {value n : Nat} {r : RequestState} {db db' : Database} {u : Unit}
  {acknowledgement : CumulativeAck} {checkpoint : ResponseCheckpoint} {chatId : ChatId}
  {progress : ResponseProgress} {chat : Chat}

@[simp] theorem encodeU64_ok {w : Nat} {field : String} :
    encodeU64 value field = .ok w ↔ value ≤ maxSafeInteger ∧ value = w := by
  simp [encodeU64]

@[simp] theorem decodeU64_ok {w : Nat} :
    decodeU64 value = .ok w ↔ value ≤ maxSafeInteger ∧ value = w := by
  simp [decodeU64]

@[simp] theorem decodeU64_error {e : StorageError} : decodeU64 value = .error e ↔
      maxSafeInteger < value ∧ .incompatibleSchema integerRangeReason = e := by
  simp [decodeU64]

@[simp] theorem encodeU64_error {field : String} {e : StorageError} :
    encodeU64 value field = .error e ↔
      maxSafeInteger < value ∧ .invalidInput field "exceeds the safe integer range" = e := by
  simp [encodeU64]

theorem encodeUsage_ok {usage u : TokenUsage} :
    encodeUsage usage = .ok u ↔ usage.Check ∧ usage = u := by
  simp only [encodeUsage, except_bind_ok, encodeU64_ok, except_pure_ok, TokenUsage.Check]
  constructor
  · rintro ⟨_, ⟨h₁, rfl⟩, _, ⟨h₂, rfl⟩, _, ⟨h₃, rfl⟩, _, ⟨h₄, rfl⟩, rfl⟩
    exact ⟨⟨h₁, h₂, h₃, h₄⟩, rfl⟩
  · rintro ⟨⟨h₁, h₂, h₃, h₄⟩, rfl⟩
    exact ⟨_, ⟨h₁, rfl⟩, _, ⟨h₂, rfl⟩, _, ⟨h₃, rfl⟩, _, ⟨h₄, rfl⟩, rfl⟩

@[simp] theorem checkedAddI64_eq {a b c : Nat} :
    checkedAddI64 a b = some c ↔ a + b < 2 ^ 63 ∧ a + b = c := by
  simp [checkedAddI64]

@[simp] theorem checkedAddU64_eq {a b c : Nat} :
    checkedAddU64 a b = some c ↔ a + b < 2 ^ 64 ∧ a + b = c := by
  simp [checkedAddU64]

/-! ## Every call keeps the schema -/

section Schema

theorem findChat_schema (chatId : ChatId) : Tx.Preserves Database.Schema (findChat chatId) :=
  .lookup _ _

theorem touchChat_schema (chatId : ChatId) (atMs : TimestampMillis) :
    Tx.Preserves Database.Schema (touchChat chatId atMs) :=
  updateChats_schema fun _ => rfl

theorem loadRequestState_schema (id : RequestStateId) :
    Tx.Preserves Database.Schema (loadRequestState id) :=
  .bind (.lookup _ _) fun _ => .check _

theorem currentActiveLeaf_schema (chatId : ChatId) :
    Tx.Preserves Database.Schema (currentActiveLeaf chatId) := by
  refine .bind (.query _) fun row => ?_
  cases row with
  | none => exact .pure _
  | some row => exact .bind (.check _) fun _ => .pure _

theorem ensureExpectedActiveLeaf_schema (chatId : ChatId) (expected : Option MessageId) :
    Tx.Preserves Database.Schema (ensureExpectedActiveLeaf chatId expected) :=
  .bind (currentActiveLeaf_schema _) fun _ => .require _ _

theorem messageDepth_schema (chatId : ChatId) (messageId : MessageId) :
    Tx.Preserves Database.Schema (messageDepth chatId messageId) :=
  .bind (.lookup _ _) fun _ => .bind (.check _) fun _ => .bind (.check _) fun _ => .pure _

theorem nextSiblingOrdinal_schema (chatId : ChatId) (parentId : Option MessageId) :
    Tx.Preserves Database.Schema (nextSiblingOrdinal chatId parentId) :=
  .bind (.query _) fun _ => .bind (.lookup _ _) fun _ => .check _

theorem nextMessageOrdinal_schema (chatId : ChatId) :
    Tx.Preserves Database.Schema (nextMessageOrdinal chatId) :=
  .bind (.query _) fun _ => .bind (.lookup _ _) fun _ => .check _

theorem replaceActivePath_schema (chatId : ChatId) (leaf : MessageId) :
    Tx.Preserves Database.Schema (replaceActivePath chatId leaf) :=
  .bind (messageDepth_schema _ _) fun _ => .bind (.lookup _ _) fun _ =>
  .bind (.check _) fun _ => .bind (.check _) fun _ => .bind (.query _) fun _ =>
  .bind (.query _) fun _ => .bind (.require _ _) fun _ => .bind (.require _ _) fun _ =>
  .bind (deletePathSuffix_schema _ _) fun _ => .bind (insertPathRows_schema _) fun _ =>
  .bind (.require _ _) fun _ => .pure _

theorem createChat_schema (input : CreateChat) (id : ChatId) :
    Tx.Preserves Database.Schema (createChat input id) :=
  .bind (.check _) fun _ => .bind (insertChat_schema _ _) fun _ => .pure _

theorem renameChat_schema (chatId : ChatId) (revision : Nat) (title : String)
    (atMs : TimestampMillis) :
    Tx.Preserves Database.Schema (renameChat chatId revision title atMs) := by
  refine .bind (.check _) fun _ => .bind (.require _ _) fun _ => .bind (.check _) fun _ =>
    .bind (updateChats_schema fun _ => rfl) fun changed => ?_
  split
  · exact .bind (findChat_schema _) fun _ => .check _
  · exact .bind (findChat_schema _) fun _ => .check _

theorem deleteChat_schema (chatId : ChatId) :
    Tx.Preserves Database.Schema (deleteChat chatId) :=
  .bind (findChat_schema _) fun _ => .bind (.query _) fun _ => .bind (.require _ _) fun _ =>
  .bind (deleteChatRow_schema _) fun _ => .require _ _

theorem beginTurn_schema (input : BeginTurn) (ids : TurnIds) :
    Tx.Preserves Database.Schema (beginTurn input ids) :=
  .bind (.check _) fun _ => .bind (findChat_schema _) fun _ => .bind (.require _ _) fun _ =>
  .bind (.query _) fun _ => .bind (.lookup _ _) fun _ => .bind (.lookup _ _) fun _ =>
  .bind (.check _) fun _ => .bind (.check _) fun _ => .bind (currentActiveLeaf_schema _) fun _ =>
  .bind (.require _ _) fun _ => .bind (.check _) fun _ => .bind (.lookup _ _) fun _ =>
  .bind (.check _) fun _ => .bind (nextSiblingOrdinal_schema _ _) fun _ =>
  .bind (.check _) fun _ => .bind (.check _) fun _ => .bind (insertMessage_schema _ _) fun _ =>
  .bind (.check _) fun _ => .bind (insertMessage_schema _ _) fun _ =>
  .bind (insertPathRows_schema _) fun _ => .bind (insertRequest_schema _ _) fun _ =>
  .bind (touchChat_schema _ _) fun _ => .pure _

theorem recordResponseDelivery_schema (checkpoint : DeliveryCheckpoint) :
    Tx.Preserves Database.Schema (recordResponseDelivery checkpoint) := by
  refine .bind (.check _) fun _ => .bind (loadRequestState_schema _) fun _ =>
    .bind (.check _) fun _ => .bind (.require _ _) fun _ =>
    .bind (updateRequests_schema (fun _ => rfl) fun r h _ => h) fun _ =>
    .bind (.require _ _) fun _ => .pure _

theorem acknowledgeResponse_schema (acknowledgement : CumulativeAck) :
    Tx.Preserves Database.Schema (acknowledgeResponse acknowledgement) :=
  .bind (.check _) fun _ => .bind (loadRequestState_schema _) fun _ =>
  .bind (.check _) fun _ => .bind (.require _ _) fun _ => .bind (.require _ _) fun _ =>
  .bind (updateRequests_schema (fun _ => rfl) fun _ h _ => h) fun _ =>
  .bind (.require _ _) fun _ => .pure _

theorem applyResponseProgress_schema (checkpoint : ResponseCheckpoint)
    (terminal : Option TerminalOutcome) :
    Tx.Preserves Database.Schema (applyResponseProgress checkpoint terminal) := by
  refine .bind (.check _) fun _ => .bind (loadRequestState_schema _) fun _ =>
    .bind (.check _) fun _ => .bind (.require _ _) fun _ => .bind (.require _ _) fun _ =>
    .bind (.check _) fun _ => .bind (.lookup _ _) fun _ => .bind (.require _ _) fun _ =>
    .bind (.check _) fun _ => .bind (.check _) fun _ =>
    .bind (updateMessages_schema fun _ => rfl) fun _ => .bind (.require _ _) fun _ =>
    .bind (updateRequests_schema (fun _ => rfl) fun r _ hp => ?_) fun _ =>
    .bind (.require _ _) fun _ => .bind (touchChat_schema _ _) fun _ => .pure _
  -- only running rows are selected by the statement's condition
  simp only [Bool.and_eq_true] at hp
  exact hp.1.2

theorem finishTurn_schema (terminal : TerminalCheckpoint) :
    Tx.Preserves Database.Schema (finishTurn terminal) :=
  .bind (.require _ _) fun _ => applyResponseProgress_schema _ _

theorem branchDepth_schema (chatId : ChatId) (parentId : Option MessageId) :
    Tx.Preserves Database.Schema (branchDepth chatId parentId) := by
  cases parentId with
  | none => exact .pure _
  | some parentId => exact .bind (messageDepth_schema _ _) fun _ => .lookup _ _

theorem appendBranchMessage_schema (input : AppendBranchMessage) (id : MessageId) :
    Tx.Preserves Database.Schema (appendBranchMessage input id) :=
  .bind (.check _) fun _ => .bind (findChat_schema _) fun _ => .bind (.require _ _) fun _ =>
  .bind (ensureExpectedActiveLeaf_schema _ _) fun _ => .bind (branchDepth_schema _ _) fun _ =>
  .bind (.check _) fun _ => .bind (nextSiblingOrdinal_schema _ _) fun _ =>
  .bind (nextMessageOrdinal_schema _) fun _ => .bind (.check _) fun _ => .bind (.check _) fun _ =>
  .bind (.check _) fun _ => .bind (insertMessage_schema _ _) fun _ =>
  .bind (replaceActivePath_schema _ _) fun _ => .bind (touchChat_schema _ _) fun _ =>
  .bind (.lookup _ _) fun _ => .bind (.check _) fun _ => .pure _

theorem selectActivePath_schema (input : SelectActivePath) :
    Tx.Preserves Database.Schema (selectActivePath input) :=
  .bind (findChat_schema _) fun _ => .bind (ensureExpectedActiveLeaf_schema _ _) fun _ =>
  .bind (replaceActivePath_schema _ _) fun _ => .bind (touchChat_schema _ _) fun _ => .pure _

theorem recoverInterruptedRequests_schema (recoveredAtMs : TimestampMillis) :
    Tx.Preserves Database.Schema (recoverInterruptedRequests recoveredAtMs) :=
  .bind (.query _) fun _ => .bind (updateChats_schema fun _ => rfl) fun _ =>
  .bind (updateMessages_schema fun _ => rfl) fun _ =>
  updateRequests_schema (fun _ => rfl) fun _ _ hp => hp

theorem transaction_schema (call : Call) :
    Tx.Preserves Database.Schema (transaction call) := by
  cases call with
  | createChat input id => exact .map (createChat_schema input id) _
  | renameChat chatId revision title atMs => exact .map (renameChat_schema _ _ _ _) _
  | deleteChat chatId => exact .map (deleteChat_schema chatId) _
  | beginTurn input ids => exact .map (beginTurn_schema input ids) _
  | recordResponseDelivery checkpoint => exact .map (recordResponseDelivery_schema checkpoint) _
  | acknowledgeResponse ack => exact .map (acknowledgeResponse_schema ack) _
  | checkpointResponse checkpoint => exact .map (applyResponseProgress_schema checkpoint none) _
  | finishTurn terminal => exact .map (finishTurn_schema terminal) _
  | appendBranchMessage input id => exact .map (appendBranchMessage_schema input id) _
  | selectActivePath input => exact .map (selectActivePath_schema input) _
  | restart recoveredAtMs => exact .map (recoverInterruptedRequests_schema recoveredAtMs) _

theorem reachable_schema {db : Database} (h : Reachable db) : db.Schema :=
  Server.Reachable.invariant (I := Database.Schema)
    (fun _ call hs => (transaction_schema call).commit hs) schema_empty h

end Schema

/-! ## Loading a request -/

theorem decodeRequestState_of_check (h : r.Check) : decodeRequestState r = .ok r := by
  have hdurable : r.lastDurableSeq ≤ maxSafeInteger := h.durable.trans h.delivered
  simp only [decodeRequestState, validateStreamSequenceInvariant, except_bind_ok, checkSome_ok,
    decodeU64_ok, ensure_ok, except_pure_ok]
  refine ⟨⟨⟩, fun u hu => ?_, _, ⟨h.delivered, rfl⟩, _, ⟨hdurable, rfl⟩, ⟨⟩, fun s hs => ?_, ⟨⟩,
    ⟨h.durable, fun s hs => ?_⟩, trivial⟩
  · obtain ⟨h₁, h₂, h₃, h₄⟩ := h.usage u hu
    exact ⟨u, by simp [decodeUsage, h₁, h₂, h₃, h₄]⟩
  · exact ⟨s, (h.acked s hs).2.trans hdurable, rfl⟩
  · exact ⟨Nat.one_le_iff_ne_zero.mp (h.acked s hs).1, (h.acked s hs).2⟩

/-- Loading finds the row with the id, and under the schema its decoding cannot
fail. -/
theorem loadRequestState_iff (hs : db.Schema) {id : RequestStateId} :
    loadRequestState id db = .ok (r, db') ↔ r ∈ db.requests ∧ r.id = id ∧ db = db' := by
  simp only [loadRequestState, Tx.bind_ok, Tx.lookup_ok, Tx.check_ok]
  constructor
  · rintro ⟨raw, _, ⟨hfind, rfl⟩, hdecode, rfl⟩
    obtain ⟨hmem, hid⟩ := hs.requestId.find?_eq.mp hfind
    rw [decodeRequestState_of_check (hs.requestCheck raw hmem)] at hdecode
    cases hdecode
    exact ⟨hmem, hid, rfl⟩
  · rintro ⟨hmem, hid, rfl⟩
    exact ⟨r, db, ⟨hs.requestId.find?_eq.mpr ⟨hmem, hid⟩, rfl⟩,
      decodeRequestState_of_check (hs.requestCheck r hmem), rfl⟩

theorem ensureStreamOwned_ok {owner : StreamOwnerLabel} {generation : StreamGeneration} :
    ensureStreamOwned r owner generation = .ok u ↔
      r.ownerLabel = owner ∧ r.streamGeneration = generation := by
  simp [ensureStreamOwned]

theorem ensureRunningAndOwned_ok {owner : StreamOwnerLabel} {generation : StreamGeneration} :
    ensureRunningAndOwned r owner generation = .ok u ↔
      r.status = .running ∧ r.ownerLabel = owner ∧ r.streamGeneration = generation := by
  simp [ensureRunningAndOwned, ensureStreamOwned]

theorem isRunning_iff : r.isRunning = true ↔ r.status = .running := by
  simp [RequestState.isRunning]

/-- The row of the stream journal that `id` names, rewritten by `f`. -/
def Database.setRequest (db : Database) (id : RequestStateId) (f : RequestState → RequestState) :
    Database :=
  { db with requests := Table.update (fun r => decide (r.id = id)) f db.requests }

/-- The message that `id` names, rewritten by `f`. -/
def Database.setMessage (db : Database) (id : MessageId) (f : Message → Message) : Database :=
  { db with messages := Table.update (fun m => decide (m.id = id)) f db.messages }

theorem updateRequests_one
    (hkey : Table.Keyed RequestState.id db.requests) (hr : r ∈ db.requests)
    {p : RequestState → Bool} {f : RequestState → RequestState}
    (hp : p r = true) (hu : ∀ q ∈ db.requests, p q = true → q.id = r.id) :
    updateRequests p f db = .ok (n, db') ↔ n = 1 ∧ (f r).Check ∧ db' = db.setRequest r.id f := by
  rw [updateRequests_ok, hkey.countP_eq_one hr hp hu, hkey.update_eq hr hp hu (g := f) rfl,
    hkey.forall_iff hr hp hu (P := fun q => (f q).Check), eq_comm, @eq_comm _ _ db']
  rfl

theorem messageId_keyed (hs : db.Schema) : Table.Keyed Message.id db.messages :=
  (Table.keyed_map (k := Node.id) (f := Message.node)).mp hs.messageId

theorem updateMessages_one
    (hkey : Table.Keyed Message.id db.messages) {m : Message} (hm : m ∈ db.messages) {p : Message → Bool} {f : Message → Message}
    (hp : p m = true) (hu : ∀ q ∈ db.messages, p q = true → q.id = m.id) :
    updateMessages p f db = .ok (n, db') ↔ n = 1 ∧ (f m).Check ∧ db' = db.setMessage m.id f := by
  rw [updateMessages_ok, hkey.countP_eq_one hm hp hu, hkey.update_eq hm hp hu (g := f) rfl,
    hkey.forall_iff hm hp hu (P := fun q => (f q).Check), eq_comm, @eq_comm _ _ db']
  rfl

/-! ## Deliveries and acknowledgements -/

/-- When `record_response_delivery` accepts a checkpoint for the row `r`. -/
structure DeliveryAllowed (r : RequestState) (checkpoint : DeliveryCheckpoint) : Prop where
  id : r.id = checkpoint.requestStateId
  running : r.status = .running
  owner : r.ownerLabel = checkpoint.ownerLabel
  generation : r.streamGeneration = checkpoint.streamGeneration
  expected : r.lastDeliveredSeq = checkpoint.expectedLastDeliveredSeq
  next : checkpoint.throughSeq = checkpoint.expectedLastDeliveredSeq + 1
  range : checkpoint.throughSeq ≤ maxSafeInteger

theorem deliverRequest_check {checkpoint : DeliveryCheckpoint}
    (hr : r.Check) (h : DeliveryAllowed r checkpoint) (atMs : TimestampMillis) :
    (deliverRequest checkpoint atMs r).Check :=
  { hr with
    delivered := h.range
    durable := by
      have := hr.durable
      show r.lastDurableSeq ≤ checkpoint.throughSeq
      rw [h.next, ← h.expected]
      omega
    updatedAt := hr.updatedAt.trans (le_max_left _ _) }

theorem recordResponseDelivery_iff (hs : db.Schema)
    {checkpoint : DeliveryCheckpoint} {progress : StreamSequenceProgress} :
    recordResponseDelivery checkpoint db = .ok (progress, db') ↔
      ∃ r ∈ db.requests, DeliveryAllowed r checkpoint ∧
        db' = db.setRequest r.id
          (deliverRequest checkpoint (effectiveStreamTimestamp r checkpoint.atMs)) ∧
        progress =
          { requestStateId := r.id, ownerLabel := r.ownerLabel
            streamGeneration := r.streamGeneration, lastDeliveredSeq := checkpoint.throughSeq
            lastDurableSeq := r.lastDurableSeq, lastAckedSeq := r.lastAckedSeq
            status := r.status
            updatedAtMs := effectiveStreamTimestamp r checkpoint.atMs } := by
  simp only [recordResponseDelivery, validateDeliveryCheckpoint, Tx.bind_ok, Tx.check_ok,
    Tx.require_ok, Tx.pure_ok, ensureRunningAndOwned_ok, except_bind_ok, encodeU64_ok, ensure_ok,
    and_assoc, exists_and_left, exists_eq_left', exists_const]
  constructor
  · rintro ⟨-, hrange, hnext, r, _, hload, hrun, howner, hgen, hexp, _, _, hupd, rfl, rfl, rfl⟩
    obtain ⟨hr, hid, rfl⟩ := (loadRequestState_iff hs).mp hload
    rw [updateRequests_one hs.requestId hr (by simp [hid, hrun, howner, hgen, hexp])
      (fun q _ hq => by simp at hq; rw [hq.1.1.1.1, hid])] at hupd
    exact ⟨r, hr, ⟨hid, hrun, howner, hgen, hexp, hnext, hrange⟩, hupd.2.2, rfl⟩
  · rintro ⟨r, hr, h, rfl, rfl⟩
    have hexp : checkpoint.expectedLastDeliveredSeq ≤ maxSafeInteger := by
      have := h.next
      have := h.range
      omega
    refine ⟨hexp, h.range, h.next, r, db, (loadRequestState_iff hs).mpr ⟨hr, h.id, rfl⟩,
      h.running, h.owner, h.generation, h.expected, 1, _, ?_, rfl, rfl, rfl⟩
    rw [updateRequests_one hs.requestId hr
      (by simp [h.id, h.running, h.owner, h.generation, h.expected])
      (fun q _ hq => by simp at hq; rw [hq.1.1.1.1, h.id])]
    exact ⟨rfl, deliverRequest_check (hs.requestCheck r hr) h _, rfl⟩

/-- When `acknowledge_response` accepts an acknowledgement for the row `r`. -/
structure AckAllowed (r : RequestState) (acknowledgement : CumulativeAck) : Prop where
  id : r.id = acknowledgement.requestStateId
  owner : r.ownerLabel = acknowledgement.ownerLabel
  generation : r.streamGeneration = acknowledgement.streamGeneration
  expected : r.lastAckedSeq = acknowledgement.expectedLastAckedSeq
  advances : acknowledgement.expectedLastAckedSeq.getD 0 < acknowledgement.throughSeq
  durable : acknowledgement.throughSeq ≤ r.lastDurableSeq

theorem ackRequest_check
    (hr : r.Check) (h : AckAllowed r acknowledgement) (atMs : TimestampMillis) :
    (ackRequest acknowledgement atMs r).Check :=
  { hr with
    acked := by
      intro s hs
      have hs : acknowledgement.throughSeq = s := by simpa [ackRequest] using hs
      have := h.advances
      exact ⟨by omega, hs ▸ h.durable⟩
    updatedAt := hr.updatedAt.trans (le_max_left _ _) }

theorem validateCumulativeAck_of_allowed (hr : r.Check) (h : AckAllowed r acknowledgement) :
    validateCumulativeAck acknowledgement = .ok () := by
  have hdurable : r.lastDurableSeq ≤ maxSafeInteger := hr.durable.trans hr.delivered
  simp only [validateCumulativeAck, validateAckedSequence, except_bind_ok, checkSome_ok,
    encodeU64_ok, ensure_ok, except_pure_ok]
  refine ⟨⟨⟩, fun s hs => ?_, _, ⟨h.durable.trans hdurable, rfl⟩, h.advances⟩
  obtain ⟨hpos, hle⟩ := hr.acked s (h.expected ▸ hs)
  exact ⟨⟨⟩, ⟨⟩, Nat.one_le_iff_ne_zero.mp hpos, _, ⟨hle.trans hdurable, rfl⟩, trivial⟩

theorem acknowledgeResponse_iff (hs : db.Schema) {progress : StreamSequenceProgress} :
    acknowledgeResponse acknowledgement db = .ok (progress, db') ↔
      ∃ r ∈ db.requests, AckAllowed r acknowledgement ∧
        db' = db.setRequest r.id
          (ackRequest acknowledgement (effectiveStreamTimestamp r acknowledgement.atMs)) ∧
        progress =
          { requestStateId := r.id, ownerLabel := r.ownerLabel
            streamGeneration := r.streamGeneration, lastDeliveredSeq := r.lastDeliveredSeq
            lastDurableSeq := r.lastDurableSeq
            lastAckedSeq := some acknowledgement.throughSeq, status := r.status
            updatedAtMs := effectiveStreamTimestamp r acknowledgement.atMs } := by
  simp only [acknowledgeResponse, Tx.bind_ok, Tx.check_ok, Tx.require_ok, Tx.pure_ok,
    ensureStreamOwned_ok, and_assoc, exists_and_left, exists_eq_left', exists_const]
  constructor
  · rintro ⟨_, hvalid, r, _, hload, howner, hgen, hexp, hdur, _, _, hupd, rfl, rfl, rfl⟩
    obtain ⟨hr, hid, rfl⟩ := (loadRequestState_iff hs).mp hload
    simp only [validateCumulativeAck, except_bind_ok, ensure_ok] at hvalid
    obtain ⟨_, -, _, -, hadv⟩ := hvalid
    rw [updateRequests_one hs.requestId hr (by simp [hid, howner, hgen, hexp])
      (fun q _ hq => by simp at hq; rw [hq.1.1.1, hid])] at hupd
    exact ⟨r, hr, ⟨hid, howner, hgen, hexp, hadv, hdur⟩, hupd.2.2, rfl⟩
  · rintro ⟨r, hr, h, rfl, rfl⟩
    refine ⟨⟨⟩, validateCumulativeAck_of_allowed (hs.requestCheck r hr) h, r, db,
      (loadRequestState_iff hs).mpr ⟨hr, h.id, rfl⟩, h.owner, h.generation, h.expected,
      h.durable, 1, _, ?_, rfl, rfl, rfl⟩
    rw [updateRequests_one hs.requestId hr (by simp [h.id, h.owner, h.generation, h.expected])
      (fun q _ hq => by simp at hq; rw [hq.1.1.1, h.id])]
    exact ⟨rfl, ackRequest_check (hs.requestCheck r hr) h _, rfl⟩

/-! ## Progress -/

/-- A response id that storage accepts (store.rs:2454–2467). -/
structure ValidResponseId (id : String) : Prop where
  nonempty : id.isEmpty = false
  bytes : id.utf8ByteSize ≤ maxProviderResponseIdBytes
  printable : id.toList.any isControl = false

theorem validateResponseId_ok {id : String} :
    validateResponseId id = .ok u ↔ ValidResponseId id := by
  simp only [validateResponseId, except_bind_ok, ensure_ok]
  constructor
  · rintro ⟨_, ⟨h₁, h₂⟩, h₃⟩
    exact ⟨h₁, h₂, h₃⟩
  · rintro ⟨h₁, h₂, h₃⟩
    exact ⟨⟨⟩, ⟨h₁, h₂⟩, h₃⟩

/-- The conditions on content in `validate_checkpoint`. -/
structure ValidPayload (checkpoint : ResponseCheckpoint) : Prop where
  bytes : checkpoint.appendedText.utf8ByteSize ≤ maxCheckpointBytes
  nul : containsNul checkpoint.appendedText = false
  responseId : ∀ id ∈ checkpoint.providerResponseId, ValidResponseId id
  usage : ∀ u ∈ checkpoint.usage, u.Check

theorem validateCheckpoint_ok : validateCheckpoint checkpoint = .ok u ↔
      checkpoint.expectedLastDurableSeq < checkpoint.throughSeq ∧
        checkpoint.throughSeq ≤ maxSafeInteger ∧ ValidPayload checkpoint := by
  simp only [validateCheckpoint, except_bind_ok, ensure_ok, encodeU64_ok, checkSome_ok,
    validateResponseId_ok, encodeUsage_ok]
  constructor
  · rintro ⟨_, hlt, _, -, _, ⟨hrange, -⟩, _, hbytes, _, hnul, _, hid, husage⟩
    refine ⟨hlt, hrange, hbytes, hnul, fun id h => ?_, fun u h => ?_⟩
    · obtain ⟨_, hvalid⟩ := hid id h
      exact hvalid
    · obtain ⟨_, hcheck, -⟩ := husage u h
      exact hcheck
  · rintro ⟨hlt, hrange, h⟩
    exact ⟨⟨⟩, hlt, _, ⟨by omega, rfl⟩, _, ⟨hrange, rfl⟩, ⟨⟩, h.bytes, ⟨⟩, h.nul, ⟨⟩,
      fun id hid => ⟨⟨⟩, h.responseId id hid⟩, fun u hu => ⟨u, h.usage u hu, rfl⟩⟩

/-- When `apply_response_progress` accepts a checkpoint for the row `r` with the
assistant message `m`. -/
structure ProgressAllowed (r : RequestState) (m : Message) (checkpoint : ResponseCheckpoint) :
    Prop where
  id : r.id = checkpoint.requestStateId
  running : r.status = .running
  owner : r.ownerLabel = checkpoint.ownerLabel
  generation : r.streamGeneration = checkpoint.streamGeneration
  expected : r.lastDurableSeq = checkpoint.expectedLastDurableSeq
  advances : checkpoint.expectedLastDurableSeq < checkpoint.throughSeq
  delivered : checkpoint.throughSeq ≤ r.lastDeliveredSeq
  payload : ValidPayload checkpoint
  sameId : responseIdChanged r.providerResponseId checkpoint.providerResponseId = false
  monotone : usageDecreased r.usage checkpoint.usage = false
  bytes : m.text.utf8ByteSize + checkpoint.appendedText.utf8ByteSize ≤ maxMessageBytes

def Database.touch (db : Database) (chatId : ChatId) (atMs : TimestampMillis) : Database :=
  { db with
    chats := Table.update (fun c => c.id == chatId)
      (fun c => { c with updatedAtMs := max c.updatedAtMs atMs }) db.chats }

theorem touchChat_iff (hchats : ∀ c ∈ db.chats, c.Check) {atMs : TimestampMillis} :
    touchChat chatId atMs db = .ok (n, db') ↔
      db.chats.countP (fun c => c.id == chatId) = n ∧ db' = db.touch chatId atMs := by
  simp only [touchChat, updateChats_ok, Database.touch]
  constructor
  · rintro ⟨rfl, -, rfl⟩
    exact ⟨rfl, rfl⟩
  · rintro ⟨rfl, rfl⟩
    exact ⟨rfl, fun c hc _ =>
      { hchats c hc with updatedAt := (hchats c hc).updatedAt.trans (le_max_left _ _) }, rfl⟩

/-- The rows after an accepted checkpoint. -/
def Database.progressed (db : Database) (checkpoint : ResponseCheckpoint)
    (terminal : Option TerminalOutcome) (r : RequestState) : Database :=
  let atMs := effectiveStreamTimestamp r checkpoint.atMs
  ((db.setMessage r.assistantMessageId (progressMessage checkpoint terminal atMs)).setRequest r.id
    (progressRequest checkpoint terminal r atMs)).touch r.chatId atMs

def progressReply (checkpoint : ResponseCheckpoint) (terminal : Option TerminalOutcome)
    (r : RequestState) (m : Message) : ResponseProgress :=
  { requestStateId := checkpoint.requestStateId, assistantMessageId := r.assistantMessageId
    lastDeliveredSeq := r.lastDeliveredSeq, lastDurableSeq := checkpoint.throughSeq
    lastAckedSeq := r.lastAckedSeq
    textBytes := m.text.utf8ByteSize + checkpoint.appendedText.utf8ByteSize
    status := progressStatus terminal
    updatedAtMs := effectiveStreamTimestamp r checkpoint.atMs }

theorem applyResponseProgress_iff (hs : db.Schema) {terminal : Option TerminalOutcome} :
    applyResponseProgress checkpoint terminal db = .ok (progress, db') ↔
      ∃ r ∈ db.requests, ∃ m ∈ db.messages, m.id = r.assistantMessageId ∧
        m.status = .partialText ∧ ProgressAllowed r m checkpoint ∧
        (progressMessage checkpoint terminal
          (effectiveStreamTimestamp r checkpoint.atMs) m).Check ∧
        (progressRequest checkpoint terminal r
          (effectiveStreamTimestamp r checkpoint.atMs) r).Check ∧
        db' = db.progressed checkpoint terminal r ∧
        progress = progressReply checkpoint terminal r m := by
  have hkey := messageId_keyed hs
  simp only [applyResponseProgress, validateResponseMetadata, Tx.bind_ok, Tx.check_ok,
    Tx.require_ok, Tx.lookup_ok, Tx.pure_ok, validateCheckpoint_ok, ensureRunningAndOwned_ok,
    except_bind_ok, ensure_ok, encodeU64_ok, and_assoc, exists_and_left, exists_eq_left',
    exists_const]
  constructor
  · rintro ⟨hadv, -, hpayload, r, _, hload, hrun, howner, hgen, hexp, hdel, hsame, hmono, m, hfind,
      hbytes, _, -, -, n, db₁, hmsg, hn, _, _, hreq, rfl, _, _, htouch, rfl, rfl⟩
    obtain ⟨hr, hid, rfl⟩ := (loadRequestState_iff hs).mp hload
    obtain ⟨hm, hmid⟩ := hkey.find?_eq.mp hfind
    -- the statement changed a row, so the message it names is still partial
    have hunsealed : m.status = .partialText := by
      obtain ⟨hcount, -, -⟩ := updateMessages_ok.mp hmsg
      have hone := hcount.trans hn
      obtain ⟨q, hq, hp⟩ := List.countP_pos_iff.mp (hone ▸ Nat.one_pos)
      simp only [Bool.and_eq_true, beq_iff_eq] at hp
      rw [← hkey.eq hq hm (hp.1.trans hmid.symm)]
      exact hp.2
    rw [updateMessages_one hkey hm (by simp [hmid, hunsealed])
      (fun q _ hq => by simp at hq; rw [hq.1, hmid])] at hmsg
    obtain ⟨-, hmcheck, rfl⟩ := hmsg
    rw [updateRequests_one (by exact hs.requestId) (by exact hr)
      (by simp [hid, hrun, howner, hgen, hexp])
      (fun q _ hq => by simp at hq; rw [hq.1.1.1.1, hid])] at hreq
    obtain ⟨-, hrcheck, rfl⟩ := hreq
    obtain ⟨-, rfl⟩ := (touchChat_iff (by exact hs.chatCheck)).mp htouch
    rw [hmid]
    exact ⟨r, hr, m, hm, hmid, hunsealed,
      ⟨hid, hrun, howner, hgen, hexp, hadv, hdel, hpayload, hsame, hmono, hbytes⟩, hmcheck,
      hrcheck, rfl, rfl⟩
  · rintro ⟨r, hr, m, hm, hmid, hunsealed, h, hmcheck, hrcheck, rfl, rfl⟩
    have hrange : checkpoint.throughSeq ≤ maxSafeInteger :=
      h.delivered.trans (hs.requestCheck r hr).delivered
    have husage : checkSome encodeUsage (checkpoint.usage.or r.usage) = .ok ⟨⟩ :=
      checkSome_ok.mpr fun u hu => ⟨u, encodeUsage_ok.mpr ⟨hrcheck.usage u hu, rfl⟩⟩
    have hmsg := (updateMessages_one (n := 1) hkey hm
      (p := fun m => m.id == r.assistantMessageId && m.status == .partialText)
      (by simp [hmid, hunsealed]) (fun q _ hq => by simp at hq; rw [hq.1, hmid])).mpr
      ⟨rfl, hmcheck, rfl⟩
    rw [hmid] at hmsg
    have hkept : Table.Keyed RequestState.id (db.setMessage r.assistantMessageId
        (progressMessage checkpoint terminal
          (effectiveStreamTimestamp r checkpoint.atMs))).requests := hs.requestId
    have hreq := (updateRequests_one (n := 1) hkept hr
      (p := fun q => q.id == checkpoint.requestStateId && q.ownerLabel == checkpoint.ownerLabel &&
        q.streamGeneration == checkpoint.streamGeneration && q.status == .running &&
        q.lastDurableSeq == checkpoint.expectedLastDurableSeq)
      (by simp [h.id, h.running, h.owner, h.generation, h.expected])
      (fun q _ hq => by simp at hq; rw [hq.1.1.1.1, h.id])).mpr ⟨rfl, hrcheck, rfl⟩
    exact ⟨h.advances, hrange, h.payload, r, db, (loadRequestState_iff hs).mpr ⟨hr, h.id, rfl⟩,
      h.running, h.owner, h.generation, h.expected, h.delivered, h.sameId, h.monotone, m,
      hkey.find?_eq.mpr ⟨hm, hmid⟩, h.bytes, ⟨⟩, husage, hrange, 1, _, hmsg, rfl, 1, _, hreq, rfl,
      _, _, (touchChat_iff (by exact hs.chatCheck)).mpr ⟨rfl, rfl⟩, rfl, rfl⟩

theorem finishTurn_iff {terminal : TerminalCheckpoint} :
    finishTurn terminal db = .ok (progress, db') ↔
      terminal.outcome ≠ .failed .appRestarted ∧
        applyResponseProgress terminal.checkpoint (some terminal.outcome) db
          = .ok (progress, db') := by
  simp only [finishTurn, Tx.bind_ok, Tx.require_ok, and_assoc, exists_and_left, exists_eq_left',
    exists_const]

/-! ## Recovery -/

theorem recoverInterruptedRequests_ok {recoveredAtMs : TimestampMillis}
    (h : recoverInterruptedRequests recoveredAtMs db = .ok (n, db')) :
    db'.messages = Table.update
        (fun m => (db.requests.filter RequestState.isRunning).any
          fun r => r.assistantMessageId == m.id)
        (recoverMessage recoveredAtMs) db.messages ∧
      db'.activePath = db.activePath ∧
      db'.requests = Table.update RequestState.isRunning (recoverRequest recoveredAtMs)
        db.requests := by
  simp only [recoverInterruptedRequests, Tx.bind_ok, Tx.query_ok, updateChats_ok,
    updateMessages_ok, updateRequests_ok] at h
  obtain ⟨_, _, ⟨rfl, rfl⟩, _, _, ⟨-, -, rfl⟩, _, _, ⟨-, -, rfl⟩, -, -, rfl⟩ := h
  exact ⟨rfl, rfl, rfl⟩

/-! ## Chats -/

/-- Only rows of `chats` differ. -/
structure Database.SameConversation (db db' : Database) : Prop where
  messages : db'.messages = db.messages
  activePath : db'.activePath = db.activePath
  requests : db'.requests = db.requests

theorem createChat_ok {input : CreateChat} {id : ChatId}
    (h : createChat input id db = .ok (chat, db')) : db.SameConversation db' := by
  simp only [createChat, Tx.bind_ok, Tx.check_ok, insertChat_ok, Tx.pure_ok] at h
  obtain ⟨_, _, ⟨-, rfl⟩, _, _, ⟨-, rfl⟩, -, rfl⟩ := h
  exact ⟨rfl, rfl, rfl⟩

theorem findChat_ok : findChat chatId db = .ok (chat, db') ↔
      db.chats.find? (fun c => c.id = chatId) = some chat ∧ db = db' :=
  Tx.lookup_ok

theorem renameChat_ok {revision : Nat} {title : String} {atMs : TimestampMillis}
    (h : renameChat chatId revision title atMs db = .ok (chat, db')) :
    db.SameConversation db' := by
  simp only [renameChat, Tx.bind_ok, Tx.check_ok, Tx.require_ok, updateChats_ok] at h
  obtain ⟨_, _, ⟨-, rfl⟩, _, _, ⟨-, rfl⟩, _, _, ⟨-, rfl⟩, n, _, ⟨-, -, rfl⟩, h⟩ := h
  split at h
  · simp at h
  · simp only [Tx.bind_ok, Tx.check_ok, findChat_ok] at h
    obtain ⟨_, _, ⟨-, rfl⟩, -, rfl⟩ := h
    exact ⟨rfl, rfl, rfl⟩

theorem deleteChat_ok (h : deleteChat chatId db = .ok (u, db')) :
    (∀ r ∈ db.requests, r.chatId = chatId → r.status ≠ .running) ∧
      db' =
        { chats := dropChat Chat.id chatId db.chats
          messages := dropChat Message.chatId chatId db.messages
          activePath := dropChat PathRow.chatId chatId db.activePath
          requests := dropChat RequestState.chatId chatId db.requests } := by
  simp only [deleteChat, deleteChatRow, findChat_ok, Tx.bind_ok, Tx.require_ok, Tx.query_ok,
    Tx.execute_ok, Tx.pure_ok] at h
  obtain ⟨_, _, ⟨-, rfl⟩, _, _, ⟨rfl, rfl⟩, _, _, ⟨hidle, rfl⟩, _, _,
    ⟨_, _, ⟨rfl, rfl⟩, _, _, rfl, rfl, rfl⟩, -, rfl⟩ := h
  refine ⟨fun r hr hc hrun => ?_, rfl⟩
  have := List.any_eq_false.mp hidle r hr
  simp [hc, hrun] at this

/-! ## Turns -/

theorem currentActiveLeaf_ok
    {leaf : Option (MessageId × Nat)} (h : currentActiveLeaf chatId db = .ok (leaf, db')) :
    leaf = (db.activeLeafRow chatId).map (fun row => (row.1.messageId, row.2.depth)) ∧
      db = db' := by
  simp only [currentActiveLeaf, Tx.bind_ok, Tx.query_ok] at h
  obtain ⟨_, _, ⟨rfl, rfl⟩, h⟩ := h
  cases hrow : db.activeLeafRow chatId with
  | none =>
    rw [hrow] at h
    obtain ⟨rfl, rfl⟩ := Tx.pure_ok.mp h
    exact ⟨rfl, rfl⟩
  | some row =>
    rw [hrow] at h
    simp only [Tx.bind_ok, Tx.check_ok, decodeU64_ok, Tx.pure_ok] at h
    obtain ⟨_, _, ⟨⟨-, rfl⟩, rfl⟩, rfl, rfl⟩ := h
    exact ⟨rfl, rfl⟩

/-- Where a message below `leaf` goes: `none` for an empty chat. -/
def childPlace : Option (MessageId × Nat) → Option MessageId × Nat
  | some (messageId, depth) => (some messageId, depth + 1)
  | none => (none, 0)

theorem turnParent_ok {leaf : Option (MessageId × Nat)} {place : Option MessageId × Nat}
    (h : turnParent leaf = .ok place) : place = childPlace leaf := by
  match leaf with
  | none => exact (Except.ok.inj h).symm
  | some (messageId, depth) =>
    simp only [turnParent] at h
    split at h
    · next nextDepth hsum =>
      obtain ⟨-, rfl⟩ := checkedAddU64_eq.mp hsum
      exact (Except.ok.inj h).symm
    · cases h

theorem nextSiblingOrdinal_ok {parentId : Option MessageId}
    (h : nextSiblingOrdinal chatId parentId db = .ok (n, db')) :
    n = (db.lastSibling chatId parentId).getD 0 + 1 ∧ db = db' := by
  simp only [nextSiblingOrdinal, Tx.bind_ok, Tx.query_ok, Tx.lookup_ok, Tx.check_ok,
    checkedAddI64_eq, decodeU64_ok, and_assoc, exists_and_left, exists_eq_left'] at h
  obtain ⟨-, -, rfl, rfl⟩ := h
  exact ⟨rfl, rfl⟩

theorem nextMessageOrdinal_ok (h : nextMessageOrdinal chatId db = .ok (n, db')) :
    n = (db.lastOrdinal chatId).getD 0 + 1 ∧ db = db' := by
  simp only [nextMessageOrdinal, Tx.bind_ok, Tx.query_ok, Tx.lookup_ok, Tx.check_ok,
    checkedAddI64_eq, decodeU64_ok, and_assoc, exists_and_left, exists_eq_left'] at h
  obtain ⟨-, -, rfl, rfl⟩ := h
  exact ⟨rfl, rfl⟩

/-- The place `begin_turn` gives the user's message. -/
structure TurnPlace where
  parentId : Option MessageId
  siblingOrd : Nat
  depth : Nat
  ordinal : Nat

/-- It is the next child of the active leaf. -/
structure TurnPlace.Next (place : TurnPlace) (db : Database) (chatId : ChatId) : Prop where
  leaf : (place.parentId, place.depth) =
    childPlace ((db.activeLeafRow chatId).map fun row => (row.1.messageId, row.2.depth))
  siblingOrd : place.siblingOrd = (db.lastSibling chatId place.parentId).getD 0 + 1
  ordinal : place.ordinal = (db.lastOrdinal chatId).getD 0 + 1
  depthLimit : place.depth + 1 ≤ maxBranchDepth
  agree : (db.lastOrdinal chatId).isSome = (db.activeLeafRow chatId).isSome

def TurnPlace.user (place : TurnPlace) (input : BeginTurn) (ids : TurnIds) : Message :=
  input.userMessage ids place.parentId place.siblingOrd place.depth place.ordinal

def TurnPlace.assistant (place : TurnPlace) (input : BeginTurn) (ids : TurnIds) : Message :=
  input.assistantMessage ids (place.depth + 1) (place.ordinal + 1)

def TurnPlace.pathRows (place : TurnPlace) (input : BeginTurn) (ids : TurnIds) : List PathRow :=
  [{ chatId := input.chatId, position := place.depth, messageId := ids.userMessageId },
   { chatId := input.chatId, position := place.depth + 1, messageId := ids.assistantMessageId }]

/-- The rows after `begin_turn`. -/
def Database.begun (db : Database) (place : TurnPlace) (input : BeginTurn) (ids : TurnIds) :
    Database :=
  Database.touch
    { db with
      messages := db.messages ++ [place.user input ids, place.assistant input ids]
      activePath := db.activePath ++ place.pathRows input ids
      requests := db.requests ++ [input.requestState ids] }
    input.chatId input.startedAtMs

/-- The ids a turn draws are new, and its chat has no other running request. -/
structure TurnFresh (db : Database) (input : BeginTurn) (ids : TurnIds) : Prop where
  user : ∀ n ∈ db.nodes, n.id ≠ ids.userMessageId
  assistant : ∀ n ∈ db.nodes, n.id ≠ ids.assistantMessageId
  distinct : ids.userMessageId ≠ ids.assistantMessageId
  request : ∀ r ∈ db.requests, r.id ≠ ids.requestStateId
  running : ∀ r ∈ db.requests, r.status = .running → r.chatId ≠ input.chatId

theorem beginTurn_ok (hs : db.Schema) {input : BeginTurn} {ids : TurnIds}
    {turn : StartedTurn} (h : beginTurn input ids db = .ok (turn, db')) :
    ∃ place : TurnPlace, place.Next db input.chatId ∧ TurnFresh db input ids ∧
      db' = db.begun place input ids ∧
      turn =
        { requestStateId := ids.requestStateId, userMessageId := ids.userMessageId
          assistantMessageId := ids.assistantMessageId, userOrdinal := place.ordinal
          assistantOrdinal := place.ordinal + 1, ownerLabel := input.ownerLabel
          streamGeneration := input.streamGeneration, lastDeliveredSeq := 0
          lastDurableSeq := 0, lastAckedSeq := none } := by
  simp only [beginTurn, validateBranchDepth, Tx.bind_ok, Tx.check_ok, Tx.require_ok,
    Tx.query_ok, Tx.lookup_ok, Tx.pure_ok, findChat_ok, checkedAddI64_eq, checkedAddU64_eq,
    decodeU64_ok, encodeU64_ok, ensure_ok, insertMessage_ok, insertRequest_ok, and_assoc,
    exists_and_left, exists_eq_left', exists_const] at h
  obtain ⟨_, -, chat, -, -, -, -, -, -, leaf, _, hleaf, hagree, parent, hparent, -, hlimit, sib, _,
    hsib, -, -, huser, -, hassistant, _, _, hpath, hrequest, _, _, htouch, rfl, rfl⟩ := h
  obtain ⟨rfl, rfl⟩ := currentActiveLeaf_ok hleaf
  obtain ⟨rfl, rfl⟩ := nextSiblingOrdinal_ok hsib
  obtain rfl := insertPathRows_ok hpath
  obtain ⟨-, rfl⟩ := (touchChat_iff (by exact hs.chatCheck)).mp htouch
  have huserId := huser.id
  have hassistantId := hassistant.id
  rw [nodes_insert] at hassistantId
  refine ⟨⟨parent.1, (db.lastSibling input.chatId parent.1).getD 0 + 1, parent.2,
      (db.lastOrdinal input.chatId).getD 0 + 1⟩,
    { leaf := turnParent_ok hparent, siblingOrd := rfl, ordinal := rfl, depthLimit := hlimit
      agree := by rw [hagree, Option.isSome_map] }, ?_, ?_, rfl⟩
  · exact
      { user := huserId
        assistant := fun n hn => hassistantId n (List.mem_append_left _ hn)
        distinct := hassistantId _ (List.mem_append_right _ (List.mem_singleton_self _))
        request := hrequest.id
        running := fun r hr hrun => hrequest.running rfl r hr (isRunning_iff.mpr hrun) }
  · simp only [Database.begun, TurnPlace.user, TurnPlace.assistant, TurnPlace.pathRows,
      List.append_assoc, List.cons_append, List.nil_append]

/-! ## Branches -/

theorem messageDepth_ok {messageId : MessageId} {d : Nat}
    (h : messageDepth chatId messageId db = .ok (d, db')) :
    (∃ n ∈ db.nodes, n.chatId = chatId ∧ n.id = messageId ∧ n.depth = d) ∧
      d ≤ maxBranchDepth ∧ db = db' := by
  simp only [messageDepth, validateBranchDepth, Tx.bind_ok, Tx.lookup_ok, Tx.check_ok,
    Tx.pure_ok, decodeU64_ok, ensure_ok, and_assoc, exists_and_left, exists_eq_left',
    exists_const] at h
  obtain ⟨n, hfind, -, hlimit, rfl, rfl⟩ := h
  have hn : n.chatId = chatId ∧ n.id = messageId := by simpa using List.find?_some hfind
  exact ⟨⟨n, List.mem_of_find?_eq_some hfind, hn.1, hn.2, rfl⟩, hlimit, rfl⟩

/-- The rows of `active_path` after the path has been replaced. -/
def Database.replacedPath (db : Database) (chatId : ChatId) (leaf : MessageId)
    (pathLength : Nat) : List PathRow :=
  let ancestry := db.ancestry chatId leaf
  let divergence := pathDivergence (db.ancestryOnPath chatId ancestry) pathLength
  (db.activePath.filter fun p => !(p.chatId == chatId && decide (divergence ≤ p.position))) ++
    ancestrySuffix chatId ancestry divergence

theorem replaceActivePath_ok {leaf : MessageId}
    {pathLength : Nat} (h : replaceActivePath chatId leaf db = .ok (pathLength, db')) :
    (∃ n ∈ db.nodes, n.chatId = chatId ∧ n.id = leaf ∧ n.depth + 1 = pathLength ∧
      n.depth ≤ maxBranchDepth) ∧
      db' = { db with activePath := db.replacedPath chatId leaf pathLength } := by
  simp only [replaceActivePath, deletePathSuffix, Tx.bind_ok, Tx.lookup_ok, Tx.check_ok,
    Tx.require_ok, Tx.query_ok, Tx.execute_ok, Tx.pure_ok, checkedAddU64_eq, encodeU64_ok,
    and_assoc, exists_and_left, exists_eq_left', exists_const] at h
  obtain ⟨d, _, hdepth, -, -, -, -, -, -, -, _, _, hinsert, -, rfl, rfl⟩ := h
  obtain ⟨⟨n, hn, hchat, hid, rfl⟩, hlimit, rfl⟩ := messageDepth_ok hdepth
  refine ⟨⟨n, hn, hchat, hid, rfl, hlimit⟩, ?_⟩
  rw [← insertPathRows_ok hinsert]
  rfl

theorem ensureExpectedActiveLeaf_ok {expected : Option MessageId}
    (h : ensureExpectedActiveLeaf chatId expected db = .ok (u, db')) : db = db' := by
  simp only [ensureExpectedActiveLeaf, Tx.bind_ok, Tx.require_ok] at h
  obtain ⟨_, _, hleaf, -, rfl⟩ := h
  exact (currentActiveLeaf_ok hleaf).2

theorem selectActivePath_ok (hs : db.Schema) {input : SelectActivePath}
    {selection : ActivePathSelection} (h : selectActivePath input db = .ok (selection, db')) :
    ∃ pathLength db₁, replaceActivePath input.chatId input.leafMessageId db
        = .ok (pathLength, db₁) ∧
      db' = db₁.touch input.chatId input.atMs := by
  simp only [selectActivePath, findChat_ok, Tx.bind_ok, Tx.pure_ok, and_assoc, exists_and_left,
    exists_eq_left'] at h
  obtain ⟨_, -, _, _, hexpected, pathLength, db₁, hreplace, _, _, htouch, -, rfl⟩ := h
  obtain rfl := ensureExpectedActiveLeaf_ok hexpected
  obtain ⟨-, rfl⟩ := replaceActivePath_ok hreplace
  obtain ⟨-, rfl⟩ := (touchChat_iff (by exact hs.chatCheck)).mp htouch
  exact ⟨pathLength, _, hreplace, rfl⟩

theorem branchDepth_ok {parentId : Option MessageId}
    {d : Nat} (h : branchDepth chatId parentId db = .ok (d, db')) : db = db' := by
  cases parentId with
  | none =>
    simp only [branchDepth, Tx.pure_ok] at h
    exact h.2
  | some parentId =>
    simp only [branchDepth, Tx.bind_ok, Tx.lookup_ok] at h
    obtain ⟨_, _, hdepth, -, rfl⟩ := h
    exact (messageDepth_ok hdepth).2.2

theorem appendBranchMessage_ok (hs : db.Schema)
    {input : AppendBranchMessage} {id : MessageId} {result : AppendedBranchMessage}
    (h : appendBranchMessage input id db = .ok (result, db')) :
    ∃ depth pathLength db₁,
      let message := input.message id ((db.lastSibling input.chatId input.parentId).getD 0 + 1)
        depth ((db.lastOrdinal input.chatId).getD 0 + 1)
      depth ≤ maxBranchDepth ∧ db.AdmitsMessage message ∧
        replaceActivePath input.chatId id { db with messages := db.messages ++ [message] }
          = .ok (pathLength, db₁) ∧
        db' = db₁.touch input.chatId input.atMs := by
  simp only [appendBranchMessage, validateBranchDepth, findChat_ok, queryMessage, Tx.bind_ok,
    Tx.check_ok, Tx.require_ok, Tx.lookup_ok, Tx.pure_ok, encodeU64_ok, ensure_ok,
    insertMessage_ok, and_assoc, exists_and_left, exists_eq_left', exists_const] at h
  obtain ⟨_, -, _, -, -, _, _, hexpected, depth, _, hdepth, hlimit, _, _, hsib, _, _, hord, -, -,
    -, hadmits, pathLength, db₁, hreplace, _, _, htouch, _, -, _, -, -, rfl⟩ := h
  obtain rfl := ensureExpectedActiveLeaf_ok hexpected
  obtain rfl := branchDepth_ok hdepth
  obtain ⟨rfl, rfl⟩ := nextSiblingOrdinal_ok hsib
  obtain ⟨rfl, rfl⟩ := nextMessageOrdinal_ok hord
  obtain ⟨-, rfl⟩ := replaceActivePath_ok hreplace
  obtain ⟨-, rfl⟩ := (touchChat_iff (by exact hs.chatCheck)).mp htouch
  exact ⟨depth, pathLength, _, hlimit, hadmits, hreplace, rfl⟩

end Calls

/-! ## One call -/

/-- An accepted checkpoint: the rows it was accepted for, and the state it left. -/
structure Progressed (db : Database) (checkpoint : ResponseCheckpoint)
    (terminal : Option TerminalOutcome) (db' : Database) (r : RequestState) (m : Message) :
    Prop where
  request : r ∈ db.requests
  message : m ∈ db.messages
  assistant : m.id = r.assistantMessageId
  partialText : m.status = .partialText
  allowed : ProgressAllowed r m checkpoint
  state : db' = db.progressed checkpoint terminal r

/-- What a successful call did, operation by operation. -/
inductive Effect (db : Database) : Call → Database → Prop
  | createChat {input id db'} : db.SameConversation db' → Effect db (.createChat input id) db'
  | renameChat {chatId revision title atMs db'} : db.SameConversation db' →
      Effect db (.renameChat chatId revision title atMs) db'
  | deleteChat {chatId} : (∀ r ∈ db.requests, r.chatId = chatId → r.status ≠ .running) →
      Effect db (.deleteChat chatId)
        { chats := dropChat Chat.id chatId db.chats
          messages := dropChat Message.chatId chatId db.messages
          activePath := dropChat PathRow.chatId chatId db.activePath
          requests := dropChat RequestState.chatId chatId db.requests }
  | beginTurn {input ids} (place : TurnPlace) : place.Next db input.chatId →
      TurnFresh db input ids → Effect db (.beginTurn input ids) (db.begun place input ids)
  | deliver {checkpoint} (r : RequestState) : r ∈ db.requests → DeliveryAllowed r checkpoint →
      Effect db (.recordResponseDelivery checkpoint)
        (db.setRequest r.id
          (deliverRequest checkpoint (effectiveStreamTimestamp r checkpoint.atMs)))
  | acknowledge {ack} (r : RequestState) : r ∈ db.requests → AckAllowed r ack →
      Effect db (.acknowledgeResponse ack)
        (db.setRequest r.id (ackRequest ack (effectiveStreamTimestamp r ack.atMs)))
  | checkpoint {checkpoint db'} (r : RequestState) (m : Message) :
      Progressed db checkpoint none db' r m → Effect db (.checkpointResponse checkpoint) db'
  | finish {terminal db'} (r : RequestState) (m : Message) :
      terminal.outcome ≠ .failed .appRestarted →
      Progressed db terminal.checkpoint (some terminal.outcome) db' r m →
      Effect db (.finishTurn terminal) db'
  | append {input id} (depth pathLength : Nat) (db₁ : Database) (message : Message) :
      message = input.message id ((db.lastSibling input.chatId input.parentId).getD 0 + 1)
        depth ((db.lastOrdinal input.chatId).getD 0 + 1) →
      depth ≤ maxBranchDepth → db.AdmitsMessage message →
      replaceActivePath input.chatId id { db with messages := db.messages ++ [message] }
        = .ok (pathLength, db₁) →
      Effect db (.appendBranchMessage input id) (db₁.touch input.chatId input.atMs)
  | select {input} (pathLength : Nat) (db₁ : Database) :
      replaceActivePath input.chatId input.leafMessageId db = .ok (pathLength, db₁) →
      Effect db (.selectActivePath input) (db₁.touch input.chatId input.atMs)
  | restart {recoveredAtMs db'} :
      db'.messages = Table.update
          (fun m => (db.requests.filter RequestState.isRunning).any
            fun r => r.assistantMessageId == m.id)
          (recoverMessage recoveredAtMs) db.messages →
      db'.activePath = db.activePath →
      db'.requests = Table.update RequestState.isRunning (recoverRequest recoveredAtMs)
        db.requests →
      Effect db (.restart recoveredAtMs) db'

variable {db db' : Database}

theorem progressed_of_ok {checkpoint : ResponseCheckpoint} {progress : ResponseProgress}
    {terminal : Option TerminalOutcome} (hs : db.Schema)
    (h : applyResponseProgress checkpoint terminal db = .ok (progress, db')) :
    ∃ r m, Progressed db checkpoint terminal db' r m := by
  obtain ⟨r, hr, m, hm, hmid, hunsealed, hallowed, -, -, hdb, -⟩ :=
    (applyResponseProgress_iff hs).mp h
  exact ⟨r, m, hr, hm, hmid, hunsealed, hallowed, hdb⟩

theorem transaction_effect (hs : db.Schema) {call : Call}
    {response : Response} (h : transaction call db = .ok (response, db')) :
    Effect db call db' := by
  cases call with
  | createChat input id =>
    obtain ⟨_, h, -⟩ := Tx.map_ok.mp h
    exact .createChat (createChat_ok h)
  | renameChat chatId revision title atMs =>
    obtain ⟨_, h, -⟩ := Tx.map_ok.mp h
    exact .renameChat (renameChat_ok h)
  | deleteChat chatId =>
    obtain ⟨_, h, -⟩ := Tx.map_ok.mp h
    obtain ⟨hidle, rfl⟩ := deleteChat_ok h
    exact .deleteChat hidle
  | beginTurn input ids =>
    obtain ⟨_, h, -⟩ := Tx.map_ok.mp h
    obtain ⟨place, hnext, hfresh, rfl, -⟩ := beginTurn_ok hs h
    exact .beginTurn place hnext hfresh
  | recordResponseDelivery checkpoint =>
    obtain ⟨_, h, -⟩ := Tx.map_ok.mp h
    obtain ⟨r, hr, hallowed, rfl, -⟩ := (recordResponseDelivery_iff hs).mp h
    exact .deliver r hr hallowed
  | acknowledgeResponse ack =>
    obtain ⟨_, h, -⟩ := Tx.map_ok.mp h
    obtain ⟨r, hr, hallowed, rfl, -⟩ := (acknowledgeResponse_iff hs).mp h
    exact .acknowledge r hr hallowed
  | checkpointResponse checkpoint =>
    obtain ⟨_, h, -⟩ := Tx.map_ok.mp h
    obtain ⟨r, m, hp⟩ := progressed_of_ok hs h
    exact .checkpoint r m hp
  | finishTurn terminal =>
    obtain ⟨_, h, -⟩ := Tx.map_ok.mp h
    obtain ⟨hcode, h⟩ := finishTurn_iff.mp h
    obtain ⟨r, m, hp⟩ := progressed_of_ok hs h
    exact .finish r m hcode hp
  | appendBranchMessage input id =>
    obtain ⟨_, h, -⟩ := Tx.map_ok.mp h
    obtain ⟨depth, pathLength, db₁, hlimit, hadmits, hreplace, rfl⟩ := appendBranchMessage_ok hs h
    exact .append depth pathLength db₁ _ rfl hlimit hadmits hreplace
  | selectActivePath input =>
    obtain ⟨_, h, -⟩ := Tx.map_ok.mp h
    obtain ⟨pathLength, db₁, hreplace, rfl⟩ := selectActivePath_ok hs h
    exact .select pathLength db₁ hreplace
  | restart recoveredAtMs =>
    obtain ⟨_, h, -⟩ := Tx.map_ok.mp h
    obtain ⟨hm, hp, hr⟩ := recoverInterruptedRequests_ok h
    exact .restart hm hp hr

theorem exec_cases (hs : db.Schema) (call : Call) : (∃ e, store.exec call db = (.error e, db)) ∨
      ∃ response db', store.exec call db = (.ok response, db') ∧ Effect db call db' := by
  show (∃ e, (transaction call).commit db = _) ∨ ∃ response db', (transaction call).commit db = _ ∧ _
  rcases h : transaction call db with e | ⟨response, db'⟩
  · exact .inl ⟨e, Tx.commit_of_error h⟩
  · exact .inr ⟨response, db', Tx.commit_of_ok h, transaction_effect hs h⟩

theorem exec_preserves {I : Database → Prop} {call : Call}
    (heffect : ∀ db db', db.Schema → I db → Effect db call db' → I db') (hs : db.Schema)
    (h : I db) : I (store.exec call db).2 := by
  rcases exec_cases hs call with ⟨e, he⟩ | ⟨response, db', he, heff⟩
  · rw [he]
    exact h
  · rw [he]
    exact heffect db db' hs h heff

end Lorepia.Storage
