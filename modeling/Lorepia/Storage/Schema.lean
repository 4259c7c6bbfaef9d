import Mathlib
import Lorepia.Storage.Model

/-!
# The constraints of schema version 3 and the statements under them

What SQLite itself guarantees about the four tables (migrations 0001–0003): the `CHECK`s of each
row, the `UNIQUE` columns and indexes, the foreign keys and the `messages_parent_bi` trigger.
The insert and update statements carry exactly the conditions they can break. `Schema` collects
the guarantees; every statement keeps it, so an operation built from statements does.

The columns no statement ever assigns (`Message.node`, `RequestState.identity`) are grouped:
every key and every foreign key is made of them.
-/

namespace Lorepia.Storage

open Lorepia.Table (Keyed)

def constraintFailed : StorageError := .database "constraint failed"

/-! ## Column groups -/

/-- The columns of a message that are never updated: its place in the conversation
tree, its author and its date. -/
structure Node where
  id : MessageId
  chatId : ChatId
  parentId : Option MessageId
  siblingOrd : Nat
  depth : Nat
  ordinal : Nat
  role : MessageRole
  createdAtMs : TimestampMillis
  deriving DecidableEq

def Message.node (m : Message) : Node :=
  { id := m.id, chatId := m.chatId, parentId := m.parentId, siblingOrd := m.siblingOrd,
    depth := m.depth, ordinal := m.ordinal, role := m.role, createdAtMs := m.createdAtMs }

def Database.nodes (db : Database) : List Node := db.messages.map Message.node

/-- The columns of a request that are never updated. -/
structure RequestIdentity where
  id : RequestStateId
  chatId : ChatId
  userMessageId : MessageId
  assistantMessageId : MessageId
  selection : ProviderSelection
  ownerLabel : StreamOwnerLabel
  streamGeneration : StreamGeneration
  startedAtMs : TimestampMillis
  deriving DecidableEq

def RequestState.identity (r : RequestState) : RequestIdentity :=
  { id := r.id, chatId := r.chatId, userMessageId := r.userMessageId,
    assistantMessageId := r.assistantMessageId, selection := r.selection,
    ownerLabel := r.ownerLabel, streamGeneration := r.streamGeneration,
    startedAtMs := r.startedAtMs }

/-- `UNIQUE (chat_id, ordinal)`. -/
def Node.ordinalKey (n : Node) : ChatId × Nat := (n.chatId, n.ordinal)

/-- `messages_unique_child_sibling` and `messages_unique_root_sibling` together: a
root has no parent, so the two partial indexes never meet. -/
def Node.siblingKey (n : Node) : ChatId × Option MessageId × Nat :=
  (n.chatId, n.parentId, n.siblingOrd)

/-- `PRIMARY KEY (chat_id, position)`. -/
def PathRow.positionKey (p : PathRow) : ChatId × Nat := (p.chatId, p.position)

/-- `UNIQUE (chat_id, message_id)`. -/
def PathRow.messageKey (p : PathRow) : ChatId × MessageId := (p.chatId, p.messageId)

/-- The `WHERE` of `request_state_one_running_per_chat`. -/
def RequestState.isRunning (r : RequestState) : Bool := r.status == .running

/-! ## Row checks -/

/-- The `CHECK`s of `chats` (0001). -/
@[mk_iff]
structure Chat.Check (c : Chat) : Prop where
  revision : 1 ≤ c.revision ∧ c.revision ≤ maxSafeInteger
  updatedAt : c.createdAtMs ≤ c.updatedAtMs
  title : c.title.utf8ByteSize ≤ 1024

instance (c : Chat) : Decidable c.Check := decidable_of_iff _ (Chat.check_iff c).symm

/-- The `CHECK`s of `messages` (0003). -/
@[mk_iff]
structure Message.Check (m : Message) : Prop where
  siblingOrd : 1 ≤ m.siblingOrd ∧ m.siblingOrd ≤ maxSafeInteger
  depth : m.depth ≤ maxSafeInteger
  ordinal : 1 ≤ m.ordinal ∧ m.ordinal ≤ maxSafeInteger
  updatedAt : m.createdAtMs ≤ m.updatedAtMs
  completedAt : m.completedAtMs.all (fun t => decide (m.createdAtMs ≤ t)) = true
  text : m.text.utf8ByteSize ≤ 1048576
  role : m.role = .user → m.status = .complete
  completed : m.status = .complete ↔ m.completedAtMs.isSome = true
  parent : m.parentId = none ↔ m.depth = 0

instance (m : Message) : Decidable m.Check := decidable_of_iff _ (Message.check_iff m).symm

/-- The `CHECK` of `active_path` (0003). -/
def PathRow.Check (p : PathRow) : Prop := p.position ≤ maxSafeInteger

instance (p : PathRow) : Decidable p.Check := inferInstanceAs (Decidable (_ ≤ _))

/-- Which outcomes go together (the last `CHECK` of `request_state`). -/
def RequestState.OutcomeCheck (r : RequestState) : Prop :=
  (r.status = .running ∧ r.finishedAtMs = none ∧ r.failureCode = none) ∨
  ((r.status = .completed ∨ r.status = .cancelled) ∧ r.finishedAtMs.isSome = true ∧
    r.failureCode = none) ∨
  (r.status = .failed ∧ r.finishedAtMs.isSome = true ∧ r.failureCode.isSome = true ∧
    r.failureCode ≠ some .appRestarted) ∨
  (r.status = .interrupted ∧ r.finishedAtMs.isSome = true ∧
    r.failureCode = some .appRestarted)

instance (r : RequestState) : Decidable r.OutcomeCheck := by
  delta RequestState.OutcomeCheck
  infer_instance

def TokenUsage.Check (u : TokenUsage) : Prop :=
  u.inputTokens ≤ maxSafeInteger ∧ u.outputTokens ≤ maxSafeInteger ∧
    u.cachedInputTokens ≤ maxSafeInteger ∧ u.reasoningTokens ≤ maxSafeInteger

instance (u : TokenUsage) : Decidable u.Check := by
  delta TokenUsage.Check
  infer_instance

/-- The `CHECK`s of `request_state` (0003). -/
@[mk_iff]
structure RequestState.Check (r : RequestState) : Prop where
  delivered : r.lastDeliveredSeq ≤ maxSafeInteger
  durable : r.lastDurableSeq ≤ r.lastDeliveredSeq
  acked : ∀ s ∈ r.lastAckedSeq, 1 ≤ s ∧ s ≤ r.lastDurableSeq
  responseId : ∀ id ∈ r.providerResponseId, 1 ≤ id.utf8ByteSize ∧ id.utf8ByteSize ≤ 256
  usage : ∀ u ∈ r.usage, u.Check
  updatedAt : r.startedAtMs ≤ r.updatedAtMs
  finishedAt : r.finishedAtMs.all (fun t => decide (r.startedAtMs ≤ t)) = true
  outcome : r.OutcomeCheck

instance (r : RequestState) : Decidable r.Check := decidable_of_iff _ (RequestState.check_iff r).symm

/-! ## Statements -/

/-- What `INSERT INTO chats` requires. -/
@[mk_iff]
structure Database.AdmitsChat (db : Database) (c : Chat) : Prop where
  check : c.Check
  id : ∀ c' ∈ db.chats, c'.id ≠ c.id

instance (db : Database) (c : Chat) : Decidable (db.AdmitsChat c) :=
  decidable_of_iff _ (Database.admitsChat_iff db c).symm

/-- What `INSERT INTO messages` requires: the checks, the foreign keys, the unique
columns and the trigger `messages_parent_bi`. -/
@[mk_iff]
structure Database.AdmitsMessage (db : Database) (m : Message) : Prop where
  check : m.Check
  chat : ∃ c ∈ db.chats, c.id = m.chatId
  parent : ∀ p ∈ m.parentId,
    ∃ q ∈ db.nodes, q.chatId = m.chatId ∧ q.id = p ∧ q.depth + 1 = m.depth
  id : ∀ n ∈ db.nodes, n.id ≠ m.id
  ordinal : ∀ n ∈ db.nodes, n.ordinalKey ≠ m.node.ordinalKey
  sibling : ∀ n ∈ db.nodes, n.siblingKey ≠ m.node.siblingKey

instance (db : Database) (m : Message) : Decidable (db.AdmitsMessage m) :=
  decidable_of_iff _ (Database.admitsMessage_iff db m).symm

/-- What `INSERT INTO active_path` requires. -/
@[mk_iff]
structure Database.AdmitsPathRow (db : Database) (p : PathRow) : Prop where
  check : p.Check
  chat : ∃ c ∈ db.chats, c.id = p.chatId
  message : ∃ n ∈ db.nodes, n.chatId = p.chatId ∧ n.id = p.messageId
  position : ∀ q ∈ db.activePath, q.positionKey ≠ p.positionKey
  unique : ∀ q ∈ db.activePath, q.messageKey ≠ p.messageKey

instance (db : Database) (p : PathRow) : Decidable (db.AdmitsPathRow p) :=
  decidable_of_iff _ (Database.admitsPathRow_iff db p).symm

/-- What `INSERT INTO request_state` requires, the partial index
`request_state_one_running_per_chat` included. -/
@[mk_iff]
structure Database.AdmitsRequest (db : Database) (r : RequestState) : Prop where
  check : r.Check
  chat : ∃ c ∈ db.chats, c.id = r.chatId
  user : ∃ n ∈ db.nodes, n.chatId = r.chatId ∧ n.id = r.userMessageId
  assistant : ∃ n ∈ db.nodes, n.chatId = r.chatId ∧ n.id = r.assistantMessageId
  id : ∀ q ∈ db.requests, q.id ≠ r.id
  generation : ∀ q ∈ db.requests, q.streamGeneration ≠ r.streamGeneration
  running : r.isRunning = true → ∀ q ∈ db.requests, q.isRunning = true → q.chatId ≠ r.chatId

instance (db : Database) (r : RequestState) : Decidable (db.AdmitsRequest r) :=
  decidable_of_iff _ (Database.admitsRequest_iff db r).symm

def insertChat (c : Chat) (onConstraint : StorageError) : StoreTx Unit :=
  Tx.guarded (·.AdmitsChat c) onConstraint fun db => { db with chats := db.chats ++ [c] }

def insertMessage (m : Message) (onConstraint : StorageError) : StoreTx Unit :=
  Tx.guarded (·.AdmitsMessage m) onConstraint fun db =>
    { db with messages := db.messages ++ [m] }

def insertPathRow (p : PathRow) : StoreTx Unit :=
  Tx.guarded (·.AdmitsPathRow p) constraintFailed fun db =>
    { db with activePath := db.activePath ++ [p] }

def insertPathRows : List PathRow → StoreTx Unit
  | [] => pure ()
  | p :: ps => do
    insertPathRow p
    insertPathRows ps

def insertRequest (r : RequestState) (onConstraint : StorageError) : StoreTx Unit :=
  Tx.guarded (·.AdmitsRequest r) onConstraint fun db =>
    { db with requests := db.requests ++ [r] }

/-- `UPDATE chats SET f WHERE p`; the result is the number of changed rows. -/
def updateChats (p : Chat → Bool) (f : Chat → Chat) : StoreTx Nat :=
  Tx.counted (fun db => db.chats.countP p) (fun db => ∀ c ∈ db.chats, p c = true → (f c).Check)
    constraintFailed fun db => { db with chats := Table.update p f db.chats }

/-- `UPDATE messages SET f WHERE p`. No statement of the store assigns a column of
`Message.node`, so no key, foreign key or parent trigger is involved. -/
def updateMessages (p : Message → Bool) (f : Message → Message) : StoreTx Nat :=
  Tx.counted (fun db => db.messages.countP p)
    (fun db => ∀ m ∈ db.messages, p m = true → (f m).Check)
    constraintFailed fun db => { db with messages := Table.update p f db.messages }

/-- `UPDATE request_state SET f WHERE p`. No statement assigns a column of
`RequestState.identity` or makes a row running that was not. -/
def updateRequests (p : RequestState → Bool) (f : RequestState → RequestState) : StoreTx Nat :=
  Tx.counted (fun db => db.requests.countP p)
    (fun db => ∀ r ∈ db.requests, p r = true → (f r).Check)
    constraintFailed fun db => { db with requests := Table.update p f db.requests }

def dropChat {α : Type} (chatOf : α → ChatId) (chatId : ChatId) (t : List α) : List α :=
  t.filter fun r => chatOf r != chatId

/-- `DELETE FROM chats WHERE id = chatId`. The `ON DELETE CASCADE` keys take every
row of the chat with it: each of them names the chat, and a parent or a referenced
message is in the same chat. -/
def deleteChatRow (chatId : ChatId) : StoreTx Nat := do
  let changed ← Tx.query fun db => db.chats.countP fun c => c.id == chatId
  Tx.execute fun db =>
    { chats := dropChat Chat.id chatId db.chats
      messages := dropChat Message.chatId chatId db.messages
      activePath := dropChat PathRow.chatId chatId db.activePath
      requests := dropChat RequestState.chatId chatId db.requests }
  pure changed

/-- `DELETE FROM active_path WHERE chat_id = chatId AND position >= from`. -/
def deletePathSuffix (chatId : ChatId) (start : Nat) : StoreTx Unit :=
  Tx.execute fun db =>
    { db with
      activePath := db.activePath.filter fun p => !(p.chatId == chatId && decide (start ≤ p.position)) }

/-! ## What the constraints guarantee -/

/-- The guarantees of the schema, for all rows at once. -/
structure Database.Schema (db : Database) : Prop where
  chatCheck : ∀ c ∈ db.chats, c.Check
  chatId : Keyed Chat.id db.chats
  messageCheck : ∀ m ∈ db.messages, m.Check
  messageId : Keyed Node.id db.nodes
  messageOrdinal : Keyed Node.ordinalKey db.nodes
  messageSibling : Keyed Node.siblingKey db.nodes
  messageChat : ∀ n ∈ db.nodes, ∃ c ∈ db.chats, c.id = n.chatId
  messageParent : ∀ n ∈ db.nodes, ∀ p ∈ n.parentId,
    ∃ q ∈ db.nodes, q.chatId = n.chatId ∧ q.id = p ∧ q.depth + 1 = n.depth
  pathCheck : ∀ p ∈ db.activePath, p.Check
  pathPosition : Keyed PathRow.positionKey db.activePath
  pathUnique : Keyed PathRow.messageKey db.activePath
  pathMessage : ∀ p ∈ db.activePath, ∃ n ∈ db.nodes, n.chatId = p.chatId ∧ n.id = p.messageId
  requestCheck : ∀ r ∈ db.requests, r.Check
  requestId : Keyed RequestState.id db.requests
  requestGeneration : Keyed RequestState.streamGeneration db.requests
  requestRunning : Keyed RequestState.chatId (db.requests.filter RequestState.isRunning)
  requestUser : ∀ r ∈ db.requests, ∃ n ∈ db.nodes, n.chatId = r.chatId ∧ n.id = r.userMessageId
  requestAssistant : ∀ r ∈ db.requests,
    ∃ n ∈ db.nodes, n.chatId = r.chatId ∧ n.id = r.assistantMessageId

theorem schema_empty : ({} : Database).Schema where
  chatCheck := by simp
  chatId := Keyed.nil
  messageCheck := by simp
  messageId := Keyed.nil
  messageOrdinal := Keyed.nil
  messageSibling := Keyed.nil
  messageChat := by simp [Database.nodes]
  messageParent := by simp [Database.nodes]
  pathCheck := by simp
  pathPosition := Keyed.nil
  pathUnique := Keyed.nil
  pathMessage := by simp
  requestCheck := by simp
  requestId := Keyed.nil
  requestGeneration := Keyed.nil
  requestRunning := Keyed.nil
  requestUser := by simp
  requestAssistant := by simp

variable {db db' : Database} {p : Message → Bool} {f : Message → Message} {e : StorageError}
  {u : Unit} {n : Nat}

@[simp] theorem mem_nodes {n : Node} : n ∈ db.nodes ↔ ∃ m ∈ db.messages, m.node = n := by
  simp [Database.nodes]

theorem nodes_insert (db : Database) (m : Message) :
    ({ db with messages := db.messages ++ [m] } : Database).nodes = db.nodes ++ [m.node] := by
  simp [Database.nodes]

theorem nodes_update (db : Database) (hf : ∀ m, (f m).node = m.node) :
    ({ db with messages := Table.update p f db.messages } : Database).nodes = db.nodes :=
  Table.map_update hf db.messages

/-! ## Every statement keeps the guarantees -/

theorem insertChat_schema (c : Chat) (e : StorageError) :
    Tx.Preserves Database.Schema (insertChat c e) :=
  Tx.Preserves.guarded fun _ hc hs =>
    { hs with
      chatCheck := Table.forall_insert hs.chatCheck hc.check
      chatId := hs.chatId.insert hc.id
      messageChat := fun n hn => Table.exists_insert c (hs.messageChat n hn) }

theorem insertMessage_schema (m : Message) (e : StorageError) :
    Tx.Preserves Database.Schema (insertMessage m e) := by
  refine Tx.Preserves.guarded fun db hm hs => ?_
  refine
    { hs with
      messageCheck := Table.forall_insert hs.messageCheck hm.check
      messageId := ?_, messageOrdinal := ?_, messageSibling := ?_, messageChat := ?_
      messageParent := ?_, pathMessage := ?_, requestUser := ?_, requestAssistant := ?_ }
  all_goals rw [nodes_insert]
  · exact hs.messageId.insert hm.id
  · exact hs.messageOrdinal.insert hm.ordinal
  · exact hs.messageSibling.insert hm.sibling
  · exact Table.forall_insert hs.messageChat hm.chat
  · refine Table.forall_insert (fun n hn p hp => ?_) fun p hp => ?_
    · exact Table.exists_insert _ (hs.messageParent n hn p hp)
    · exact Table.exists_insert _ (hm.parent p hp)
  · exact fun p hp => Table.exists_insert _ (hs.pathMessage p hp)
  · exact fun r hr => Table.exists_insert _ (hs.requestUser r hr)
  · exact fun r hr => Table.exists_insert _ (hs.requestAssistant r hr)

theorem insertPathRow_schema (p : PathRow) :
    Tx.Preserves Database.Schema (insertPathRow p) :=
  Tx.Preserves.guarded fun _ hp hs =>
    { hs with
      pathCheck := Table.forall_insert hs.pathCheck hp.check
      pathPosition := hs.pathPosition.insert hp.position
      pathUnique := hs.pathUnique.insert hp.unique
      pathMessage := Table.forall_insert hs.pathMessage hp.message }

theorem insertPathRows_schema (ps : List PathRow) :
    Tx.Preserves Database.Schema (insertPathRows ps) := by
  induction ps with
  | nil => exact Tx.Preserves.pure ()
  | cons p ps ih => exact (insertPathRow_schema p).bind fun _ => ih

theorem insertRequest_schema (r : RequestState) (e : StorageError) :
    Tx.Preserves Database.Schema (insertRequest r e) := by
  refine Tx.Preserves.guarded fun db hr hs => ?_
  refine
    { hs with
      requestCheck := Table.forall_insert hs.requestCheck hr.check
      requestId := hs.requestId.insert hr.id
      requestGeneration := hs.requestGeneration.insert hr.generation
      requestRunning := ?_
      requestUser := Table.forall_insert hs.requestUser hr.user
      requestAssistant := Table.forall_insert hs.requestAssistant hr.assistant }
  show Keyed _ ((db.requests ++ [r]).filter _)
  rw [List.filter_append, List.filter_singleton]
  by_cases hrun : r.isRunning = true
  · rw [hrun]
    refine hs.requestRunning.insert fun q hq => ?_
    exact hr.running hrun q (List.mem_of_mem_filter hq) (List.mem_filter.mp hq).2
  · rw [Bool.not_eq_true] at hrun
    rw [hrun]
    simpa using hs.requestRunning

theorem updateChats_schema {p : Chat → Bool} {f : Chat → Chat} (hf : ∀ c, (f c).id = c.id) :
    Tx.Preserves Database.Schema (updateChats p f) := by
  refine Tx.Preserves.counted fun db hc hs => ?_
  exact
    { hs with
      chatCheck := Table.forall_update hs.chatCheck hc
      chatId := hs.chatId.update hf
      messageChat := fun n hn => Table.exists_update
        (fun c _ h => (hf c).trans h) (hs.messageChat n hn) }

theorem updateMessages_schema
    (hf : ∀ m, (f m).node = m.node) : Tx.Preserves Database.Schema (updateMessages p f) := by
  refine Tx.Preserves.counted fun db hm hs => ?_
  have hn := nodes_update db (p := p) hf
  exact
    { hs with
      messageCheck := Table.forall_update hs.messageCheck hm
      messageId := hn ▸ hs.messageId
      messageOrdinal := hn ▸ hs.messageOrdinal
      messageSibling := hn ▸ hs.messageSibling
      messageChat := hn ▸ hs.messageChat
      messageParent := hn ▸ hs.messageParent
      pathMessage := hn ▸ hs.pathMessage
      requestUser := hn ▸ hs.requestUser
      requestAssistant := hn ▸ hs.requestAssistant }

theorem updateRequests_schema {p : RequestState → Bool} {f : RequestState → RequestState}
    (hf : ∀ r, (f r).identity = r.identity)
    (hrun : ∀ r, (f r).isRunning = true → p r = true → r.isRunning = true) :
    Tx.Preserves Database.Schema (updateRequests p f) := by
  refine Tx.Preserves.counted fun db hr hs => ?_
  have hid : ∀ {β : Type} (g : RequestIdentity → β) r, g (f r).identity = g r.identity :=
    fun g r => congrArg g (hf r)
  refine
    { hs with
      requestCheck := Table.forall_update hs.requestCheck hr
      requestId := hs.requestId.update (hid RequestIdentity.id)
      requestGeneration := hs.requestGeneration.update (hid RequestIdentity.streamGeneration)
      requestRunning := hs.requestRunning.filter_update (hid RequestIdentity.chatId) hrun
      requestUser := Table.forall_update hs.requestUser fun r hr _ => ?_
      requestAssistant := Table.forall_update hs.requestAssistant fun r hr _ => ?_ }
  · have h := hs.requestUser r hr
    rwa [← show (f r).chatId = r.chatId from hid RequestIdentity.chatId r,
      ← show (f r).userMessageId = r.userMessageId from hid RequestIdentity.userMessageId r] at h
  · have h := hs.requestAssistant r hr
    rwa [← show (f r).chatId = r.chatId from hid RequestIdentity.chatId r,
      ← show (f r).assistantMessageId = r.assistantMessageId from
        hid RequestIdentity.assistantMessageId r] at h

theorem mem_nodes_deleteChat {chatId : ChatId} {n : Node} :
    n ∈ (db.messages.filter fun m => m.chatId != chatId).map Message.node ↔
      n ∈ db.nodes ∧ n.chatId ≠ chatId := by
  simp only [List.mem_map, List.mem_filter, mem_nodes, bne_iff_ne]
  constructor
  · rintro ⟨m, ⟨hm, hc⟩, rfl⟩
    exact ⟨⟨m, hm, rfl⟩, hc⟩
  · rintro ⟨⟨m, hm, rfl⟩, hc⟩
    exact ⟨m, ⟨hm, hc⟩, rfl⟩

/-- Deleting a chat leaves no dangling key: whatever the row of another chat points
at is in that other chat too. -/
theorem deleteChatRow_schema (chatId : ChatId) :
    Tx.Preserves Database.Schema (deleteChatRow chatId) := by
  refine (Tx.Preserves.query _).bind fun _ => (Tx.Preserves.execute fun db hs => ?_).bind
    fun _ => Tx.Preserves.pure _
  have hkept : ∀ {α : Type} {chatOf : α → ChatId} {t : List α} {r : α},
      r ∈ dropChat chatOf chatId t ↔ r ∈ t ∧ chatOf r ≠ chatId := by
    intro α chatOf t r
    simp [dropChat]
  -- a node other rows of its chat point at is kept together with them
  have hnode : ∀ {c : ChatId} {P : Node → Prop}, c ≠ chatId →
      (∃ n ∈ db.nodes, n.chatId = c ∧ P n) →
      ∃ n ∈ (dropChat Message.chatId chatId db.messages).map Message.node, n.chatId = c ∧ P n := by
    rintro c P hc ⟨n, hn, rfl, hP⟩
    exact ⟨n, mem_nodes_deleteChat.mpr ⟨hn, hc⟩, rfl, hP⟩
  have hsub : List.Sublist ((dropChat Message.chatId chatId db.messages).map Message.node)
      db.nodes := List.Sublist.map _ List.filter_sublist
  have hkeyed : ∀ {κ : Type} {k : Node → κ}, Keyed k db.nodes →
      Keyed k ((dropChat Message.chatId chatId db.messages).map Message.node) :=
    fun h => List.Nodup.sublist (hsub.map _) h
  refine
    { chatCheck := fun c hc => hs.chatCheck c (hkept.mp hc).1
      chatId := hs.chatId.filter _
      messageCheck := fun m hm => hs.messageCheck m (hkept.mp hm).1
      messageId := hkeyed hs.messageId
      messageOrdinal := hkeyed hs.messageOrdinal
      messageSibling := hkeyed hs.messageSibling
      messageChat := fun n hn => ?_
      messageParent := fun n hn p hp => ?_
      pathCheck := fun p hp => hs.pathCheck p (hkept.mp hp).1
      pathPosition := hs.pathPosition.filter _
      pathUnique := hs.pathUnique.filter _
      pathMessage := fun p hp => hnode (hkept.mp hp).2 (hs.pathMessage p (hkept.mp hp).1)
      requestCheck := fun r hr => hs.requestCheck r (hkept.mp hr).1
      requestId := hs.requestId.filter _
      requestGeneration := hs.requestGeneration.filter _
      requestRunning := ?_
      requestUser := fun r hr => hnode (hkept.mp hr).2 (hs.requestUser r (hkept.mp hr).1)
      requestAssistant := fun r hr =>
        hnode (hkept.mp hr).2 (hs.requestAssistant r (hkept.mp hr).1) }
  · obtain ⟨hn, hc⟩ := mem_nodes_deleteChat.mp hn
    obtain ⟨c, hcm, hid⟩ := hs.messageChat n hn
    exact ⟨c, hkept.mpr ⟨hcm, hid ▸ hc⟩, hid⟩
  · obtain ⟨hn, hc⟩ := mem_nodes_deleteChat.mp hn
    exact hnode hc (hs.messageParent n hn p hp)
  · show Keyed _ (List.filter _ (List.filter _ _))
    rw [List.filter_comm]
    exact hs.requestRunning.filter _

theorem deletePathSuffix_schema (chatId : ChatId) (start : Nat) :
    Tx.Preserves Database.Schema (deletePathSuffix chatId start) :=
  Tx.Preserves.execute fun _ hs =>
    { hs with
      pathCheck := fun p hp => hs.pathCheck p (List.mem_of_mem_filter hp)
      pathPosition := hs.pathPosition.filter _
      pathUnique := hs.pathUnique.filter _
      pathMessage := fun p hp => hs.pathMessage p (List.mem_of_mem_filter hp) }

/-! ## What a successful statement did -/

@[simp] theorem insertChat_ok {c : Chat} : insertChat c e db = .ok (u, db') ↔
      db.AdmitsChat c ∧ { db with chats := db.chats ++ [c] } = db' :=
  Tx.guarded_ok

@[simp] theorem insertMessage_ok {m : Message} : insertMessage m e db = .ok (u, db') ↔
      db.AdmitsMessage m ∧ { db with messages := db.messages ++ [m] } = db' :=
  Tx.guarded_ok

@[simp] theorem insertPathRow_ok {p : PathRow} : insertPathRow p db = .ok (u, db') ↔
      db.AdmitsPathRow p ∧ { db with activePath := db.activePath ++ [p] } = db' :=
  Tx.guarded_ok

theorem insertPathRows_ok {ps : List PathRow} (h : insertPathRows ps db = .ok (u, db')) :
    { db with activePath := db.activePath ++ ps } = db' := by
  induction ps generalizing db with
  | nil => simpa [insertPathRows] using h
  | cons p ps ih =>
    obtain ⟨_, db₁, h₁, h₂⟩ := Tx.bind_ok.mp h
    obtain ⟨-, rfl⟩ := insertPathRow_ok.mp h₁
    simpa using ih h₂

@[simp] theorem insertRequest_ok {r : RequestState} : insertRequest r e db = .ok (u, db') ↔
      db.AdmitsRequest r ∧ { db with requests := db.requests ++ [r] } = db' :=
  Tx.guarded_ok

@[simp] theorem updateChats_ok {p : Chat → Bool} {f : Chat → Chat} :
    updateChats p f db = .ok (n, db') ↔
      db.chats.countP p = n ∧ (∀ c ∈ db.chats, p c = true → (f c).Check) ∧
        { db with chats := Table.update p f db.chats } = db' :=
  Tx.counted_ok

@[simp] theorem updateMessages_ok : updateMessages p f db = .ok (n, db') ↔
      db.messages.countP p = n ∧ (∀ m ∈ db.messages, p m = true → (f m).Check) ∧
        { db with messages := Table.update p f db.messages } = db' :=
  Tx.counted_ok

@[simp] theorem updateRequests_ok {p : RequestState → Bool} {f : RequestState → RequestState} :
    updateRequests p f db = .ok (n, db') ↔
      db.requests.countP p = n ∧ (∀ r ∈ db.requests, p r = true → (f r).Check) ∧
        { db with requests := Table.update p f db.requests } = db' :=
  Tx.counted_ok

end Lorepia.Storage
