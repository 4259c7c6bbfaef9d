import Mathlib
import Lorepia.Lib.Keyset
import Lorepia.Storage.Paging
import Lorepia.Storage.Rebuild

/-!
# The listings of the store (store.rs:257–310, 901–1146)

`list_chats`, `load_active_path`, `load_branch_children` and `load_message_timeline`
page through the rows of one query each. They fetch one row more than the limit to see
whether there are more, and give the key of the last row they return as the cursor.
`load_recent_messages` pages backwards and may also cut a page by its bytes.

For a client who follows the cursors to see every row once, the `WHERE` of a listing has to be
the strict part of its `ORDER BY`, no two rows may tie in the whole of it, and no stored row may
be refused when it is decoded, which is an invariant of the operations (`reachable_readable`).
-/

namespace Lorepia.Storage

open Lorepia
open Lorepia.Table (Keyed)
open Lorepia.Keyset

/-! ## The functions -/

structure ChatCursor where
  updatedAtMs : TimestampMillis
  chatId : ChatId
  deriving DecidableEq

structure BranchCursor where
  siblingOrd : Nat
  messageId : MessageId
  deriving DecidableEq

structure MessageTimelineCursor where
  createdAtMs : TimestampMillis
  messageId : MessageId
  deriving DecidableEq

structure ActivePathEntry where
  position : Nat
  message : Message
  deriving DecidableEq

def ensureChatExists (db : Database) (chatId : ChatId) : Except StorageError Unit :=
  ensure (db.chats.any (fun c => c.id == chatId) = true) (.notFound "chat")

def decodeActivePathEntry (raw : ActivePathEntry) : Except StorageError ActivePathEntry := do
  let position ← decodeU64 raw.position
  let message ← decodeMessage raw.message
  .ok { position, message }

/-- The end of every listing: whether there are more rows is read off the fetched ones,
the returned ones are decoded, and the last of them gives the cursor. -/
def decodedPage {α κ : Type} (decode : α → Except StorageError α) (cursorOf : α → κ) (limit : Nat)
    (raw : List α) : Except StorageError (Page α κ) := do
  let hasMore := decide (limit < raw.length)
  let rows ← (raw.take limit).mapM decode
  .ok ⟨rows, if hasMore then rows.getLast?.map cursorOf else none⟩

/-- `ORDER BY updated_at_ms DESC, id DESC`. The texts of two ids compare as the ids do:
they are hexadecimal with all digits. -/
def Chat.recency (c : Chat) : (TimestampMillis ×ₗ Nat)ᵒᵈ :=
  OrderDual.toDual (toLex (c.updatedAtMs, c.id.uuid.toNat))

def Chat.cursor (c : Chat) : ChatCursor := { updatedAtMs := c.updatedAtMs, chatId := c.id }

/-- `updated_at_ms < ?1 OR (updated_at_ms = ?1 AND id < ?2)`, where there is a cursor. -/
def beforeChat (before : Option ChatCursor) (c : Chat) : Bool :=
  before.all fun cursor => decide (c.updatedAtMs < cursor.updatedAtMs ∨
    c.updatedAtMs = cursor.updatedAtMs ∧ c.id.uuid < cursor.chatId.uuid)

def listChats (db : Database) (limit : Nat) (before : Option ChatCursor) :
    Except StorageError (Page Chat ChatCursor) := do
  validatePageSize limit
  let rawChats := (orderBy Chat.recency (db.chats.filter (beforeChat before))).take (limit + 1)
  decodedPage decodeChat Chat.cursor limit rawChats

/-- `p.position > ?2`, where there is a cursor. -/
def afterPosition (after : Option Nat) (row : PathRow) : Bool :=
  after.all fun position => decide (position < row.position)

def encodeCursor (field : String) : Option Nat → Except StorageError (Option Nat)
  | none => .ok none
  | some value => some <$> encodeU64 value field

def Database.pathEntries (db : Database) (chatId : ChatId) (p : PathRow → Bool) :
    List ActivePathEntry :=
  (db.pathMessages chatId p).map fun row => { position := row.1.position, message := row.2 }

def loadActivePath (db : Database) (chatId : ChatId) (after : Option Nat) (limit : Nat) :
    Except StorageError (Page ActivePathEntry Nat) := do
  validatePageSize limit
  ensureChatExists db chatId
  let after ← encodeCursor "active path position" after
  let rawEntries := (orderBy ActivePathEntry.position
    (db.pathEntries chatId (afterPosition after))).take (limit + 1)
  decodedPage decodeActivePathEntry ActivePathEntry.position limit rawEntries

/-- `ORDER BY sibling_ord ASC, id ASC`. -/
def Message.siblingPlace (m : Message) : Nat ×ₗ Nat := toLex (m.siblingOrd, m.id.uuid.toNat)

def Message.branchCursor (m : Message) : BranchCursor :=
  { siblingOrd := m.siblingOrd, messageId := m.id }

/-- `sibling_ord > ?3 OR (sibling_ord = ?3 AND id > ?4)`, where there is a cursor. -/
def afterSibling (after : Option BranchCursor) (m : Message) : Bool :=
  after.all fun cursor => decide (cursor.siblingOrd < m.siblingOrd ∨
    m.siblingOrd = cursor.siblingOrd ∧ cursor.messageId.uuid < m.id.uuid)

def Database.branches (db : Database) (chatId : ChatId) (parentId : Option MessageId) :
    List Message :=
  db.messages.filter fun m => m.chatId == chatId && m.parentId == parentId

/-- `message_depth(..)?` for a parent that is given. -/
def checkParent (db : Database) (chatId : ChatId) : Option MessageId → Except StorageError Unit
  | none => .ok ()
  | some parentId => do
    let _ ← messageDepth chatId parentId db
    .ok ()

def loadBranchChildren (db : Database) (chatId : ChatId) (parentId : Option MessageId)
    (after : Option BranchCursor) (limit : Nat) :
    Except StorageError (Page Message BranchCursor) := do
  validatePageSize limit
  ensureChatExists db chatId
  checkParent db chatId parentId
  let _ ← encodeCursor "message sibling ordinal" (after.map BranchCursor.siblingOrd)
  let rawMessages := (orderBy Message.siblingPlace
    ((db.branches chatId parentId).filter (afterSibling after))).take (limit + 1)
  decodedPage decodeMessage Message.branchCursor limit rawMessages

/-- `ORDER BY created_at_ms ASC, id ASC`. -/
def Message.timelinePlace (m : Message) : TimestampMillis ×ₗ Nat :=
  toLex (m.createdAtMs, m.id.uuid.toNat)

def Message.timelineCursor (m : Message) : MessageTimelineCursor :=
  { createdAtMs := m.createdAtMs, messageId := m.id }

/-- `created_at_ms > ?2 OR (created_at_ms = ?2 AND id > ?3)`, where there is a cursor. -/
def afterMessage (after : Option MessageTimelineCursor) (m : Message) : Bool :=
  after.all fun cursor => decide (cursor.createdAtMs < m.createdAtMs ∨
    m.createdAtMs = cursor.createdAtMs ∧ cursor.messageId.uuid < m.id.uuid)

def loadMessageTimeline (db : Database) (chatId : ChatId) (after : Option MessageTimelineCursor)
    (limit : Nat) : Except StorageError (Page Message MessageTimelineCursor) := do
  validatePageSize limit
  ensureChatExists db chatId
  let rawMessages := (orderBy Message.timelinePlace
    ((db.messages.filter fun m => m.chatId == chatId).filter (afterMessage after))).take (limit + 1)
  decodedPage decodeMessage Message.timelineCursor limit rawMessages

/-! ## Stored texts can be read -/

/-- No stored text contains a null character, which `validate_persisted_text` refuses. -/
structure Database.Readable (db : Database) : Prop where
  titles : ∀ c ∈ db.chats, containsNul c.title = false
  texts : ∀ m ∈ db.messages, containsNul m.text = false

section Readable

variable {db db' : Database}

theorem containsNul_append (a b : String) :
    containsNul (a ++ b) = (containsNul a || containsNul b) := by
  rw [containsNul, String.toList_append, Bool.eq_iff_iff]
  simp [containsNul]

variable {u : Unit}

theorem validateUserMessage_nul {text : String} (h : validateUserMessage text = .ok u) :
    containsNul text = false := by
  simp only [validateUserMessage, except_bind_ok, ensure_ok] at h
  obtain ⟨_, -, _, -, hnul⟩ := h
  exact hnul

theorem validateCompleteMessage_nul {role : MessageRole} {text : String}
    (h : validateCompleteMessage role text = .ok u) : containsNul text = false := by
  cases role with
  | user => exact validateUserMessage_nul h
  | assistant =>
    simp only [validateCompleteMessage, except_bind_ok, ensure_ok] at h
    obtain ⟨_, -, hnul⟩ := h
    exact hnul

theorem validateChatTitle_nul {title : String} (h : validateChatTitle title = .ok u) :
    containsNul title = false := by
  simp only [validateChatTitle, except_bind_ok, ensure_ok] at h
  obtain ⟨_, -, hnul⟩ := h
  exact hnul

theorem Database.Readable.touch (h : db.Readable) (chatId : ChatId) (atMs : TimestampMillis) :
    (db.touch chatId atMs).Readable where
  titles := Table.forall_update h.titles fun c hc _ => h.titles c hc
  texts := h.texts

theorem createChat_readable (h : db.Readable) {input : CreateChat} {id : ChatId} {chat : Chat}
    (hok : createChat input id db = .ok (chat, db')) : db'.Readable := by
  simp only [createChat, Tx.bind_ok, Tx.check_ok, insertChat_ok, Tx.pure_ok] at hok
  obtain ⟨_, _, ⟨htitle, rfl⟩, _, _, ⟨-, rfl⟩, -, rfl⟩ := hok
  exact ⟨Table.forall_insert h.titles (validateChatTitle_nul htitle), h.texts⟩

theorem renameChat_readable (h : db.Readable) {chatId : ChatId} {revision : Nat} {title : String}
    {atMs : TimestampMillis} {chat : Chat}
    (hok : renameChat chatId revision title atMs db = .ok (chat, db')) : db'.Readable := by
  simp only [renameChat, Tx.bind_ok, Tx.check_ok, Tx.require_ok, updateChats_ok] at hok
  obtain ⟨_, _, ⟨htitle, rfl⟩, _, _, ⟨-, rfl⟩, _, _, ⟨-, rfl⟩, n, _, ⟨-, -, rfl⟩, hok⟩ := hok
  split at hok
  · simp at hok
  · simp only [Tx.bind_ok, Tx.check_ok, findChat_ok] at hok
    obtain ⟨_, _, ⟨-, rfl⟩, -, rfl⟩ := hok
    exact ⟨Table.forall_update h.titles fun _ _ _ => validateChatTitle_nul htitle, h.texts⟩

theorem recoverInterruptedRequests_readable (h : db.Readable) {recoveredAtMs : TimestampMillis}
    {n : Nat} (hok : recoverInterruptedRequests recoveredAtMs db = .ok (n, db')) :
    db'.Readable := by
  simp only [recoverInterruptedRequests, Tx.bind_ok, Tx.query_ok, updateChats_ok,
    updateMessages_ok, updateRequests_ok] at hok
  obtain ⟨_, _, ⟨rfl, rfl⟩, _, _, ⟨-, -, rfl⟩, _, _, ⟨-, -, rfl⟩, -, -, rfl⟩ := hok
  exact ⟨Table.forall_update h.titles fun c hc _ => h.titles c hc,
    Table.forall_update h.texts fun m hm _ => h.texts m hm⟩

theorem Progressed.readable (h : db.Readable) {checkpoint : ResponseCheckpoint}
    {terminal : Option TerminalOutcome} {r : RequestState} {m : Message}
    (hp : Progressed db checkpoint terminal db' r m) : db'.Readable := by
  obtain rfl := hp.state
  unfold Database.progressed
  refine Database.Readable.touch ?_ _ _
  refine ⟨h.titles, Table.forall_update h.texts fun x hx _ => ?_⟩
  show containsNul (x.text ++ checkpoint.appendedText) = false
  rw [containsNul_append, h.texts x hx, hp.allowed.payload.nul]
  rfl

theorem transaction_readable (hs : db.Schema) (h : db.Readable) {call : Call} {response : Response}
    (hok : transaction call db = .ok (response, db')) : db'.Readable := by
  have heffect := transaction_effect hs hok
  cases heffect with
  | createChat =>
    obtain ⟨_, hok, -⟩ := Tx.map_ok.mp hok
    exact createChat_readable h hok
  | renameChat =>
    obtain ⟨_, hok, -⟩ := Tx.map_ok.mp hok
    exact renameChat_readable h hok
  | deleteChat =>
    exact ⟨fun c hc => h.titles c (List.mem_of_mem_filter hc),
      fun m hm => h.texts m (List.mem_of_mem_filter hm)⟩
  | beginTurn place =>
    obtain ⟨_, hok, -⟩ := Tx.map_ok.mp hok
    obtain ⟨_, _, htext, -⟩ := Tx.bind_ok.mp hok
    unfold Database.begun
    refine Database.Readable.touch ?_ _ _
    refine ⟨h.titles, fun m hm => ?_⟩
    rcases List.mem_append.mp hm with hm | hm
    · exact h.texts m hm
    · rcases List.mem_pair.mp hm with rfl | rfl
      · exact validateUserMessage_nul (Tx.check_ok.mp htext).1
      · rfl
  | deliver => exact ⟨h.titles, h.texts⟩
  | acknowledge => exact ⟨h.titles, h.texts⟩
  | checkpoint r m hp => exact hp.readable h
  | finish r m hcode hp => exact hp.readable h
  | append depth pathLength db₁ message hmessage hlimit hadmits hreplace =>
    obtain ⟨_, hok, -⟩ := Tx.map_ok.mp hok
    obtain ⟨_, _, htext, -⟩ := Tx.bind_ok.mp hok
    obtain ⟨-, rfl⟩ := replaceActivePath_ok hreplace
    refine Database.Readable.touch ?_ _ _
    refine ⟨h.titles, Table.forall_insert h.texts ?_⟩
    rw [hmessage]
    exact validateCompleteMessage_nul (Tx.check_ok.mp htext).1
  | select pathLength db₁ hreplace =>
    obtain ⟨-, rfl⟩ := replaceActivePath_ok hreplace
    refine Database.Readable.touch ?_ _ _
    exact ⟨h.titles, h.texts⟩
  | restart =>
    obtain ⟨_, hok, -⟩ := Tx.map_ok.mp hok
    exact recoverInterruptedRequests_readable h hok

theorem reachable_readable (h : Reachable db) : db.Readable := by
  have hboth : db.Schema ∧ db.Readable := by
    refine Server.Reachable.invariant (I := fun db => db.Schema ∧ db.Readable)
      (fun db call hdb => ⟨(transaction_schema call).commit hdb.1, ?_⟩)
      ⟨schema_empty, by simp, by simp⟩ h
    show ((transaction call).commit db).2.Readable
    rcases hok : transaction call db with e | ⟨response, db'⟩
    · rw [Tx.commit_of_error hok]
      exact hdb.2
    · rw [Tx.commit_of_ok hok]
      exact transaction_readable hdb.1 hdb.2 hok
  exact hboth.2

end Readable

/-! ## Each listing serves its rows -/

/-- What the listings need of the database. -/
structure Database.Listed (db : Database) : Prop where
  schema : db.Schema
  readable : db.Readable
  shallow : db.Shallow

theorem reachable_listed {db : Database} (h : Reachable db) : db.Listed :=
  ⟨reachable_schema h, reachable_readable h, reachable_shallow h⟩

/-- The page sizes `validate_page_size` accepts. -/
def ValidPageSize (limit : Nat) : Prop := limit ≠ 0 ∧ limit ≤ maxPageSize

section Decode

variable {db : Database}

variable {limit : Nat} {α : Type}

theorem validatePageSize_ok (h : ValidPageSize limit) : validatePageSize limit = .ok () :=
  ensure_ok.mpr h

theorem mapM_ok_self {ε : Type} {decode : α → Except ε α} {rows : List α}
    (h : ∀ r ∈ rows, decode r = .ok r) : rows.mapM decode = .ok rows := by
  induction rows with
  | nil => rfl
  | cons r rows ih =>
    rw [List.mapM_cons, h r List.mem_cons_self, ih fun x hx => h x (List.mem_cons_of_mem _ hx)]
    rfl

theorem decodedPage_eq {κ : Type} {decode : α → Except StorageError α} {cursorOf : α → κ}
    {raw : List α} (h : ∀ r ∈ raw, decode r = .ok r) :
    decodedPage decode cursorOf limit raw = .ok (lookAhead cursorOf limit raw) := by
  rw [decodedPage, mapM_ok_self fun r hr => h r (List.mem_of_mem_take hr)]
  simp only [lookAhead, bind, Except.bind, decide_eq_true_eq]

theorem Database.Listed.decodeChat (h : db.Listed) {c : Chat} (hc : c ∈ db.chats) :
    decodeChat c = .ok c := by
  have hcheck := h.schema.chatCheck c hc
  simp only [Storage.decodeChat, validatePersistedText, except_bind_ok, ensure_ok, decodeU64_ok,
    except_pure_ok]
  exact ⟨⟨⟩, ⟨hcheck.title, h.readable.titles c hc⟩, _, ⟨hcheck.revision.2, rfl⟩, trivial⟩

theorem Database.Listed.decodeMessage (h : db.Listed) {m : Message} (hm : m ∈ db.messages) :
    decodeMessage m = .ok m := by
  have hcheck := h.schema.messageCheck m hm
  simp only [Storage.decodeMessage, validatePersistedText, except_bind_ok, ensure_ok, decodeU64_ok,
    except_pure_ok]
  exact ⟨⟨⟩, ⟨hcheck.text, h.readable.texts m hm⟩, _, ⟨hcheck.siblingOrd.2, rfl⟩, _,
    ⟨hcheck.depth, rfl⟩, _, ⟨hcheck.ordinal.2, rfl⟩, trivial⟩

theorem mem_of_mem_page {ρ : Type} [LinearOrder ρ] {key : α → ρ} {rows : List α} {p : α → Bool}
    {r : α} (hr : r ∈ (orderBy key (rows.filter p)).take limit) : r ∈ rows :=
  (List.mem_filter.mp ((orderBy_perm _ _).mem_iff.mp (List.mem_of_mem_take hr))).1

end Decode

/-! ### The orders -/

theorem toLex_id_inj {β : Type} {a b : β} {x y : BitVec 128}
    (h : toLex (a, x.toNat) = toLex (b, y.toNat)) : x = y :=
  BitVec.eq_of_toNat_eq (Prod.mk.inj (toLex.injective h)).2

theorem Chat.id_eq_of_recency {c c' : Chat} (h : c.recency = c'.recency) : c.id = c'.id :=
  congrArg ChatId.mk (toLex_id_inj (OrderDual.toDual.injective h))

theorem Message.id_eq_of_siblingPlace {m m' : Message} (h : m.siblingPlace = m'.siblingPlace) :
    m.id = m'.id :=
  congrArg MessageId.mk (toLex_id_inj h)

theorem Message.id_eq_of_timelinePlace {m m' : Message} (h : m.timelinePlace = m'.timelinePlace) :
    m.id = m'.id :=
  congrArg MessageId.mk (toLex_id_inj h)

theorem Chat.recency_lt {a b : Chat} : a.recency < b.recency ↔
    b.updatedAtMs < a.updatedAtMs ∨ b.updatedAtMs = a.updatedAtMs ∧ b.id.uuid < a.id.uuid := by
  simp only [Chat.recency, OrderDual.toDual_lt_toDual, Prod.Lex.toLex_lt_toLex, BitVec.lt_def]

theorem Message.siblingPlace_lt {a b : Message} : a.siblingPlace < b.siblingPlace ↔
    a.siblingOrd < b.siblingOrd ∨ a.siblingOrd = b.siblingOrd ∧ a.id.uuid < b.id.uuid := by
  simp only [Message.siblingPlace, Prod.Lex.toLex_lt_toLex, BitVec.lt_def]

theorem Message.timelinePlace_lt {a b : Message} : a.timelinePlace < b.timelinePlace ↔
    a.createdAtMs < b.createdAtMs ∨ a.createdAtMs = b.createdAtMs ∧ a.id.uuid < b.id.uuid := by
  simp only [Message.timelinePlace, Prod.Lex.toLex_lt_toLex, BitVec.lt_def]

theorem beforeChat_map (last : Option Chat) (c : Chat) :
    beforeChat (last.map Chat.cursor) c = last.all fun a => decide (a.recency < c.recency) := by
  cases last with
  | none => rfl
  | some a =>
    simp only [beforeChat, Option.map_some, Option.all_some, Chat.cursor, Chat.recency_lt]

theorem afterSibling_map (last : Option Message) (m : Message) :
    afterSibling (last.map Message.branchCursor) m =
      last.all fun a => decide (a.siblingPlace < m.siblingPlace) := by
  cases last with
  | none => rfl
  | some a =>
    simp only [afterSibling, Option.map_some, Option.all_some, Message.branchCursor,
      Message.siblingPlace_lt, eq_comm]

theorem afterMessage_map (last : Option Message) (m : Message) :
    afterMessage (last.map Message.timelineCursor) m =
      last.all fun a => decide (a.timelinePlace < m.timelinePlace) := by
  cases last with
  | none => rfl
  | some a =>
    simp only [afterMessage, Option.map_some, Option.all_some, Message.timelineCursor,
      Message.timelinePlace_lt, eq_comm]

/-! ### The pages -/

section Listings

variable {db : Database} {chat : Chat}

theorem chats_keyed (hs : db.Schema) : Keyed Chat.recency db.chats :=
  hs.chatId.refine fun _ _ => Chat.id_eq_of_recency

theorem timeline_keyed (hs : db.Schema) (chatId : ChatId) :
    Keyed Message.timelinePlace (db.messages.filter fun m => m.chatId == chatId) :=
  ((messageId_keyed hs).filter _).refine fun _ _ => Message.id_eq_of_timelinePlace

theorem branches_keyed (hs : db.Schema) (chatId : ChatId) (parentId : Option MessageId) :
    Keyed Message.siblingPlace (db.branches chatId parentId) :=
  ((messageId_keyed hs).filter _).refine fun _ _ => Message.id_eq_of_siblingPlace

theorem listChats_serves (h : db.Listed) :
    Serves (fun cursor limit => listChats db limit cursor) ValidPageSize Chat.cursor
      (orderBy Chat.recency db.chats) := by
  refine serves_of_query (chats_keyed h.schema) (fun _ hlimit => hlimit.1) fun last _ limit hlimit => ?_
  simp only [listChats, validatePageSize_ok hlimit, bind, Except.bind, funext (beforeChat_map last)]
  exact decodedPage_eq fun c hc => h.decodeChat (mem_of_mem_page hc)

theorem ensureChatExists_ok (hchat : chat ∈ db.chats) : ensureChatExists db chat.id = .ok () :=
  ensure_ok.mpr (List.any_eq_true.mpr ⟨chat, hchat, by simp⟩)

theorem encodeCursor_ok {field : String} {cursor : Option Nat}
    (h : ∀ value ∈ cursor, value ≤ maxSafeInteger) : encodeCursor field cursor = .ok cursor := by
  cases cursor with
  | none => rfl
  | some value =>
    have hvalue : encodeU64 value field = .ok value := encodeU64_ok.mpr ⟨h value rfl, rfl⟩
    rw [encodeCursor, hvalue]
    rfl

theorem loadMessageTimeline_serves (h : db.Listed) (hchat : chat ∈ db.chats) :
    Serves (fun cursor limit => loadMessageTimeline db chat.id cursor limit) ValidPageSize
      Message.timelineCursor
      (orderBy Message.timelinePlace (db.messages.filter fun m => m.chatId == chat.id)) := by
  refine serves_of_query (timeline_keyed h.schema chat.id) (fun _ hlimit => hlimit.1)
    fun last _ limit hlimit => ?_
  simp only [loadMessageTimeline, validatePageSize_ok hlimit, ensureChatExists_ok hchat, bind,
    Except.bind, funext (afterMessage_map last)]
  exact decodedPage_eq fun m hm => h.decodeMessage (List.mem_of_mem_filter (mem_of_mem_page hm))

variable {chatId : ChatId} {p : PathRow → Bool}

theorem checkParent_ok (h : db.Listed) {parentId : Option MessageId}
    (hparent : ∀ p ∈ parentId, ∃ n ∈ db.nodes, n.chatId = chatId ∧ n.id = p) :
    checkParent db chatId parentId = .ok () := by
  cases parentId with
  | none => rfl
  | some p =>
    obtain ⟨n, hn, rfl, rfl⟩ := hparent p rfl
    rw [checkParent, messageDepth_succeeds h.schema hn (h.shallow n hn)]
    rfl

theorem loadBranchChildren_serves (h : db.Listed) (hchat : chat ∈ db.chats)
    {parentId : Option MessageId}
    (hparent : ∀ p ∈ parentId, ∃ n ∈ db.nodes, n.chatId = chat.id ∧ n.id = p) :
    Serves (fun cursor limit => loadBranchChildren db chat.id parentId cursor limit) ValidPageSize
      Message.branchCursor (orderBy Message.siblingPlace (db.branches chat.id parentId)) := by
  refine serves_of_query (branches_keyed h.schema chat.id parentId) (fun _ hlimit => hlimit.1)
    fun last hlast limit hlimit => ?_
  have hencode : encodeCursor "message sibling ordinal"
      ((last.map Message.branchCursor).map BranchCursor.siblingOrd) =
        .ok ((last.map Message.branchCursor).map BranchCursor.siblingOrd) := by
    refine encodeCursor_ok fun value hvalue => ?_
    rw [Option.map_map] at hvalue
    obtain ⟨m, hm, rfl⟩ := Option.mem_map.mp hvalue
    exact (h.schema.messageCheck m (List.mem_of_mem_filter (hlast m hm))).siblingOrd.2
  simp only [loadBranchChildren, validatePageSize_ok hlimit, ensureChatExists_ok hchat,
    checkParent_ok h hparent, hencode, bind, Except.bind, funext (afterSibling_map last)]
  exact decodedPage_eq fun m hm => h.decodeMessage (List.mem_of_mem_filter (mem_of_mem_page hm))

theorem pathMessages_fst (hs : db.Schema) (chatId : ChatId) (p : PathRow → Bool) :
    (db.pathMessages chatId p).map Prod.fst =
      db.activePath.filter fun row => row.chatId == chatId && p row := by
  refine Table.join_fst fun row hrow => ?_
  obtain ⟨n, hn, hchat, hid⟩ := hs.pathMessage row (List.mem_of_mem_filter hrow)
  obtain ⟨m, hm, rfl⟩ := mem_nodes.mp hn
  refine ⟨m, (messageId_keyed hs).filter_eq hm ?_ fun m' _ hon => ?_⟩
  · simp only [Bool.and_eq_true, beq_iff_eq]
    exact ⟨hchat, hid⟩
  · simp only [Bool.and_eq_true, beq_iff_eq] at hon
    exact hon.2.trans hid.symm

theorem pathMessages_filter (chatId : ChatId) (p : PathRow → Bool) :
    db.pathMessages chatId p =
      (db.pathMessages chatId fun _ => true).filter fun row => p row.1 := by
  unfold Database.pathMessages
  rw [← Table.join_filter, List.filter_filter]
  refine congrArg (fun t => Table.join _ t _) (List.filter_congr fun row _ => ?_)
  rw [Bool.and_true, Bool.and_comm]

theorem pathEntries_filter (chatId : ChatId) {q : ActivePathEntry → Bool}
    (h : ∀ row m, p row = q { position := row.position, message := m }) :
    db.pathEntries chatId p = (db.pathEntries chatId fun _ => true).filter q := by
  unfold Database.pathEntries
  rw [List.filter_map, pathMessages_filter]
  exact congrArg (List.map _) (List.filter_congr fun row _ => h row.1 row.2)

theorem pathEntries_rows (hs : db.Schema) (chatId : ChatId) :
    (db.pathEntries chatId fun _ => true).map (fun e =>
        { chatId, position := e.position, messageId := e.message.id : PathRow }) =
      db.activePath.filter fun row => row.chatId == chatId := by
  have hfst := pathMessages_fst hs chatId fun _ => true
  simp only [Bool.and_true] at hfst
  rw [← hfst, Database.pathEntries, List.map_map]
  refine List.map_congr_left fun row hrow => ?_
  obtain ⟨⟨-, hchat, -⟩, -, -, hid⟩ := mem_pathMessages.mp hrow
  simp only [Function.comp_apply, ← hchat, hid]

theorem pathEntries_keyed (hs : db.Schema) (chatId : ChatId) :
    Keyed ActivePathEntry.position (db.pathEntries chatId fun _ => true) := by
  have hrows : Keyed PathRow.positionKey (db.activePath.filter fun row => row.chatId == chatId) :=
    hs.pathPosition.filter _
  rw [← pathEntries_rows hs, Table.keyed_map] at hrows
  exact hrows.refine fun e e' he => by simp only [PathRow.positionKey, he]

theorem pathEntries_mem {e : ActivePathEntry} (he : e ∈ db.pathEntries chatId p) :
    e.message ∈ db.messages ∧ ∃ row ∈ db.activePath, row.position = e.position := by
  obtain ⟨⟨row, m⟩, hrow, rfl⟩ := List.mem_map.mp he
  obtain ⟨⟨hpath, -⟩, hm, -⟩ := mem_pathMessages.mp hrow
  exact ⟨hm, row, hpath, rfl⟩

theorem Database.Listed.decodeActivePathEntry (h : db.Listed) {e : ActivePathEntry}
    (he : e ∈ db.pathEntries chatId p) :
    decodeActivePathEntry e = .ok e := by
  obtain ⟨hm, row, hrow, hposition⟩ := pathEntries_mem he
  have hcheck : e.position ≤ maxSafeInteger := hposition ▸ h.schema.pathCheck row hrow
  have hdecode : decodeU64 e.position = .ok e.position := decodeU64_ok.mpr ⟨hcheck, rfl⟩
  rw [Storage.decodeActivePathEntry, hdecode, h.decodeMessage hm]
  rfl

theorem loadActivePath_serves (h : db.Listed) (hchat : chat ∈ db.chats) :
    Serves (fun cursor limit => loadActivePath db chat.id cursor limit) ValidPageSize
      ActivePathEntry.position
      (orderBy ActivePathEntry.position (db.pathEntries chat.id fun _ => true)) := by
  refine serves_of_query (pathEntries_keyed h.schema _) (fun _ hlimit => hlimit.1)
    fun last hlast limit hlimit => ?_
  have hencode : encodeCursor "active path position" (last.map ActivePathEntry.position) =
      .ok (last.map ActivePathEntry.position) := by
    refine encodeCursor_ok fun value hvalue => ?_
    obtain ⟨e, he, rfl⟩ := Option.mem_map.mp hvalue
    obtain ⟨-, row, hrow, hposition⟩ := pathEntries_mem (hlast e he)
    exact hposition ▸ h.schema.pathCheck row hrow
  have hafter : db.pathEntries chat.id (afterPosition (last.map ActivePathEntry.position)) =
      (db.pathEntries chat.id fun _ => true).filter fun e =>
        last.all fun a => decide (a.position < e.position) :=
    pathEntries_filter _ fun row m => by cases last <;> rfl
  simp only [loadActivePath, validatePageSize_ok hlimit, ensureChatExists_ok hchat, hencode, hafter,
    bind, Except.bind]
  exact decodedPage_eq fun e he => h.decodeActivePathEntry (mem_of_mem_page he)

/-! ### Pages cut by their bytes -/

/-- `load_recent_messages` as a listing: newest message first. -/
def loadRecent (db : Database) (chatId : ChatId) (before : Option MessageOrdinalCursor)
    (limit : Nat) : Except StorageError (Page Message MessageOrdinalCursor) :=
  (fun page => ⟨page.messages.reverse, page.olderCursor⟩) <$> loadRecentMessages db chatId before limit

def Message.ordinalCursor (m : Message) : MessageOrdinalCursor := ⟨m.chatId, m.ordinal⟩

/-- The order of the joined rows in `load_recent_messages`. -/
def newestPosition (row : PathRow × Message) : Natᵒᵈ := OrderDual.toDual row.1.position

theorem newestFirst_eq (rows : List (PathRow × Message)) :
    newestFirst rows = (orderBy newestPosition rows).map Prod.snd := rfl

theorem pathMessages_keyed (hs : db.Schema) (chatId : ChatId) :
    Keyed newestPosition (db.pathMessages chatId fun _ => true) := by
  have hentries := pathEntries_keyed hs chatId
  rw [Database.pathEntries, Table.keyed_map] at hentries
  exact hentries.refine fun _ _ he => OrderDual.toDual.injective he

theorem cursorPosition_pathMessages (hs : db.Schema) {row : PathRow} {m : Message}
    (h : (row, m) ∈ db.pathMessages chatId fun _ => true) :
    cursorPosition db chatId m.ordinalCursor = .ok row.position := by
  obtain ⟨⟨hpath, hrowChat, -⟩, hm, hon⟩ := mem_pathMessages.mp h
  have hchat : m.chatId = chatId := hon.1.trans hrowChat
  have hcheck := hs.messageCheck m hm
  have hordinal : Keyed (fun m : Message => m.node.ordinalKey) db.messages :=
    Table.keyed_map.mp hs.messageOrdinal
  have hmessage : (db.messages.filter fun x => x.chatId == chatId && x.ordinal == m.ordinal) = [m] := by
    refine hordinal.filter_eq hm (by simp [hchat]) fun x _ hx => ?_
    simp only [Bool.and_eq_true, beq_iff_eq] at hx
    exact Prod.ext (hx.1.trans hchat.symm) hx.2
  have hrow : (db.activePath.filter fun p => p.chatId == m.chatId && p.messageId == m.id) = [row] := by
    refine hs.pathUnique.filter_eq hpath ?_ fun p _ hp => ?_
    · simp [hon.1, hon.2]
    · simp only [Bool.and_eq_true, beq_iff_eq] at hp
      exact Prod.ext (hp.1.trans hon.1) (hp.2.trans hon.2)
  simp only [cursorPosition, Message.ordinalCursor, except_bind_ok, encodeU64_ok, required_ok]
  refine ⟨⟨⟩, ensure_ok.mpr hchat, m.ordinal, ⟨hcheck.ordinal.2, rfl⟩, ⟨⟩, ensure_ok.mpr ?_,
    (m, row), ?_, rfl⟩
  · have := hcheck.ordinal.1
    omega
  · rw [hmessage]
    simp only [Table.join, List.flatMap_cons, List.flatMap_nil, List.append_nil, hrow]
    rfl

theorem finishRecentMessagePage_eq (h : db.Listed) {messages : List Message}
    (hmem : ∀ m ∈ messages, m ∈ db.messages) (more : Bool) :
    finishRecentMessagePage chatId messages more =
      .ok ⟨messages.reverse, olderCursorOf chatId more messages.reverse⟩ := by
  have hdecode : messages.mapM decodeMessage = .ok messages :=
    mapM_ok_self fun m hm => h.decodeMessage (hmem m hm)
  obtain ⟨page, hpage⟩ : ∃ page, finishRecentMessagePage chatId messages more = .ok page := by
    simp only [finishRecentMessagePage, hdecode, bind, Except.bind]
    split
    · next m hhead =>
      have hm := hmem m (List.mem_reverse.mp (List.mem_of_head? hhead))
      have hordinal := (h.schema.messageCheck m hm).ordinal
      have hcursor : MessageOrdinalCursor.new chatId m.ordinal = .ok ⟨chatId, m.ordinal⟩ :=
        except_bind_ok.mpr ⟨(), ensure_ok.mpr ⟨by omega, hordinal.2⟩, rfl⟩
      rw [hcursor]
      exact ⟨_, rfl⟩
    · exact ⟨_, rfl⟩
  rw [hpage, finishRecentMessagePage_ok hpage]

/-- A page cut by its bytes is still a beginning of the rows, and says whether there are
more. -/
theorem recentPage_eq (h : db.Listed) {before : Option Nat} {limit : Nat}
    (hlimit : limit ≠ 0) : ∃ front back,
      newestFirst (db.pathMessages chatId (beforePosition before)) = front ++ back ∧
      (newestFirst (db.pathMessages chatId (beforePosition before)) ≠ [] → front ≠ []) ∧
      recentPage db chatId before limit =
        .ok ⟨front.reverse, olderCursorOf chatId (!back.isEmpty) front.reverse⟩ := by
  have hcheck : ∀ m ∈ (newestFirst (db.pathMessages chatId (beforePosition before))).take (limit + 1),
      m.Check := fun m hm =>
    h.schema.messageCheck m (mem_of_mem_newestFirst (List.mem_of_mem_take hm))
  have hmem : ∀ m ∈ newestFirst (db.pathMessages chatId (beforePosition before)), m ∈ db.messages :=
    fun m => mem_of_mem_newestFirst
  unfold recentPage
  generalize newestFirst (db.pathMessages chatId (beforePosition before)) = rows at *
  obtain ⟨⟨front, more⟩, hcollect⟩ := collectFrom_total limit hcheck [] (Nat.zero_le _) fun _ => rfl
  obtain ⟨back, hrows, hsome, rfl⟩ := collectFrom_split hlimit hcollect
  refine ⟨front, back, hrows, hsome, ?_⟩
  simp only [collectBoundedMessageRows, hcollect, bind, Except.bind]
  exact finishRecentMessagePage_eq h (fun m hm => hmem m (hrows ▸ List.mem_append_left _ hm)) _

theorem loadRecent_serves (h : db.Listed) (hchat : chat ∈ db.chats) :
    Serves (loadRecent db chat.id) ValidPageSize Message.ordinalCursor
      (newestFirst (db.pathMessages chat.id fun _ => true)) := by
  intro done rest limit hsplit hlimit
  rw [newestFirst_eq] at hsplit
  obtain ⟨rows, others, hsorted, rfl, rfl⟩ := List.map_eq_append_iff.mp hsplit
  have hmem : ∀ row ∈ rows, row ∈ db.pathMessages chat.id fun _ => true := fun row hrow =>
    (orderBy_perm _ _).mem_iff.mp (hsorted ▸ List.mem_append_left _ hrow)
  -- the cursor is resolved to the position of the last row
  have hbefore : beforeOf db chat.id ((rows.map Prod.snd).getLast?.map Message.ordinalCursor) =
      .ok (rows.getLast?.map fun row => row.1.position) := by
    rw [List.getLast?_map]
    cases hlast : rows.getLast? with
    | none => rfl
    | some row =>
      have hrow := hmem row (List.mem_of_getLast? hlast)
      simp only [Option.map_some, beforeOf, cursorPosition_pathMessages h.schema hrow]
      rfl
  have hothers : newestFirst (db.pathMessages chat.id
      (beforePosition (rows.getLast?.map fun row => row.1.position))) = others.map Prod.snd := by
    have habove := orderBy_after (pathMessages_keyed h.schema chat.id) hsorted
    rw [newestFirst_eq, pathMessages_filter, ← habove]
    refine congrArg (fun t => (orderBy newestPosition t).map Prod.snd)
      (List.filter_congr fun row _ => ?_)
    cases rows.getLast? <;> rfl
  obtain ⟨front, back, hfront, hne, hpage⟩ := @recentPage_eq _ chat.id h
    (rows.getLast?.map fun row => row.1.position) _ hlimit.1
  rw [hothers] at hfront hne
  refine ⟨front, back, hfront, hne, ?_⟩
  have hfind : ∃ c, db.chats.find? (fun c => c.id = chat.id) = some c :=
    Option.isSome_iff_exists.mp (List.find?_isSome.mpr ⟨chat, hchat, by simp⟩)
  obtain ⟨c, hc⟩ := hfind
  have hcursor : ∀ m ∈ front, m.ordinalCursor = ⟨chat.id, m.ordinal⟩ := by
    intro m hm
    obtain ⟨row, hrow, rfl⟩ := List.mem_map.mp (hfront ▸ List.mem_append_left back hm)
    have hjoin := (orderBy_perm _ _).mem_iff.mp (hsorted ▸ List.mem_append_right rows hrow)
    obtain ⟨⟨-, hchat, -⟩, -, hon, -⟩ := (mem_pathMessages (m := row.2)).mp hjoin
    rw [Message.ordinalCursor, hon, hchat]
  have hnext : olderCursorOf chat.id (!back.isEmpty) front.reverse =
      nextCursor Message.ordinalCursor front back := by
    rw [olderCursorOf, nextCursor, List.head?_reverse]
    cases back with
    | nil => rfl
    | cons b back =>
      cases hlast : front.getLast? with
      | none => rfl
      | some m => exact congrArg some (hcursor m (List.mem_of_getLast? hlast)).symm
  simp only [loadRecent, loadRecentMessages, validatePageSize_ok hlimit, hc, required, hbefore, hpage,
    hnext, bind, Except.bind, Functor.map, Except.map, List.reverse_reverse]

end Listings

/-! ## The client -/

/-- The message `a` is on the active path of the chat, nearer to the root than `b`. -/
def Database.PathBefore (db : Database) (chatId : ChatId) (a b : Message) : Prop :=
  ∃ p ∈ db.activePath, ∃ q ∈ db.activePath, p.chatId = chatId ∧ q.chatId = chatId ∧
    p.messageId = a.id ∧ q.messageId = b.id ∧ p.position < q.position

theorem newestFirst_pathBefore {db : Database} (hs : db.Schema) (chatId : ChatId) :
    (newestFirst (db.pathMessages chatId fun _ => true)).Pairwise
      fun a b => db.PathBefore chatId b a := by
  have hstrict := orderBy_strict (pathMessages_keyed hs chatId)
  rw [newestFirst_eq]
  refine List.pairwise_map.mpr (hstrict.imp_of_mem fun {a b} ha hb hlt => ?_)
  have hmem : ∀ row ∈ orderBy newestPosition (db.pathMessages chatId fun _ => true),
      row.1 ∈ db.activePath ∧ row.1.chatId = chatId ∧ row.1.messageId = row.2.id := by
    rintro ⟨row, m⟩ hrow
    obtain ⟨⟨hpath, hchat, -⟩, -, -, hid⟩ := mem_pathMessages.mp ((orderBy_perm _ _).mem_iff.mp hrow)
    exact ⟨hpath, hchat, hid.symm⟩
  obtain ⟨ha, hac, haid⟩ := hmem a ha
  obtain ⟨hb, hbc, hbid⟩ := hmem b hb
  exact ⟨b.1, hb, a.1, ha, hbc, hac, hbid, haid, OrderDual.toDual_lt_toDual.mp hlt⟩

/-- Following the cursors of a listing is complete.

In every state whose texts can be read, a client that follows the cursors, with any page sizes
the store accepts and no writes in between, stops and has every row of the listing once, in the
order of the listing. The path is also listed from its end, in pages that are cut by their
bytes. -/
theorem listings_complete (db : Database) (hdb : db.Listed) :
    Complete (fun cursor limit => listChats db limit cursor) ValidPageSize db.chats
      (fun a b => b.updatedAtMs < a.updatedAtMs ∨
        b.updatedAtMs = a.updatedAtMs ∧ b.id.uuid < a.id.uuid) ∧
    ∀ chat ∈ db.chats,
      (∃ entries : List ActivePathEntry,
        entries.map (fun e =>
            { chatId := chat.id, position := e.position, messageId := e.message.id : PathRow }) =
          (db.activePath.filter fun row => row.chatId == chat.id) ∧
        (∀ e ∈ entries, e.message ∈ db.messages) ∧
        Complete (loadActivePath db chat.id) ValidPageSize entries
          (fun a b => a.position < b.position) ∧
        Complete (loadRecent db chat.id) ValidPageSize (entries.map ActivePathEntry.message)
          (fun a b => db.PathBefore chat.id b a)) ∧
      (∀ parentId : Option MessageId,
        (∀ p ∈ parentId, ∃ n ∈ db.nodes, n.chatId = chat.id ∧ n.id = p) →
        Complete (loadBranchChildren db chat.id parentId) ValidPageSize
          (db.messages.filter fun m => m.chatId == chat.id && m.parentId == parentId)
          (fun a b => a.siblingOrd < b.siblingOrd ∨
            a.siblingOrd = b.siblingOrd ∧ a.id.uuid < b.id.uuid)) ∧
      Complete (loadMessageTimeline db chat.id) ValidPageSize
        (db.messages.filter fun m => m.chatId == chat.id)
        (fun a b => a.createdAtMs < b.createdAtMs ∨
          a.createdAtMs = b.createdAtMs ∧ a.id.uuid < b.id.uuid) := by
  have hs := hdb.schema
  refine ⟨?_, fun chat hchat => ⟨⟨db.pathEntries chat.id fun _ => true, pathEntries_rows hs chat.id,
    fun e he => (pathEntries_mem he).1, ?_, ?_⟩, fun parentId hparent => ?_, ?_⟩⟩
  · exact (listChats_serves hdb).complete (orderBy_perm _ _)
      ((orderBy_strict (chats_keyed hs)).imp Chat.recency_lt.mp)
  · exact (loadActivePath_serves hdb hchat).complete (orderBy_perm _ _)
      (orderBy_strict (pathEntries_keyed hs chat.id))
  · refine (loadRecent_serves hdb hchat).complete ?_ (newestFirst_pathBefore hs chat.id)
    rw [Database.pathEntries, List.map_map]
    exact (orderBy_perm newestPosition _).map Prod.snd
  · exact (loadBranchChildren_serves hdb hchat hparent).complete (orderBy_perm _ _)
      ((orderBy_strict (branches_keyed hs chat.id parentId)).imp Message.siblingPlace_lt.mp)
  · exact (loadMessageTimeline_serves hdb hchat).complete (orderBy_perm _ _)
      ((orderBy_strict (timeline_keyed hs chat.id)).imp Message.timelinePlace_lt.mp)

/-- The two messages of the sample conversation are listed in two pages of one. -/
theorem listings_complete_sample :
    (follow (loadMessageTimeline (store.run sampleStart {}).2 sampleChat) 3 (fun _ => 1) none).map
        (fun pages => pages.map (List.map (List.map Message.id))) = .ok (some [[⟨11⟩], [⟨12⟩]]) ∧
    Complete (fun cursor limit => listChats (store.run sampleStart {}).2 limit cursor) ValidPageSize
      (store.run sampleStart {}).2.chats
      (fun a b => b.updatedAtMs < a.updatedAtMs ∨
        b.updatedAtMs = a.updatedAtMs ∧ b.id.uuid < a.id.uuid) :=
  ⟨by decide,
    (listings_complete (store.run sampleStart {}).2 (reachable_listed ⟨sampleStart, rfl⟩)).1⟩

end Lorepia.Storage
