import Lorepia.Lib.Filter
import Lorepia.Storage.Journal
import Lorepia.Storage.Tree

/-!
# Paging back through a conversation (`load_recent_messages`, store.rs:710–790, 1704–1764)

A page is read from the newest end of the active path, or from just before a cursor, and is
cut by a number of messages and by a number of bytes. The cursor names a message by its
ordinal; its place on the path is looked up again for every page. A page holds the messages just
before the cursor message on the way from the root (`loadRecentMessages_before`), so the pages
join up, whatever is called in between (`Paging.Sound`, `Paging.run_sound`).
-/

namespace Lorepia.Storage

def maxMessagePageBytes : Nat := 2 * 1024 * 1024
def maxPageSize : Nat := 200
def messagePageRowEnvelopeBytes : Nat := 1024

structure MessageOrdinalCursor where
  chatId : ChatId
  ordinal : Nat
  deriving DecidableEq

def MessageOrdinalCursor.new (chatId : ChatId) (ordinal : Nat) : Except StorageError MessageOrdinalCursor := do
  ensure (ordinal ≠ 0 ∧ ordinal ≤ maxSafeInteger)
    (.invalidInput "message cursor ordinal" "must be between 1 and the safe integer limit")
  .ok ⟨chatId, ordinal⟩

structure RecentMessagePage where
  messages : List Message
  olderCursor : Option MessageOrdinalCursor
  deriving DecidableEq

def validatePageSize (limit : Nat) : Except StorageError Unit :=
  ensure (limit ≠ 0 ∧ limit ≤ maxPageSize) (.invalidInput "page size" "must be between 1 and 200")

def pageOverflowed : StorageError := .incompatibleSchema "message page byte count overflowed"

def oversizedMessage : StorageError :=
  .incompatibleSchema "one message exceeds the native page byte budget"

/-- The loop of `collect_bounded_message_rows`, with what it has collected. -/
def collectFrom (limit : Nat) :
    List Message → List Message → Nat → Except StorageError (List Message × Bool)
  | [], messages, _ => .ok (messages, false)
  | message :: rest, messages, aggregateBytes =>
    if limit ≤ messages.length then .ok (messages, true)
    else do
      let rowBytes ← required pageOverflowed
        (checkedAddU64 message.text.utf8ByteSize messagePageRowEnvelopeBytes)
      let projected ← required pageOverflowed (checkedAddU64 aggregateBytes rowBytes)
      if messages ≠ [] ∧ maxMessagePageBytes < projected then .ok (messages, true)
      else do
        ensure (projected ≤ maxMessagePageBytes) oversizedMessage
        collectFrom limit rest (messages ++ [message]) projected

/-- `collect_bounded_message_rows`: the messages, and whether there are more. -/
def collectBoundedMessageRows (rows : List Message) (limit : Nat) :
    Except StorageError (List Message × Bool) :=
  collectFrom limit rows [] 0

def finishRecentMessagePage (chatId : ChatId) (rawMessages : List Message) (hasMore : Bool) :
    Except StorageError RecentMessagePage := do
  let decoded ← rawMessages.mapM decodeMessage
  let messages := decoded.reverse
  match hasMore, messages.head? with
  | true, some message => do
    let cursor ← MessageOrdinalCursor.new chatId message.ordinal
    .ok ⟨messages, some cursor⟩
  | _, _ => .ok ⟨messages, none⟩

/-- `active_path JOIN messages`, for the rows of the chat that satisfy `p`. -/
def Database.pathMessages (db : Database) (chatId : ChatId) (p : PathRow → Bool) : List (PathRow × Message) :=
  Table.join (fun (p : PathRow) (m : Message) => m.chatId == p.chatId && m.id == p.messageId)
    (db.activePath.filter fun row => row.chatId == chatId && p row) db.messages

/-- `ORDER BY p.position DESC`. -/
def newestFirst (rows : List (PathRow × Message)) : List Message :=
  (rows.insertionSort fun a b => b.1.position ≤ a.1.position).map Prod.snd

/-- `p.position < ?2`, where there is a cursor. -/
def beforePosition (before : Option Nat) (row : PathRow) : Bool :=
  before.all fun position => decide (row.position < position)

def cursorPosition (db : Database) (chatId : ChatId) (cursor : MessageOrdinalCursor) :
    Except StorageError Nat := do
  ensure (cursor.chatId = chatId) (.invalidInput "message cursor chat ID" "must match the requested chat")
  let ordinal ← encodeU64 cursor.ordinal "message cursor ordinal"
  ensure (ordinal ≠ 0) (.invalidInput "message cursor ordinal" "must be at least 1")
  let row ← required
    (.invalidInput "message cursor ordinal" "must identify the current active path")
    ((Table.join (fun (m : Message) (p : PathRow) => p.chatId == m.chatId && p.messageId == m.id)
      (db.messages.filter fun m => m.chatId == chatId && m.ordinal == ordinal) db.activePath).head?)
  .ok row.2.position

def recentPage (db : Database) (chatId : ChatId) (before : Option Nat) (limit : Nat) :
    Except StorageError RecentMessagePage := do
  let rows := (newestFirst (db.pathMessages chatId (beforePosition before))).take (limit + 1)
  let (rawMessages, stoppedEarly) ← collectBoundedMessageRows rows limit
  finishRecentMessagePage chatId rawMessages stoppedEarly

def beforeOf (db : Database) (chatId : ChatId) :
    Option MessageOrdinalCursor → Except StorageError (Option Nat)
  | none => .ok none
  | some cursor => some <$> cursorPosition db chatId cursor

def loadRecentMessages (db : Database) (chatId : ChatId) (before : Option MessageOrdinalCursor)
    (limit : Nat) : Except StorageError RecentMessagePage := do
  validatePageSize limit
  let _ ← required (.notFound "chat") (db.chats.find? fun c => c.id = chatId)
  let position ← beforeOf db chatId before
  recentPage db chatId position limit

/-! ## One page -/

/-- What the loop took: a beginning of the rows, not more than the limit, and all of them
unless it says there are more. -/
structure Collected (limit : Nat) (rows taken : List Message) (more : Bool) : Prop where
  split : ∃ rest, rows = taken ++ rest ∧ (more = true ↔ rest ≠ [])
  bound : taken.length ≤ limit
  some : rows ≠ [] → taken ≠ []

variable {messages : List Message} {page : RecentMessagePage}

theorem collectFrom_ok {limit : Nat} (hlimit : limit ≠ 0) {rows taken : List Message}
    {aggregateBytes : Nat} {more : Bool} (hmessages : messages.length ≤ limit)
    (h : collectFrom limit rows messages aggregateBytes = .ok (taken, more)) :
    Collected limit (messages ++ rows) taken more := by
  induction rows generalizing messages aggregateBytes with
  | nil =>
    cases h
    exact ⟨⟨[], rfl, by simp⟩, hmessages, fun h => by simpa using h⟩
  | cons message rest ih =>
    unfold collectFrom at h
    -- the loop stops only with a message in hand
    have hstop : messages ≠ [] → Collected limit (messages ++ message :: rest) messages true :=
      fun hne => ⟨⟨message :: rest, rfl, by simp⟩, hmessages, fun _ => hne⟩
    split at h
    · next hfull =>
      cases h
      exact hstop fun hnil => hlimit (by simpa [hnil] using hfull)
    · next hfull =>
      obtain ⟨rowBytes, _, h⟩ := except_bind_ok.mp h
      obtain ⟨projected, _, h⟩ := except_bind_ok.mp h
      split at h
      · next hbytes =>
        cases h
        exact hstop hbytes.1
      · obtain ⟨_, _, h⟩ := except_bind_ok.mp h
        have hnext := ih (by rw [List.length_append, List.length_singleton]; omega) h
        rwa [List.append_assoc, List.singleton_append] at hnext

/-- The rows beyond the fetched ones are not lost: if there are any, the loop says so. -/
theorem collectFrom_split {limit : Nat} (hlimit : limit ≠ 0) {rows taken : List Message} {more : Bool}
    (h : collectFrom limit (rows.take (limit + 1)) [] 0 = .ok (taken, more)) :
    ∃ back, rows = taken ++ back ∧ (rows ≠ [] → taken ≠ []) ∧ more = !back.isEmpty := by
  obtain ⟨⟨rest, hsplit, hmore⟩, hbound, hsome⟩ := collectFrom_ok hlimit (Nat.zero_le _) h
  rw [List.nil_append] at hsplit hsome
  have hbeyond : rest = [] → rows.drop (limit + 1) = [] := by
    rintro rfl
    rw [List.append_nil] at hsplit
    have hlength := congrArg List.length hsplit
    rw [List.length_take] at hlength
    exact List.drop_eq_nil_of_le (by omega)
  refine ⟨rest ++ rows.drop (limit + 1), ?_, fun hne => hsome fun htake => ?_, ?_⟩
  · rw [← List.append_assoc, ← hsplit, List.take_append_drop]
  · rcases List.take_eq_nil_iff.mp htake with hzero | hempty
    · omega
    · exact hne hempty
  · rw [Bool.eq_iff_iff, hmore]
    simp only [Bool.not_eq_true', List.isEmpty_eq_false_iff, ne_eq, List.append_eq_nil_iff, not_and]
    exact ⟨fun hne hnil => absurd hnil hne, fun hne hnil => hne hnil (hbeyond hnil)⟩

/-- A stored message alone is never too large for a page. -/
theorem collectFrom_total (limit : Nat) {rows : List Message} (hrows : ∀ m ∈ rows, m.Check)
    (messages : List Message) {aggregateBytes : Nat} (hbytes : aggregateBytes ≤ maxMessagePageBytes)
    (hfirst : messages = [] → aggregateBytes = 0) :
    ∃ result, collectFrom limit rows messages aggregateBytes = .ok result := by
  induction rows generalizing messages aggregateBytes with
  | nil => exact ⟨_, rfl⟩
  | cons message rest ih =>
    have htext := (hrows message List.mem_cons_self).text
    unfold collectFrom
    split
    · exact ⟨_, rfl⟩
    · have hrow : checkedAddU64 message.text.utf8ByteSize messagePageRowEnvelopeBytes =
          some (message.text.utf8ByteSize + messagePageRowEnvelopeBytes) := by
        refine if_pos ?_
        unfold messagePageRowEnvelopeBytes
        omega
      have hprojected : checkedAddU64 aggregateBytes
          (message.text.utf8ByteSize + messagePageRowEnvelopeBytes) =
          some (aggregateBytes + (message.text.utf8ByteSize + messagePageRowEnvelopeBytes)) := by
        refine if_pos ?_
        unfold messagePageRowEnvelopeBytes
        unfold maxMessagePageBytes at hbytes
        omega
      simp only [hrow, hprojected, required, bind, Except.bind]
      split
      · exact ⟨_, rfl⟩
      · next hstop =>
        have hfits : aggregateBytes + (message.text.utf8ByteSize + messagePageRowEnvelopeBytes) ≤
            maxMessagePageBytes := by
          by_cases hnil : messages = []
          · rw [hfirst hnil]
            unfold messagePageRowEnvelopeBytes maxMessagePageBytes
            omega
          · exact Nat.not_lt.mp fun hlt => hstop ⟨hnil, hlt⟩
        simp only [ensure, if_pos hfits]
        exact ih (fun m hm => hrows m (List.mem_cons_of_mem _ hm)) (messages ++ [message]) hfits
          fun hnil => absurd hnil (by simp)

theorem mapM_decodeMessage_ok {rawMessages : List Message}
    (h : rawMessages.mapM decodeMessage = .ok messages) : messages = rawMessages := by
  induction rawMessages generalizing messages with
  | nil =>
    cases h
    rfl
  | cons raw rest ih =>
    rw [List.mapM_cons] at h
    obtain ⟨message, hmessage, h⟩ := except_bind_ok.mp h
    obtain ⟨others, hothers, h⟩ := except_bind_ok.mp h
    cases h
    rw [ih hothers]
    unfold decodeMessage at hmessage
    obtain ⟨_, _, hmessage⟩ := except_bind_ok.mp hmessage
    obtain ⟨_, _, hmessage⟩ := except_bind_ok.mp hmessage
    obtain ⟨_, _, hmessage⟩ := except_bind_ok.mp hmessage
    obtain ⟨_, _, hmessage⟩ := except_bind_ok.mp hmessage
    cases hmessage
    rfl

/-- The cursor a page of `messages` has when there are more. -/
def olderCursorOf (chatId : ChatId) (more : Bool) (messages : List Message) : Option MessageOrdinalCursor :=
  if more then messages.head?.map fun message => ⟨chatId, message.ordinal⟩ else none

theorem finishRecentMessagePage_ok {chatId : ChatId} {rawMessages : List Message} {hasMore : Bool}
    (h : finishRecentMessagePage chatId rawMessages hasMore = .ok page) :
    page = ⟨rawMessages.reverse, olderCursorOf chatId hasMore rawMessages.reverse⟩ := by
  obtain ⟨decoded, hdecoded, hpage⟩ := except_bind_ok.mp h
  obtain rfl := mapM_decodeMessage_ok hdecoded
  cases hasMore with
  | false =>
    cases hpage
    rfl
  | true =>
    cases hhead : decoded.reverse.head? with
    | none =>
      simp only [hhead] at hpage
      cases hpage
      simp [olderCursorOf, hhead]
    | some message =>
      simp only [hhead] at hpage
      obtain ⟨cursor, hcursor, hpage⟩ := except_bind_ok.mp hpage
      obtain ⟨_, _, hcursor⟩ := except_bind_ok.mp hcursor
      cases hcursor
      cases hpage
      simp [olderCursorOf, hhead]

/-- The page is the end of `path`, which is given from the root on. -/
structure RecentMessagePage.EndOf (page : RecentMessagePage) (chatId : ChatId) (older path : List Node) :
    Prop where
  split : path = older ++ page.messages.map Message.node
  progress : path ≠ [] → page.messages ≠ []
  cursor : page.olderCursor = olderCursorOf chatId (!older.isEmpty) page.messages

/-- A page read from the messages whose places are `path`, newest first. -/
theorem recentPage_end {db : Database} {chatId : ChatId} {before : Option Nat} {limit : Nat}
    (hlimit : limit ≠ 0) {path : List Node}
    (hpath : (newestFirst (db.pathMessages chatId (beforePosition before))).map Message.node = path.reverse)
    (h : recentPage db chatId before limit = .ok page) : ∃ older, page.EndOf chatId older path := by
  obtain ⟨⟨taken, more⟩, hcollect, h⟩ := except_bind_ok.mp h
  obtain rfl := finishRecentMessagePage_ok h
  obtain ⟨back, hrows, htaken, rfl⟩ := collectFrom_split hlimit hcollect
  generalize newestFirst (db.pathMessages chatId (beforePosition before)) = rows at *
  have hreverse : path = (back.map Message.node).reverse ++ taken.reverse.map Message.node := by
    rw [← List.reverse_reverse path, ← hpath, hrows]
    simp only [List.map_append, List.reverse_append, List.map_reverse]
  refine ⟨_, hreverse, fun hne hnil => ?_, congrArg (fun more => olderCursorOf chatId more _) ?_⟩
  · -- nothing was taken only if there is nothing
    have hempty : rows = [] := by
      by_contra hrows'
      exact htaken hrows' (List.reverse_eq_nil_iff.mp hnil)
    rw [hempty] at hpath
    exact hne (List.reverse_eq_nil_iff.mp hpath.symm)
  · rw [Bool.eq_iff_iff]
    simp

/-! ## The rows of a page -/

section Rows

variable {db : Database} {chatId : ChatId} {a : Node} {l : List Node}

theorem mem_pathMessages {p : PathRow → Bool} {row : PathRow} {m : Message} :
    (row, m) ∈ db.pathMessages chatId p ↔
      (row ∈ db.activePath ∧ row.chatId = chatId ∧ p row = true) ∧
        m ∈ db.messages ∧ m.chatId = row.chatId ∧ m.id = row.messageId := by
  simp [Database.pathMessages, Table.mem_join]

theorem pathMessages_perm {hs : db.Schema} (h : (db.forest hs).Lineage a l) (hshows : db.Shows chatId l)
    (p : PathRow → Bool) :
    ((db.pathMessages chatId p).map fun row => (row.1, row.2.node)).Perm
      ((l.filter fun n => p n.pathRow).map fun n => (n.pathRow, n)) := by
  have hkey : ∀ {row : PathRow × Message}, row ∈ db.pathMessages chatId p →
      ∃ n ∈ l, n.pathRow = row.1 ∧ p row.1 = true ∧ row.2.node = n := by
    rintro ⟨row, m⟩ hrow
    obtain ⟨⟨hpath, hchat, hp⟩, hm, -, hid⟩ := mem_pathMessages.mp hrow
    obtain ⟨n, hn, rfl⟩ := (hshows row).mp ⟨hpath, hchat⟩
    refine ⟨n, hn, rfl, hp, ?_⟩
    exact hs.messageId.eq (mem_nodes.mpr ⟨m, hm, rfl⟩) (h.subset n hn) hid
  have hmessages : db.messages.Nodup := List.Nodup.of_map _ (List.Nodup.of_map _ hs.messageId)
  have hrows : (db.pathMessages chatId p).Nodup :=
    Table.nodup_join _ ((List.Nodup.of_map _ hs.pathPosition).filter _) hmessages
  refine (List.perm_ext_iff_of_nodup ?_ ?_).mpr ?_
  · refine hrows.map_on ?_
    rintro ⟨row, m⟩ hrow ⟨row', m'⟩ hrow' heq
    obtain ⟨rfl, hnode⟩ := Prod.mk.inj heq
    have hid : m.id = m'.id := congrArg Node.id hnode
    rw [(messageId_keyed hs).eq (mem_pathMessages.mp hrow).2.1 (mem_pathMessages.mp hrow').2.1 hid]
  · refine List.Nodup.of_map (fun row => row.2.depth) ?_
    rw [List.map_map]
    exact (h.nodup_depths.sublist (List.filter_sublist.map _))
  · rintro ⟨row, n⟩
    simp only [List.mem_map, Prod.mk.injEq, List.mem_filter]
    constructor
    · rintro ⟨⟨row, m⟩, hrow, rfl, rfl⟩
      obtain ⟨n, hn, hpr, hp, rfl⟩ := hkey hrow
      exact ⟨m.node, ⟨hn, by rw [hpr]; exact hp⟩, hpr, rfl⟩
    · rintro ⟨n, ⟨hn, hp⟩, rfl, rfl⟩
      obtain ⟨m, hm, rfl⟩ := mem_nodes.mp (h.subset n hn)
      obtain ⟨hmem, hchat⟩ := (hshows m.node.pathRow).mpr ⟨m.node, hn, rfl⟩
      exact ⟨(m.node.pathRow, m), mem_pathMessages.mpr ⟨⟨hmem, hchat, hp⟩, hm, rfl, rfl⟩, rfl, rfl⟩

theorem newestFirst_pathMessages {hs : db.Schema} (h : (db.forest hs).Lineage a l)
    (hshows : db.Shows chatId l) (p : PathRow → Bool) :
    (newestFirst (db.pathMessages chatId p)).map Message.node = l.filter fun n => p n.pathRow := by
  have hperm := pathMessages_perm h hshows p
  unfold newestFirst
  generalize hsorted : (db.pathMessages chatId p).insertionSort
    (fun a b => b.1.position ≤ a.1.position) = sorted
  have hfrom : sorted.Perm (db.pathMessages chatId p) := hsorted ▸ List.perm_insertionSort _ _
  have hrows := (hfrom.map fun row => (row.1, row.2.node)).trans hperm
  -- the position of a row is the depth of its message
  have hdepth : ∀ row ∈ sorted, row.1.position = row.2.node.depth := by
    intro row hrow
    obtain ⟨n, -, heq⟩ := List.mem_map.mp (hrows.mem_iff.mp (List.mem_map_of_mem hrow))
    obtain ⟨hposition, rfl⟩ := Prod.mk.inj heq
    rw [← hposition]
    rfl
  rw [List.map_map]
  have hnodes : (sorted.map (Message.node ∘ Prod.snd)).Perm (l.filter fun n => p n.pathRow) := by
    have := hrows.map Prod.snd
    rwa [List.map_map, List.map_map, show (Prod.snd ∘ fun n : Node => (n.pathRow, n)) = id from rfl,
      List.map_id] at this
  have hsame : ∀ x y, x ∈ sorted.map (Message.node ∘ Prod.snd) → y ∈ l.filter (fun n => p n.pathRow) →
      y.depth ≤ x.depth → x.depth ≤ y.depth → x = y := by
    intro x y hx hy hle hle'
    have hx' := (List.mem_filter.mp (hnodes.mem_iff.mp hx)).1
    exact h.depth_inj hx' (List.mem_filter.mp hy).1 (Nat.le_antisymm hle' hle)
  have hdescending : (sorted.map (Message.node ∘ Prod.snd)).Pairwise fun x y => y.depth ≤ x.depth := by
    have hpairwise : sorted.Pairwise fun a b => b.1.position ≤ a.1.position :=
      hsorted ▸ List.pairwise_insertionSort _ _
    refine List.pairwise_map.mpr (hpairwise.imp_of_mem fun hx hy hle => ?_)
    rw [hdepth _ hx, hdepth _ hy] at hle
    exact hle
  have hlineage : (l.map Node.depth).Pairwise fun x y => y ≤ x := by
    rw [lineage_depths h]
    exact List.pairwise_reverse.mpr (List.pairwise_lt_range.imp fun hlt => Nat.le_of_lt hlt)
  exact List.Perm.eq_of_pairwise hsame hdescending ((List.pairwise_map.mp hlineage).filter _) hnodes

end Rows

/-! ## What a page holds -/

/-- `ancestors`, root first, is the way from a root down to `n`. -/
structure Database.IsAncestry (db : Database) (n : Node) (ancestors : List Node) : Prop where
  nodes : ∀ a ∈ ancestors, a ∈ db.nodes ∧ a.chatId = n.chatId
  root : ∃ r, (ancestors ++ [n]).head? = some r ∧ r.parentId = none
  links : (ancestors ++ [n]).IsChain fun parent child => child.parentId = some parent.id

section Pages

variable {db : Database} {chatId : ChatId} {a n : Node} {l : List Node}

theorem isAncestry_of_lineage {hs : db.Schema} (h : (db.forest hs).Lineage n (n :: l)) :
    db.IsAncestry n l.reverse where
  nodes x hx := by
    have hmem : x ∈ n :: l := List.mem_cons_of_mem _ (List.mem_reverse.mp hx)
    exact ⟨h.subset x hmem, lineage_chat h x hmem⟩
  root := by
    obtain ⟨r, hr, hd⟩ := h.exists_depth (Nat.zero_le _)
    refine ⟨r, ?_, (hs.parent_iff (h.subset r hr)).mpr hd⟩
    rw [← List.reverse_cons, List.head?_eq_getElem?]
    exact (lineage_getElem? h).mpr ⟨hr, hd⟩
  links := by
    rw [← List.reverse_cons]
    exact List.isChain_reverse.mpr (h.isChain.imp fun _ _ hp => hp.link)

theorem exists_ancestors (hs : db.Schema) (hn : n ∈ db.nodes) :
    ∃ ancestors, (db.forest hs).Lineage n (n :: ancestors) := by
  obtain ⟨l, hl⟩ := (db.forest hs).exists_lineage hn
  cases hl with
  | root ha hd => exact ⟨[], .root ha hd⟩
  | child ha hp hl => exact ⟨_, .child ha hp hl⟩

theorem cursorPosition_ok {hs : db.Schema} (h : (db.forest hs).Lineage a l) (hshows : db.Shows chatId l)
    {cursor : MessageOrdinalCursor} {position : Nat}
    (hposition : cursorPosition db chatId cursor = .ok position) :
    ∃ n ∈ l, n.chatId = chatId ∧ n.ordinal = cursor.ordinal ∧ n.depth = position := by
  obtain ⟨_, _, hchecked⟩ := except_bind_ok.mp hposition
  obtain ⟨ordinal, hencoded, hchecked⟩ := except_bind_ok.mp hchecked
  obtain ⟨_, _, hchecked⟩ := except_bind_ok.mp hchecked
  obtain ⟨⟨m, p⟩, hrow, hfound⟩ := except_bind_ok.mp hchecked
  obtain ⟨_, _, hordinal⟩ := except_bind_ok.mp hencoded
  cases hordinal
  cases hfound
  obtain ⟨hm, hp, hon⟩ := Table.mem_join.mp (List.mem_of_head? (required_ok.mp hrow))
  simp only [List.mem_filter, Bool.and_eq_true, beq_iff_eq] at hm hon
  obtain ⟨hm, hchat, hordinal⟩ := hm
  have hnode : m.node ∈ db.nodes := mem_nodes.mpr ⟨m, hm, rfl⟩
  subst hchat
  obtain ⟨hmem, hrow⟩ := mem_of_shows h (show db.Shows m.node.chatId l from hshows) hnode hp
    hon.1.symm hon.2.symm
  exact ⟨m.node, hmem, rfl, hordinal, congrArg PathRow.position hrow⟩

variable {limit : Nat} {page : RecentMessagePage}

theorem loadRecentMessages_ok {before : Option MessageOrdinalCursor}
    (h : loadRecentMessages db chatId before limit = .ok page) :
    limit ≠ 0 ∧ ∃ position, beforeOf db chatId before = .ok position ∧
      recentPage db chatId position limit = .ok page := by
  obtain ⟨_, hlimit, h⟩ := except_bind_ok.mp h
  obtain ⟨_, _, h⟩ := except_bind_ok.mp h
  obtain ⟨position, hposition, h⟩ := except_bind_ok.mp h
  exact ⟨(ensure_ok.mp hlimit).1, position, hposition, h⟩

theorem loadRecentMessages_newest (ht : db.Tree)
    (h : loadRecentMessages db chatId none limit = .ok page) :
    (∃ path older, db.IsActivePath chatId path ∧ page.EndOf chatId older path) ∨
      (∀ n ∈ db.nodes, n.chatId ≠ chatId) ∧ page = ⟨[], none⟩ := by
  obtain ⟨hlimit, position, hposition, hpage⟩ := loadRecentMessages_ok h
  cases hposition
  obtain ⟨hempty, hshows, -⟩ | ⟨leaf, l, hl, rfl, hshows, -⟩ := ht.chat_cases chatId
  · right
    have hrows : (db.activePath.filter fun row => row.chatId == chatId && beforePosition none row) = [] := by
      refine List.filter_eq_nil_iff.mpr fun p hp hon => ?_
      simp only [Bool.and_eq_true, beq_iff_eq] at hon
      obtain ⟨n, hn, -⟩ := (hshows p).mp ⟨hp, hon.1⟩
      cases hn
    have hnone : newestFirst (db.pathMessages chatId (beforePosition none)) = [] := by
      unfold Database.pathMessages
      rw [hrows]
      rfl
    have hnodes : (newestFirst (db.pathMessages chatId (beforePosition none))).map Message.node =
        ([] : List Node).reverse := by
      rw [hnone]
      rfl
    obtain ⟨older, hsplit, -, hcursor⟩ := recentPage_end hlimit hnodes hpage
    have hsplit := List.append_eq_nil_iff.mp hsplit.symm
    obtain ⟨messages, olderCursor⟩ := page
    obtain rfl : messages = [] := List.map_eq_nil_iff.mp hsplit.2
    obtain rfl : olderCursor = none := by
      rw [hsplit.1] at hcursor
      exact hcursor
    exact ⟨hempty, rfl⟩
  · left
    have hall : (newestFirst (db.pathMessages leaf.chatId (beforePosition none))).map Message.node =
        l.reverse.reverse := by
      rw [newestFirst_pathMessages hl hshows, List.reverse_reverse]
      exact List.filter_eq_self.mpr fun _ _ => rfl
    obtain ⟨older, hend⟩ := recentPage_end hlimit hall hpage
    exact ⟨l.reverse, older, isActivePath_of_shows hl hshows, hend⟩

theorem loadRecentMessages_before (ht : db.Tree) {cursor : MessageOrdinalCursor}
    (h : loadRecentMessages db chatId (some cursor) limit = .ok page)
    (hn : n ∈ db.nodes) (hchat : n.chatId = chatId) (hordinal : n.ordinal = cursor.ordinal) :
    ∃ ancestors older, db.IsAncestry n ancestors ∧ page.EndOf chatId older ancestors := by
  obtain ⟨hlimit, before, hbefore, hpage⟩ := loadRecentMessages_ok h
  obtain ⟨position, hposition, rfl⟩ := except_map_ok.mp hbefore
  subst hchat
  obtain ⟨leaf, l, hl, -, hshows⟩ := ht.path n hn
  obtain ⟨x, hx, hxchat, hxordinal, rfl⟩ := cursorPosition_ok hl hshows hposition
  have hkey : x.ordinalKey = n.ordinalKey := Prod.ext hxchat (hxordinal.trans hordinal.symm)
  obtain rfl := ht.schema.messageOrdinal.eq (hl.subset x hx) hn hkey
  obtain ⟨ancestors, hancestors⟩ := exists_ancestors ht.schema hn
  have hbelow : (newestFirst (db.pathMessages x.chatId (beforePosition (some x.depth)))).map Message.node =
      ancestors.reverse.reverse := by
    rw [newestFirst_pathMessages hl hshows, List.reverse_reverse]
    exact hl.filter_depth hx hancestors
  obtain ⟨older, hend⟩ := recentPage_end hlimit hbelow hpage
  exact ⟨ancestors.reverse, older, isAncestry_of_lineage hancestors, hend⟩

theorem mem_of_mem_newestFirst {p : PathRow → Bool} {m : Message}
    (hm : m ∈ newestFirst (db.pathMessages chatId p)) : m ∈ db.messages := by
  obtain ⟨⟨row, m⟩, hrow, rfl⟩ := List.mem_map.mp hm
  have hjoin := (List.perm_insertionSort _ _).mem_iff.mp hrow
  exact (mem_pathMessages.mp hjoin).2.1

theorem decodeMessage_fails (raw : Message) : FailsWith (· ≠ oversizedMessage) (decodeMessage raw) := by
  have hrange : StorageError.incompatibleSchema integerRangeReason ≠ oversizedMessage := by decide
  refine .bind (.ensure (by decide)) fun _ => ?_
  refine .bind (.bind (.ensure hrange) fun _ => .ok _) fun _ => ?_
  refine .bind (.bind (.ensure hrange) fun _ => .ok _) fun _ => ?_
  exact .bind (.bind (.ensure hrange) fun _ => .ok _) fun _ => .ok _

/-- No page is refused because of a single message. -/
theorem loadRecentMessages_fails (hs : db.Schema) (before : Option MessageOrdinalCursor) (limit : Nat) :
    FailsWith (· ≠ oversizedMessage) (loadRecentMessages db chatId before limit) := by
  refine .bind (.ensure (by decide)) fun _ => ?_
  refine .bind (.required (by decide) _) fun _ => ?_
  refine .bind ?_ fun position => ?_
  · cases before with
    | none => exact .ok _
    | some cursor =>
      refine .map _ (.bind (.ensure (by decide)) fun _ => ?_)
      refine .bind (.bind (.ensure (by decide)) fun _ => .ok _) fun _ => ?_
      refine .bind (.ensure (by decide)) fun _ => ?_
      exact .bind (.required (by decide) _) fun _ => .ok _
  · refine .bind ?_ fun collected => ?_
    · have hrows : ∀ m ∈ (newestFirst (db.pathMessages chatId (beforePosition position))).take (limit + 1),
          m.Check := fun m hm => hs.messageCheck m (mem_of_mem_newestFirst (List.mem_of_mem_take hm))
      obtain ⟨result, hok⟩ := collectFrom_total limit hrows [] (Nat.zero_le _) fun _ => rfl
      rw [collectBoundedMessageRows, hok]
      exact .ok _
    · refine .bind (.mapM decodeMessage_fails _) fun decoded => ?_
      simp only
      split
      · exact .bind (.bind (.ensure (by decide)) fun _ => .ok _) fun _ => .ok _
      · exact .ok _

end Pages

/-! ## A client that pages back -/

/-- Where a client goes on. -/
inductive PageCursor where
  | newest
  | before (cursor : MessageOrdinalCursor)
  | root
  deriving DecidableEq

/-- A client of the store: what it has loaded, oldest message first. -/
structure Paging where
  db : Database
  loaded : List Message
  cursor : PageCursor

/-- What happens before a page, and the limit the page is asked for with. -/
structure PageTurn where
  between : List Call
  limit : Nat

/-- The argument `before` of the next page, unless the root has been reached. -/
def PageCursor.request : PageCursor → Option (Option MessageOrdinalCursor)
  | .newest => some none
  | .before cursor => some (some cursor)
  | .root => none

namespace Paging

/-- A page that is returned is put in front of what was loaded; after an error the client can
ask again. -/
def turn (chatId : ChatId) (s : Paging) (t : PageTurn) : Paging :=
  let db := (store.run t.between s.db).2
  match s.cursor.request with
  | none => { s with db }
  | some before =>
    match loadRecentMessages db chatId before t.limit with
    | .error _ => { s with db }
    | .ok page =>
      { db, loaded := page.messages ++ s.loaded
        cursor := (page.olderCursor.map PageCursor.before).getD .root }

def run (chatId : ChatId) (turns : List PageTurn) (db : Database) : Paging :=
  turns.foldl (turn chatId) ⟨db, [], .newest⟩

def AtCursor (chatId : ChatId) (s : Paging) : Prop :=
  match s.cursor with
  | .newest => s.loaded = []
  | .before cursor => ∃ first, s.loaded.head? = some first ∧ cursor = ⟨chatId, first.ordinal⟩ ∧
      first.parentId ≠ none
  | .root => ∀ first, s.loaded.head? = some first → first.parentId = none

/-- What was loaded is one chain of messages that are still there. -/
structure Sound (chatId : ChatId) (s : Paging) : Prop where
  tree : s.db.Tree
  kept : ∀ m ∈ s.loaded, m.node ∈ s.db.nodes ∧ m.chatId = chatId
  chain : s.loaded.IsChain fun parent child => child.parentId = some parent.id
  cursor : s.AtCursor chatId

end Paging

/-! ## Between the pages -/

theorem effect_nodes {db db' : Database} {call : Call} (hkeeps : call.keepsChats = true)
    (he : Effect db call db') {n : Node} (hn : n ∈ db.nodes) : n ∈ db'.nodes := by
  cases he with
  | createChat hsame =>
    rw [Database.nodes, hsame.messages]
    exact hn
  | renameChat hsame =>
    rw [Database.nodes, hsame.messages]
    exact hn
  | deleteChat hidle => cases hkeeps
  | beginTurn place hnext hfresh =>
    rw [nodes_begun]
    exact List.mem_append_left _ hn
  | deliver r hr hallowed => exact hn
  | acknowledge r hr hallowed => exact hn
  | @checkpoint checkpoint _ r m hp =>
    obtain rfl := hp.state
    have hsame : (db.progressed checkpoint none r).nodes = db.nodes := nodes_update db fun _ => rfl
    rw [hsame]
    exact hn
  | @finish terminal _ r m hcode hp =>
    obtain rfl := hp.state
    have hsame : (db.progressed terminal.checkpoint (some terminal.outcome) r).nodes = db.nodes :=
      nodes_update db fun _ => rfl
    rw [hsame]
    exact hn
  | append depth pathLength db₁ message hmessage hlimit hadmits hreplace =>
    obtain ⟨-, rfl⟩ := replaceActivePath_ok hreplace
    show n ∈ Database.nodes { db with messages := db.messages ++ [message] }
    rw [nodes_insert]
    exact List.mem_append_left _ hn
  | select pathLength db₁ hreplace =>
    obtain ⟨-, rfl⟩ := replaceActivePath_ok hreplace
    exact hn
  | restart hm hp hr =>
    have hsame : db'.nodes = db.nodes := by
      rw [Database.nodes, hm]
      exact nodes_update db fun _ => rfl
    rw [hsame]
    exact hn

theorem run_nodes {db : Database} (ht : db.Tree) {calls : List Call}
    (hkeeps : ∀ call ∈ calls, call.keepsChats = true) :
    (store.run calls db).2.Tree ∧ ∀ n ∈ db.nodes, n ∈ (store.run calls db).2.nodes := by
  refine Server.run_invariant (I := fun now : Database => now.Tree ∧ ∀ n ∈ db.nodes, n ∈ now.nodes)
    (fun now call hcall h => ?_) hkeeps ⟨ht, fun _ hn => hn⟩
  refine ⟨exec_tree h.1 call, fun n hn => ?_⟩
  exact exec_preserves (fun _ _ _ hnow he => effect_nodes hcall he hnow) h.1.schema (h.2 n hn)

/-! ## Pages join up -/

theorem RecentMessagePage.EndOf.first {chatId : ChatId} {older path : List Node}
    (h : page.EndOf chatId older path) (hroot : ∃ r, path.head? = some r ∧ r.parentId = none)
    (hlinks : path.IsChain fun parent child => child.parentId = some parent.id) :
    ∃ first, page.messages.head? = some first ∧
      (page.olderCursor = none ∧ first.parentId = none ∨
        page.olderCursor = some ⟨chatId, first.ordinal⟩ ∧ first.parentId ≠ none) := by
  obtain ⟨r, hr, hnone⟩ := hroot
  have hne : path ≠ [] := by
    rintro rfl
    cases hr
  obtain ⟨messages, olderCursor⟩ := page
  obtain ⟨rfl, hprogress, hcursor⟩ := h
  cases messages with
  | nil => exact absurd rfl (hprogress hne)
  | cons first rest =>
    refine ⟨first, rfl, ?_⟩
    simp only at hcursor
    rcases List.eq_nil_or_concat older with rfl | ⟨front, last, rfl⟩
    · cases hr
      exact .inl ⟨hcursor, hnone⟩
    · refine .inr ⟨?_, ?_⟩
      · simpa [olderCursorOf] using hcursor
      · rw [List.concat_eq_append, List.append_assoc] at hlinks
        have hlink := (List.isChain_append.mp hlinks).2.1
        rw [List.map_cons, List.singleton_append, List.isChain_cons_cons] at hlink
        rw [show first.parentId = some last.id from hlink.1]
        exact Option.some_ne_none _

theorem isChain_node :
    (messages.map Message.node).IsChain (fun parent child => child.parentId = some parent.id) ↔
      messages.IsChain fun parent child => child.parentId = some parent.id :=
  List.isChain_map Message.node

namespace Paging

variable {chatId : ChatId} {s : Paging}

theorem Sound.between (h : s.Sound chatId) {calls : List Call}
    (hkeeps : ∀ call ∈ calls, call.keepsChats = true) :
    ({ s with db := (store.run calls s.db).2 } : Paging).Sound chatId where
  tree := (run_nodes h.tree hkeeps).1
  kept m hm := ⟨(run_nodes h.tree hkeeps).2 _ (h.kept m hm).1, (h.kept m hm).2⟩
  chain := h.chain
  cursor := h.cursor

theorem Sound.cons (h : s.Sound chatId) {page : RecentMessagePage}
    {older path : List Node} (hend : page.EndOf chatId older path)
    (hnodes : ∀ n ∈ path, n ∈ s.db.nodes ∧ n.chatId = chatId)
    (hroot : ∃ r, path.head? = some r ∧ r.parentId = none)
    (hlinks : (path ++ s.loaded.map Message.node).IsChain
      fun parent child => child.parentId = some parent.id) :
    ({ db := s.db, loaded := page.messages ++ s.loaded
       cursor := (page.olderCursor.map PageCursor.before).getD .root } : Paging).Sound chatId where
  tree := h.tree
  kept m hm := by
    rcases List.mem_append.mp hm with hm | hm
    · refine hnodes m.node ?_
      rw [hend.split]
      exact List.mem_append_right _ (List.mem_map_of_mem hm)
    · exact h.kept m hm
  chain := by
    rw [hend.split, List.append_assoc, ← List.map_append] at hlinks
    exact isChain_node.mp (List.isChain_append.mp hlinks).2.1
  cursor := by
    obtain ⟨first, hfirst, ⟨hnone, hparent⟩ | ⟨hsome, hparent⟩⟩ :=
      hend.first hroot (List.isChain_append.mp hlinks).1
    · show AtCursor chatId _
      simp only [AtCursor, hnone, Option.map_none, Option.getD_none]
      intro first' hfirst'
      rw [List.head?_append_of_ne_nil _ (by rintro hnil; rw [hnil] at hfirst; cases hfirst), hfirst] at hfirst'
      cases hfirst'
      exact hparent
    · simp only [AtCursor, hsome, Option.map_some, Option.getD_some]
      refine ⟨first, ?_, rfl, hparent⟩
      rw [List.head?_append_of_ne_nil _ (by rintro hnil; rw [hnil] at hfirst; cases hfirst), hfirst]

theorem Sound.turn (h : s.Sound chatId) {t : PageTurn}
    (hkeeps : ∀ call ∈ t.between, call.keepsChats = true) : (s.turn chatId t).Sound chatId := by
  have hnow := h.between hkeeps
  unfold Paging.turn
  simp only
  cases hrequest : s.cursor.request with
  | none => exact hnow
  | some before =>
    simp only
    cases hload : loadRecentMessages (store.run t.between s.db).2 chatId before t.limit with
    | error e => exact hnow
    | ok page =>
      cases hcursor : s.cursor with
      | root =>
        rw [hcursor] at hrequest
        cases hrequest
      | newest =>
        rw [hcursor] at hrequest
        cases hrequest
        have hnone : s.loaded = [] := by
          have := h.cursor
          rwa [AtCursor, hcursor] at this
        obtain ⟨path, older, hpath, hend⟩ | ⟨-, rfl⟩ := loadRecentMessages_newest hnow.tree hload
        · refine hnow.cons hend hpath.nodes hpath.root ?_
          simp only [hnone, List.map_nil, List.append_nil]
          exact hpath.links
        · refine ⟨hnow.tree, ?_, ?_, ?_⟩
          · simp [hnone]
          · simp [hnone]
          · simp [AtCursor, hnone]
      | before cursor =>
        rw [hcursor] at hrequest
        cases hrequest
        obtain ⟨first, hfirst, rfl, hparent⟩ : ∃ first, s.loaded.head? = some first ∧
            cursor = ⟨chatId, first.ordinal⟩ ∧ first.parentId ≠ none := by
          have := h.cursor
          rwa [AtCursor, hcursor] at this
        obtain ⟨rest, hloaded⟩ : ∃ rest, s.loaded = first :: rest := List.head?_eq_some_iff.mp hfirst
        have hmem : first ∈ s.loaded := hloaded ▸ List.mem_cons_self
        obtain ⟨hnode, hchat⟩ := hnow.kept first hmem
        obtain ⟨ancestors, older, hancestry, hend⟩ :=
          loadRecentMessages_before hnow.tree hload hnode hchat rfl
        -- the cursor message has a parent, so there is an ancestor
        have hroot : ∃ r, ancestors.head? = some r ∧ r.parentId = none := by
          obtain ⟨r, hr, hnone⟩ := hancestry.root
          cases ancestors with
          | nil =>
            cases hr
            exact absurd hnone hparent
          | cons a l => exact ⟨r, hr, hnone⟩
        refine hnow.cons hend (fun n hn => ?_) hroot ?_
        · obtain ⟨hmem, hsame⟩ := hancestry.nodes n hn
          exact ⟨hmem, hsame.trans hchat⟩
        · obtain ⟨habove, -, hlink⟩ := List.isChain_append.mp hancestry.links
          refine List.isChain_append.mpr ⟨habove, isChain_node.mpr h.chain, fun x hx y hy => ?_⟩
          refine hlink x hx y ?_
          rwa [List.head?_map, hfirst] at hy

theorem Sound.nodup (h : s.Sound chatId) : (s.loaded.map Message.id).Nodup := by
  -- a link goes one level down
  have hdeeper : s.loaded.IsChain fun a b => a.depth < b.depth := by
    refine h.chain.imp_of_mem_imp fun a b ha hb hlink => ?_
    obtain ⟨q, hq, -, hid, hdepth⟩ := h.tree.schema.messageParent b.node (h.kept b hb).1 a.id hlink
    have hsame : q = a.node := h.tree.schema.messageId.eq hq (h.kept a ha).1 hid
    rw [hsame] at hdepth
    exact Nat.lt_of_succ_le (Nat.le_of_eq hdepth)
  have hpairwise : s.loaded.Pairwise fun a b => a.depth < b.depth :=
    List.isChain_iff_pairwise.mp hdeeper
  refine List.pairwise_map.mpr (hpairwise.imp_of_mem fun {a b} ha hb hlt hid => ?_)
  have hsame : a.node = b.node := h.tree.schema.messageId.eq (h.kept a ha).1 (h.kept b hb).1 hid
  have hdepth : a.depth = b.depth := congrArg Node.depth hsame
  omega

theorem run_sound {db : Database} (ht : db.Tree) {turns : List PageTurn}
    (hkeeps : ∀ t ∈ turns, ∀ call ∈ t.between, call.keepsChats = true) :
    (run chatId turns db).Sound chatId := by
  have hstart : (⟨db, [], .newest⟩ : Paging).Sound chatId :=
    ⟨ht, fun _ h => (nomatch h), .nil, rfl⟩
  unfold run
  generalize (⟨db, [], .newest⟩ : Paging) = s at hstart ⊢
  induction turns generalizing s with
  | nil => exact hstart
  | cons t turns ih =>
    exact ih (fun t' ht' => hkeeps t' (List.mem_cons_of_mem _ ht')) _
      (hstart.turn (hkeeps t List.mem_cons_self))

/-- What the next page of a client can be, in a database `db`. -/
structure NextPage (chatId : ChatId) (s : Paging) (db : Database) (limit : Nat) : Prop where
  /-- The first page is the end of the active path. -/
  newest : s.cursor = .newest → ∀ page, loadRecentMessages db chatId none limit = .ok page →
    (∃ path older, db.IsActivePath chatId path ∧ page.EndOf chatId older path) ∨
      (∀ n ∈ db.nodes, n.chatId ≠ chatId) ∧ page = ⟨[], none⟩
  /-- A later one holds the ancestors just before the oldest message loaded, and at least one. -/
  before : ∀ cursor, s.cursor = .before cursor →
    ∀ page, loadRecentMessages db chatId (some cursor) limit = .ok page →
      ∃ first ancestors older, s.loaded.head? = some first ∧ db.IsAncestry first.node ancestors ∧
        page.EndOf chatId older ancestors ∧ page.messages ≠ []
  /-- No message is too large for a page. -/
  fits : ∀ before, loadRecentMessages db chatId before limit ≠ .error oversizedMessage

theorem Sound.nextPage (h : s.Sound chatId) (limit : Nat) : s.NextPage chatId s.db limit where
  newest := fun _ page hload => loadRecentMessages_newest h.tree hload
  before := by
    intro cursor hcursor page hload
    obtain ⟨first, hfirst, rfl, hparent⟩ : ∃ first, s.loaded.head? = some first ∧
        cursor = ⟨chatId, first.ordinal⟩ ∧ first.parentId ≠ none := by
      have := h.cursor
      rwa [AtCursor, hcursor] at this
    obtain ⟨hnode, hchat⟩ := h.kept first (List.mem_of_head? hfirst)
    obtain ⟨ancestors, older, hancestry, hend⟩ := loadRecentMessages_before h.tree hload hnode hchat rfl
    refine ⟨first, ancestors, older, hfirst, hancestry, hend, hend.progress ?_⟩
    rintro rfl
    obtain ⟨r, hr, hnone⟩ := hancestry.root
    cases hr
    exact hparent hnone
  fits := fun before h' => loadRecentMessages_fails h.tree.schema before limit _ h' rfl

end Paging

/-- Paging back through a conversation is gap-free, with any limits and while any calls that
delete no chat are made between the pages. What is loaded is one chain of messages that ends at
the root when the client stops; the next page is an error or goes on just before the cursor. -/
theorem paging_gap_free (calls : List Call) (chatId : ChatId) (turns : List PageTurn)
    (hkeeps : ∀ t ∈ turns, ∀ call ∈ t.between, call.keepsChats = true) :
    (Paging.run chatId turns (store.run calls {}).2).loaded.IsChain
        (fun parent child => child.parentId = some parent.id) ∧
      ((Paging.run chatId turns (store.run calls {}).2).loaded.map Message.id).Nodup ∧
      (Paging.run chatId turns (store.run calls {}).2).AtCursor chatId ∧
      ∀ (between : List Call) (limit : Nat), (∀ call ∈ between, call.keepsChats = true) →
        (Paging.run chatId turns (store.run calls {}).2).NextPage chatId
          (store.run between (Paging.run chatId turns (store.run calls {}).2).db).2 limit := by
  have hsound : (Paging.run chatId turns (store.run calls {}).2).Sound chatId :=
    Paging.run_sound (reachable_tree ⟨calls, rfl⟩) hkeeps
  refine ⟨hsound.chain, hsound.nodup, hsound.cursor, fun between limit hbetween => ?_⟩
  have hnext := (hsound.between hbetween).nextPage limit
  exact ⟨hnext.newest, hnext.before, hnext.fits⟩

/-- Between the pages the path is switched to a new branch and back. -/
def sampleSwitch : List PageTurn :=
  [⟨[], 1⟩,
   ⟨[.appendBranchMessage
      { chatId := sampleChat, parentId := some ⟨11⟩, expectedActiveLeafId := some ⟨12⟩
        role := .assistant, text := "other", atMs := 8 } ⟨13⟩], 1⟩,
   ⟨[.selectActivePath
      { chatId := sampleChat, expectedLeafId := some ⟨13⟩, leafMessageId := ⟨12⟩, atMs := 9 }], 1⟩]

theorem paging_gap_free_switch :
    (Paging.run sampleChat sampleSwitch (store.run sampleStart {}).2).loaded.map Message.id = [⟨11⟩, ⟨12⟩] ∧
      (Paging.run sampleChat sampleSwitch (store.run sampleStart {}).2).loaded.IsChain
        fun parent child => child.parentId = some parent.id :=
  ⟨by decide, (paging_gap_free sampleStart sampleChat sampleSwitch (by decide)).1⟩

end Lorepia.Storage
