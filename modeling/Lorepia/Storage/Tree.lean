import Mathlib
import Lorepia.Lib.Forest
import Lorepia.Storage.Effects

/-!
# The conversation tree

The messages of a database form a forest (`Database.forest`): parents and depths are what the
trigger `messages_parent_bi` and the row checks enforce. The active path of a chat is stored in
a second table that no constraint ties to the tree; that its rows are the lineage of one leaf is
an invariant of the operations (`Database.Tree`). `verifyBranchRows` is the check the store runs
when it is opened; no run of calls makes it fail.
-/

namespace Lorepia.Storage

open Lorepia
open Lorepia.Table (Keyed)

/-! ## verify_branch_rows (migration.rs:395–456) -/

/-- The `WHERE` of the first query: a message and its parent, if there is one. -/
def invalidMessageRow (row : Message × Option Message) : Bool :=
  (row.1.parentId.isNone && row.1.depth != 0) ||
  (row.1.parentId.isSome && row.2.all fun parent => parent.depth + 1 != row.1.depth) ||
  (row.1.status == .complete && row.1.completedAtMs.isNone) ||
  (row.1.status != .complete && row.1.completedAtMs.isSome)

def Database.invalidMessages (db : Database) : Nat :=
  (Table.leftJoin
    (fun (child parent : Message) =>
      parent.chatId == child.chatId && some parent.id == child.parentId)
    db.messages db.messages).countP invalidMessageRow

/-- `message.parent_id != previous.message_id`, which is not true of a null. -/
def parentDiffers (parentId : Option MessageId) (previous : PathRow) : Bool :=
  parentId.any (· != previous.messageId)

/-- The `WHERE` of the second query: a path row, its message and the row before it. -/
def invalidPathRow (row : (PathRow × Node) × Option PathRow) : Bool :=
  row.1.2.depth != row.1.1.position ||
  (row.1.1.position == 0 && row.1.2.parentId.isSome) ||
  (decide (0 < row.1.1.position) && row.2.all (parentDiffers row.1.2.parentId))

def Database.invalidPathRows (db : Database) : Nat :=
  (Table.leftJoin
    (fun (row : PathRow × Node) (previous : PathRow) =>
      previous.chatId == row.1.chatId && previous.position + 1 == row.1.position)
    (Table.join
      (fun (current : PathRow) (message : Node) =>
        message.chatId == current.chatId && message.id == current.messageId)
      db.activePath db.nodes)
    db.activePath).countP invalidPathRow

def Database.pathPositions (db : Database) (chatId : ChatId) : List Nat :=
  (db.activePath.filter fun p => p.chatId == chatId).map PathRow.position

/-- `GROUP BY chat_id HAVING min(position) != 0 OR count(*) != max(position) + 1`. -/
def Database.pathGaps (db : Database) : Nat :=
  ((db.activePath.map PathRow.chatId).dedup).countP fun chatId =>
    let positions := db.pathPositions chatId
    positions.min? != some 0 || positions.max?.any fun last => positions.length != last + 1

def Database.missingPaths (db : Database) : Nat :=
  db.chats.countP fun chat =>
    (db.nodes.any fun n => n.chatId == chat.id) && !db.activePath.any fun p => p.chatId == chat.id

def verifyBranchRows (db : Database) : Except StorageError Unit := do
  ensure (db.invalidMessages = 0) (.incompatibleSchema "message branch invariant failed")
  ensure (db.invalidPathRows = 0 ∧ db.pathGaps = 0 ∧ db.missingPaths = 0)
    (.incompatibleSchema "active path invariant failed")

/-! ## The forest of messages -/

section Forest

variable {db db' : Database} {a b : Node} {l : List Node}

/-- The row `b` is the parent of the row `a`. -/
structure Database.IsParent (db : Database) (a b : Node) : Prop where
  child : a ∈ db.nodes
  parent : b ∈ db.nodes
  chat : b.chatId = a.chatId
  link : a.parentId = some b.id

theorem Database.Schema.parent_iff (hs : db.Schema) (ha : a ∈ db.nodes) :
    a.parentId = none ↔ a.depth = 0 := by
  obtain ⟨m, hm, rfl⟩ := mem_nodes.mp ha
  exact (hs.messageCheck m hm).parent

theorem Database.Schema.depth_le (hs : db.Schema) (ha : a ∈ db.nodes) :
    a.depth ≤ maxSafeInteger := by
  obtain ⟨m, hm, rfl⟩ := mem_nodes.mp ha
  exact (hs.messageCheck m hm).depth

theorem Database.Schema.ordinal_le (hs : db.Schema) (ha : a ∈ db.nodes) :
    a.ordinal ≤ maxSafeInteger := by
  obtain ⟨m, hm, rfl⟩ := mem_nodes.mp ha
  exact (hs.messageCheck m hm).ordinal.2

def Database.forest (db : Database) (hs : db.Schema) : Forest Node where
  nodes := db.nodes
  Parent := db.IsParent
  depth := Node.depth
  parent_mem h := h.parent
  parent_depth := by
    intro a b h
    obtain ⟨q, hq, -, hid, hd⟩ := hs.messageParent a h.child b.id h.link
    rw [← hd, hs.messageId.eq hq h.parent hid]
  parent_unique := by
    intro a b b' h h'
    exact hs.messageId.eq h.parent h'.parent (Option.some.inj (h.link.symm.trans h'.link))
  parent_exists := by
    intro a ha hd
    obtain ⟨p, hp⟩ := Option.ne_none_iff_exists'.mp fun hn => hd ((hs.parent_iff ha).mp hn)
    obtain ⟨q, hq, hchat, rfl, -⟩ := hs.messageParent a ha p hp
    exact ⟨q, ha, hq, hchat, hp⟩

variable {hs : db.Schema}

theorem lineage_chat (h : (db.forest hs).Lineage a l) : ∀ n ∈ l, n.chatId = a.chatId :=
  h.forall_mem (P := fun n => n.chatId = a.chatId) rfl fun hp hx => hp.chat.trans hx

theorem lineage_depths (h : (db.forest hs).Lineage a l) :
    l.map Node.depth = (List.range (a.depth + 1)).reverse :=
  h.depths

theorem lineage_transfer (hs' : db'.Schema)
    (h : (db.forest hs).Lineage a l) (hmem : ∀ n ∈ l, n ∈ db'.nodes) :
    (db'.forest hs').Lineage a l :=
  h.transfer hmem (fun hx hy hp => ⟨hmem _ hx, hmem _ hy, hp.chat, hp.link⟩) fun _ => rfl

theorem ancestryFrom_nil (nodes : List Node) (chatId : ChatId) (fuel : Nat) :
    ancestryFrom nodes chatId fuel [] = [] := by
  induction fuel with
  | zero => rfl
  | succ fuel ih => exact ih

theorem ancestryFrom_lineage (h : (db.forest hs).Lineage a l) {fuel : Nat}
    (hfuel : l.length ≤ fuel) : ancestryFrom db.nodes a.chatId fuel [a] = l := by
  induction h generalizing fuel with
  | @root a ha hd =>
    obtain ⟨fuel, rfl⟩ : ∃ f, fuel = f + 1 := ⟨fuel - 1, by simp at hfuel; omega⟩
    have hnone : a.parentId = none := (hs.parent_iff ha).mpr hd
    have hlevel : (db.nodes.filter fun p => some p.id == a.parentId && p.chatId == a.chatId) = [] := by
      simp [hnone]
    simp only [ancestryFrom, List.flatMap_cons, List.flatMap_nil, hlevel, List.append_nil,
      ancestryFrom_nil]
  | @child a b l ha hp hl ih =>
    obtain ⟨fuel, rfl⟩ : ∃ f, fuel = f + 1 := ⟨fuel - 1, by simp at hfuel; omega⟩
    have hlevel :
        (db.nodes.filter fun p => some p.id == a.parentId && p.chatId == a.chatId) = [b] := by
      refine hs.messageId.filter_eq hp.parent ?_ fun n _ hn => ?_
      · simp [hp.link, hp.chat]
      · simp only [hp.link, Bool.and_eq_true, beq_iff_eq, Option.some.injEq] at hn
        exact hn.1
    have hrest : ancestryFrom db.nodes b.chatId fuel [b] = l := ih (by simpa using hfuel)
    rw [hp.chat] at hrest
    simp only [ancestryFrom, List.flatMap_cons, List.flatMap_nil, hlevel, List.append_nil, hrest,
      List.cons_append, List.nil_append]

theorem ancestry_lineage (h : (db.forest hs).Lineage a l) (ha : a ∈ db.nodes) :
    db.ancestry a.chatId a.id = l := by
  have hstart : (db.nodes.filter fun n => n.chatId == a.chatId && n.id == a.id) = [a] :=
    hs.messageId.filter_eq ha (by simp) fun n _ hn => by simp at hn; exact hn.2
  rw [Database.ancestry, hstart]
  exact ancestryFrom_lineage h h.length_le

end Forest

/-! ## The rows of the active path -/

section Path

variable {db db' : Database} {chatId : ChatId} {a : Node} {l : List Node}

def Node.pathRow (n : Node) : PathRow :=
  { chatId := n.chatId, position := n.depth, messageId := n.id }

/-- The active path of the chat is made of the messages `l`. -/
def Database.Shows (db : Database) (chatId : ChatId) (l : List Node) : Prop :=
  ∀ p, p ∈ db.activePath ∧ p.chatId = chatId ↔ ∃ n ∈ l, n.pathRow = p

theorem mem_ancestrySuffix {start : Nat} {p : PathRow} :
    p ∈ ancestrySuffix chatId l start ↔
      ∃ n ∈ l, start ≤ n.depth ∧ { chatId, position := n.depth, messageId := n.id } = p := by
  simp [ancestrySuffix, and_assoc]

variable {pathLength : Nat}

theorem pathDivergence_le_of_mismatch {rows : List (Node × Option PathRow)}
    {row : Node × Option PathRow} (hrow : row ∈ rows) (hm : pathMismatch row = true) :
    pathDivergence rows pathLength ≤ row.1.depth :=
  List.min?_getD_le_of_mem
    (List.mem_map_of_mem (f := fun r : Node × Option PathRow => r.1.depth)
      (List.mem_filter.mpr ⟨hrow, hm⟩))

theorem pathRow_mem_of_lt_divergence (hchat : ∀ n ∈ l, n.chatId = chatId) {n : Node} (hn : n ∈ l)
    (hlt : n.depth < pathDivergence (db.ancestryOnPath chatId l) pathLength) :
    n.pathRow ∈ db.activePath := by
  -- otherwise `n` would be a mismatch at or above the divergence
  have hmatch : ∀ current, (n, current) ∈ db.ancestryOnPath chatId l →
      pathMismatch (n, current) = false := fun current hrow =>
    Bool.eq_false_iff.mpr fun hm => by
      exact Nat.not_le.mpr hlt (pathDivergence_le_of_mismatch hrow hm)
  by_cases hp : ∃ p ∈ db.activePath, (p.chatId == chatId && p.position == n.depth) = true
  · obtain ⟨p, hp, hon⟩ := hp
    have hid := hmatch (some p) (Table.mem_leftJoin_some.mpr ⟨hn, hp, hon⟩)
    simp only [pathMismatch, bne_eq_false_iff_eq] at hid
    simp only [Bool.and_eq_true, beq_iff_eq] at hon
    have : n.pathRow = p := by
      simp only [Node.pathRow, hchat n hn, ← hon.1, ← hon.2, ← hid]
    exact this ▸ hp
  · have := hmatch none (Table.mem_leftJoin_none.mpr ⟨hn, fun p hp' =>
      Bool.eq_false_iff.mpr fun hon => hp ⟨p, hp', hon⟩⟩)
    simp [pathMismatch] at this

theorem pathDivergence_le {rows : List (Node × Option PathRow)}
    (h : ∀ row ∈ rows, row.1.depth ≤ pathLength) : pathDivergence rows pathLength ≤ pathLength := by
  unfold pathDivergence
  generalize hmin : List.min? (α := Nat) _ = least
  cases least with
  | none => exact Nat.le_refl _
  | some d =>
    obtain ⟨row, hrow, rfl⟩ := List.mem_map.mp (List.min?_mem hmin)
    exact h row (List.mem_of_mem_filter hrow)

theorem depth_le_of_mem_ancestryOnPath {row : Node × Option PathRow}
    (hrow : row ∈ db.ancestryOnPath chatId l) : row.1 ∈ l := by
  obtain ⟨n, current⟩ := row
  cases current with
  | none => exact (Table.mem_leftJoin_none.mp hrow).1
  | some p => exact (Table.mem_leftJoin_some.mp hrow).1

theorem divergence_le {hs : db.Schema} (h : (db.forest hs).Lineage a l) :
    pathDivergence (db.ancestryOnPath chatId l) (a.depth + 1) ≤ a.depth + 1 :=
  pathDivergence_le fun _ hrow =>
    (h.depth_le (depth_le_of_mem_ancestryOnPath hrow)).trans (Nat.le_succ _)

/-- Replacing the path of the chat: afterwards it shows the lineage of the new leaf,
whatever it showed before. -/
theorem replacedPath_shows {hs : db.Schema} (h : (db.forest hs).Lineage a l) (p : PathRow) :
    p ∈ db.replacedPath a.chatId a.id (a.depth + 1) ∧ p.chatId = a.chatId ↔
      ∃ n ∈ l, n.pathRow = p := by
  have hchat := lineage_chat h
  have hdiv : pathDivergence (db.ancestryOnPath a.chatId l) (a.depth + 1) ≤ a.depth + 1 :=
    divergence_le h
  unfold Database.replacedPath
  rw [ancestry_lineage h (h.subset a h.mem)]
  simp only [List.mem_append, List.mem_filter, mem_ancestrySuffix, Bool.not_eq_true',
    Bool.and_eq_false_iff, beq_eq_false_iff_ne, decide_eq_false_iff_not, Nat.not_le]
  constructor
  · rintro ⟨⟨hp, hkept⟩ | ⟨n, hn, -, rfl⟩, hpc⟩
    · -- the row at this position is the one the lineage would put there
      have hlt := hkept.resolve_left fun hne => hne hpc
      obtain ⟨n, hn, hd⟩ := h.exists_depth (i := p.position)
        (show p.position ≤ a.depth by omega)
      replace hd : n.depth = p.position := hd
      have hrow := pathRow_mem_of_lt_divergence hchat hn (hd.symm ▸ hlt)
      refine ⟨n, hn, hs.pathPosition.eq hrow hp ?_⟩
      simp only [PathRow.positionKey, Node.pathRow, hchat n hn, hpc, hd]
    · exact ⟨n, hn, by simp only [Node.pathRow, hchat n hn]⟩
  · rintro ⟨n, hn, rfl⟩
    refine ⟨?_, hchat n hn⟩
    by_cases hlt : n.depth < pathDivergence (db.ancestryOnPath a.chatId l) (a.depth + 1)
    · exact .inl ⟨pathRow_mem_of_lt_divergence hchat hn hlt, .inr hlt⟩
    · exact .inr ⟨n, hn, by omega, by simp only [Node.pathRow, hchat n hn]⟩

theorem mem_replacedPath_other {leaf : MessageId} {p : PathRow} (hp : p.chatId ≠ chatId) :
    p ∈ db.replacedPath chatId leaf pathLength ↔ p ∈ db.activePath := by
  unfold Database.replacedPath
  simp only [List.mem_append, List.mem_filter, mem_ancestrySuffix, Bool.not_eq_true',
    Bool.and_eq_false_iff, beq_eq_false_iff_ne]
  constructor
  · rintro (⟨hp, -⟩ | ⟨n, -, -, rfl⟩)
    · exact hp
    · exact absurd rfl hp
  · exact fun h => .inl ⟨h, .inl hp⟩

end Path

/-! ## The invariant -/

/-- What the operations keep of the tree beyond the schema: siblings are numbered no
faster than messages, and the active path of a chat with messages is a lineage. -/
structure Database.Tree (db : Database) : Prop where
  schema : db.Schema
  siblingOrd : ∀ n ∈ db.nodes, n.siblingOrd ≤ n.ordinal
  path : ∀ n ∈ db.nodes, ∃ leaf l, (db.forest schema).Lineage leaf l ∧
    leaf.chatId = n.chatId ∧ db.Shows n.chatId l

theorem tree_empty : ({} : Database).Tree where
  schema := schema_empty
  siblingOrd := by simp [Database.nodes]
  path := by simp [Database.nodes]

section Tree

variable {db db' : Database} {chatId : ChatId} {a : Node} {l : List Node}

theorem Database.Tree.change (ht : db.Tree) (hs' : db'.Schema) (chatId : ChatId)
    (hsibling : ∀ n ∈ db'.nodes, n.siblingOrd ≤ n.ordinal)
    (hnodes : ∀ n, n.chatId ≠ chatId → (n ∈ db'.nodes ↔ n ∈ db.nodes))
    (hrows : ∀ p, p.chatId ≠ chatId → (p ∈ db'.activePath ↔ p ∈ db.activePath))
    (hpath : (∃ n ∈ db'.nodes, n.chatId = chatId) → ∃ leaf l, (db'.forest hs').Lineage leaf l ∧
      leaf.chatId = chatId ∧ db'.Shows chatId l) : db'.Tree where
  schema := hs'
  siblingOrd := hsibling
  path n hn := by
    by_cases hc : n.chatId = chatId
    · rw [hc]
      exact hpath ⟨n, hn, hc⟩
    · obtain ⟨leaf, l, hl, hleaf, hshows⟩ := ht.path n ((hnodes n hc).mp hn)
      have hother : ∀ x ∈ l, x.chatId ≠ chatId := fun x hx => by
        rw [lineage_chat hl x hx, hleaf]
        exact hc
      refine ⟨leaf, l, ?_, hleaf, fun p => ?_⟩
      · exact lineage_transfer hs' hl fun x hx => (hnodes x (hother x hx)).mpr (hl.subset x hx)
      · rw [← hshows p]
        exact and_congr_left fun hp => hrows p (hp ▸ hc)

/-- Nothing of the tree changes with the columns outside `Message.node`. -/
theorem Database.Tree.congr (ht : db.Tree) (hs' : db'.Schema) (hn : db'.nodes = db.nodes)
    (hp : db'.activePath = db.activePath) : db'.Tree where
  schema := hs'
  siblingOrd := hn ▸ ht.siblingOrd
  path n hmem := by
    obtain ⟨leaf, l, hl, hleaf, hshows⟩ := ht.path n (hn ▸ hmem)
    refine ⟨leaf, l, lineage_transfer hs' hl fun x hx => hn ▸ hl.subset x hx, hleaf, fun p => ?_⟩
    rw [hp]
    exact hshows p

variable {hs : db.Schema} {n : Node} {e : StorageError} {reason : String}

theorem activeLeafRow_of_shows (h : (db.forest hs).Lineage a l)
    (hshows : db.Shows a.chatId l) : db.activeLeafRow a.chatId = some (a.pathRow, a) := by
  unfold Database.activeLeafRow
  -- every joined row is a node of the lineage with its own path row
  have hjoin : ∀ row, row ∈ Table.join
      (fun (p : PathRow) (m : Node) => m.chatId == p.chatId && m.id == p.messageId)
      (db.activePath.filter fun p => p.chatId == a.chatId) db.nodes ↔
      ∃ n ∈ l, (n.pathRow, n) = row := by
    rintro ⟨p, m⟩
    rw [Table.mem_join]
    simp only [List.mem_filter, beq_iff_eq, Bool.and_eq_true, hshows p, Prod.mk.injEq]
    constructor
    · rintro ⟨⟨n, hn, rfl⟩, hm, -, hid⟩
      exact ⟨n, hn, rfl, hs.messageId.eq (h.subset n hn) hm hid.symm⟩
    · rintro ⟨n, hn, rfl, rfl⟩
      exact ⟨⟨n, hn, rfl⟩, h.subset n hn, rfl, rfl⟩
  refine List.mem_argmax_iff.mpr ⟨(hjoin _).mpr ⟨a, h.mem, rfl⟩, ?_, ?_⟩
  · rintro row hrow
    obtain ⟨n, hn, rfl⟩ := (hjoin row).mp hrow
    exact h.depth_le hn
  · rintro row hrow hle
    obtain ⟨n, hn, rfl⟩ := (hjoin row).mp hrow
    have : n = a := h.depth_inj hn h.mem (Nat.le_antisymm (h.depth_le hn) hle)
    rw [this]

theorem lastOrdinal_eq_none : db.lastOrdinal chatId = none ↔ ∀ n ∈ db.nodes, n.chatId ≠ chatId := by
  simp only [Database.lastOrdinal, List.max?_eq_none_iff, List.map_eq_nil_iff,
    List.filter_eq_nil_iff, beq_iff_eq, ne_eq]

/-- A chat is empty, in the tree and on the path, or its path is one lineage and ends
in its active leaf. -/
theorem Database.Tree.chat_cases (ht : db.Tree) (chatId : ChatId) :
    ((∀ n ∈ db.nodes, n.chatId ≠ chatId) ∧ db.Shows chatId [] ∧ db.activeLeafRow chatId = none) ∨
      ∃ leaf l, (db.forest ht.schema).Lineage leaf l ∧ leaf.chatId = chatId ∧
        db.Shows chatId l ∧ db.activeLeafRow chatId = some (leaf.pathRow, leaf) := by
  by_cases hne : ∃ n ∈ db.nodes, n.chatId = chatId
  · obtain ⟨n, hn, rfl⟩ := hne
    obtain ⟨leaf, l, hl, hleaf, hshows⟩ := ht.path n hn
    refine .inr ⟨leaf, l, hl, hleaf, hshows, ?_⟩
    rw [← hleaf] at hshows ⊢
    exact activeLeafRow_of_shows hl hshows
  · have hempty : ∀ n ∈ db.nodes, n.chatId ≠ chatId := fun n hn hc => hne ⟨n, hn, hc⟩
    have hrows : ∀ p ∈ db.activePath, p.chatId ≠ chatId := fun p hp hc => by
      obtain ⟨n, hn, hnc, -⟩ := ht.schema.pathMessage p hp
      exact hempty n hn (hnc.trans hc)
    refine .inl ⟨hempty, fun p => ?_, ?_⟩
    · simpa using hrows p
    · have : (db.activePath.filter fun p => p.chatId == chatId) = [] := by simpa using hrows
      rw [Database.activeLeafRow, this]
      rfl

theorem Database.Tree.lastSibling_le (ht : db.Tree) (chatId : ChatId)
    (parentId : Option MessageId) :
    (db.lastSibling chatId parentId).getD 0 ≤ (db.lastOrdinal chatId).getD 0 := by
  rcases hs : db.lastSibling chatId parentId with _ | s
  · exact Nat.zero_le _
  · obtain ⟨n, hn, rfl⟩ := List.mem_map.mp (List.max?_mem hs)
    simp only [List.mem_filter, Bool.and_eq_true, beq_iff_eq] at hn
    refine (ht.siblingOrd n hn.1).trans (List.le_max?_getD_of_mem ?_)
    exact List.mem_map_of_mem (List.mem_filter.mpr ⟨hn.1, by simpa using hn.2.1⟩)

/-! ## Every effect keeps the tree -/

theorem nodes_begun (db : Database) (place : TurnPlace) (input : BeginTurn) (ids : TurnIds) :
    (db.begun place input ids).nodes =
      db.nodes ++ [(place.user input ids).node, (place.assistant input ids).node] := by
  simp [Database.begun, Database.touch, Database.nodes]

theorem Database.Tree.begun (ht : db.Tree) {place : TurnPlace} {input : BeginTurn}
    {ids : TurnIds} (hnext : place.Next db input.chatId)
    (hs' : (db.begun place input ids).Schema) : (db.begun place input ids).Tree := by
  have hnodes := nodes_begun db place input ids
  have hold : ∀ n ∈ db.nodes, n ∈ (db.begun place input ids).nodes := fun n hn =>
    hnodes ▸ List.mem_append_left _ hn
  have huser : (place.user input ids).node ∈ (db.begun place input ids).nodes := by
    simp [hnodes]
  have hassistant : (place.assistant input ids).node ∈ (db.begun place input ids).nodes := by
    simp [hnodes]
  refine ht.change hs' input.chatId (fun n hn => ?_) (fun n hc => ?_) (fun p hc => ?_) fun _ => ?_
  · rw [hnodes, List.mem_append, List.mem_pair] at hn
    have hsib := ht.lastSibling_le input.chatId place.parentId
    rcases hn with hn | rfl | rfl
    · exact ht.siblingOrd n hn
    · show place.siblingOrd ≤ place.ordinal
      rw [hnext.siblingOrd, hnext.ordinal]
      omega
    · show 1 ≤ place.ordinal + 1
      omega
  · rw [hnodes, List.mem_append, List.mem_pair]
    constructor
    · rintro (hn | rfl | rfl)
      · exact hn
      · exact absurd rfl hc
      · exact absurd rfl hc
    · exact .inl
  · show p ∈ db.activePath ++ place.pathRows input ids ↔ _
    rw [List.mem_append, TurnPlace.pathRows, List.mem_pair]
    constructor
    · rintro (hp | rfl | rfl)
      · exact hp
      · exact absurd rfl hc
      · exact absurd rfl hc
    · exact .inl
  · -- the user's message ends the old path, if there is one
    obtain ⟨l, hl, hshows⟩ : ∃ l, ((db.begun place input ids).forest hs').Lineage
        (place.user input ids).node ((place.user input ids).node :: l) ∧
        db.Shows input.chatId l := by
      have hleaf := hnext.leaf
      rcases ht.chat_cases input.chatId with
        ⟨hempty, hshows, hrow⟩ | ⟨leaf, l, hl, hchat, hshows, hrow⟩
      · rw [hrow] at hleaf
        exact ⟨[], .root huser (Prod.mk.inj hleaf).2, hshows⟩
      · rw [hrow] at hleaf
        have hl' := lineage_transfer hs' hl fun x hx => hold x (hl.subset x hx)
        exact ⟨l, .child huser ⟨huser, hl'.subset leaf hl'.mem, hchat, (Prod.mk.inj hleaf).1⟩ hl',
          hshows⟩
    refine ⟨_, _, .child hassistant ⟨hassistant, huser, rfl, rfl⟩ hl, rfl, fun p => ?_⟩
    show p ∈ db.activePath ++ place.pathRows input ids ∧ _ ↔ _
    rw [List.mem_append, or_and_right, hshows p, TurnPlace.pathRows, List.mem_pair]
    simp only [List.mem_cons, exists_eq_or_imp]
    constructor
    · rintro (h | ⟨rfl | rfl, -⟩)
      · exact .inr (.inr h)
      · exact .inr (.inl rfl)
      · exact .inl rfl
    · rintro (rfl | rfl | h)
      · exact .inr ⟨.inr rfl, rfl⟩
      · exact .inr ⟨.inl rfl, rfl⟩
      · exact .inl h

/-- After the path of a chat has been replaced. The messages may have gained one in
that chat just before. -/
theorem Database.Tree.replaced (ht : db.Tree) {db₀ db₁ : Database} (hs₀ : db₀.Schema)
    (hs' : db'.Schema) (hsibling : ∀ n ∈ db₀.nodes, n.siblingOrd ≤ n.ordinal)
    (hnodes : ∀ n, n.chatId ≠ chatId → (n ∈ db₀.nodes ↔ n ∈ db.nodes))
    (hpath : db₀.activePath = db.activePath) {leaf : MessageId} {pathLength : Nat}
    (h : replaceActivePath chatId leaf db₀ = .ok (pathLength, db₁))
    (hnodes' : db'.nodes = db₁.nodes) (hpath' : db'.activePath = db₁.activePath) : db'.Tree := by
  obtain ⟨⟨n, hn, rfl, rfl, rfl, -⟩, rfl⟩ := replaceActivePath_ok h
  replace hnodes' : db'.nodes = db₀.nodes := hnodes'
  obtain ⟨l, hl⟩ := (db₀.forest hs₀).exists_lineage hn
  refine ht.change hs' n.chatId (hnodes' ▸ hsibling) (hnodes' ▸ hnodes) (fun p hp => ?_)
    fun _ => ⟨n, l, ?_, rfl, fun p => ?_⟩
  · rw [hpath', ← hpath]
    exact mem_replacedPath_other hp
  · exact lineage_transfer hs' hl fun x hx => hnodes' ▸ hl.subset x hx
  · rw [hpath']
    exact replacedPath_shows hl p

theorem effect_tree {call : Call} (ht : db.Tree) (hs' : db'.Schema) (he : Effect db call db') :
    db'.Tree := by
  cases he with
  | createChat hsame => exact ht.congr hs' (by rw [Database.nodes, hsame.messages]; rfl) hsame.activePath
  | renameChat hsame => exact ht.congr hs' (by rw [Database.nodes, hsame.messages]; rfl) hsame.activePath
  | @deleteChat chatId hidle =>
    have hkept : ∀ n, n ∈ (dropChat Message.chatId chatId db.messages).map Message.node ↔
        n ∈ db.nodes ∧ n.chatId ≠ chatId := fun n => mem_nodes_deleteChat
    refine ht.change hs' chatId (fun n hn => ?_) (fun n hc => ?_) (fun p hc => ?_) ?_
    · exact ht.siblingOrd n ((hkept n).mp hn).1
    · exact (hkept n).trans (and_iff_left hc)
    · simp [dropChat, hc]
    · rintro ⟨n, hn, hc⟩
      exact absurd hc ((hkept n).mp hn).2
  | beginTurn place hnext hfresh => exact ht.begun hnext hs'
  | deliver r hr hallowed => exact ht.congr hs' rfl rfl
  | acknowledge r hr hallowed => exact ht.congr hs' rfl rfl
  | checkpoint r m hp =>
    obtain rfl := hp.state
    exact ht.congr hs' (nodes_update db fun _ => rfl) rfl
  | finish r m hcode hp =>
    obtain rfl := hp.state
    exact ht.congr hs' (nodes_update db fun _ => rfl) rfl
  | @append input id depth pathLength db₁ message hmessage hlimit hadmits hreplace =>
    have hs₀ := insertMessage_schema message constraintFailed db () _ ht.schema
      (insertMessage_ok.mpr ⟨hadmits, rfl⟩)
    refine ht.replaced hs₀ hs' ?_ (fun n hc => ?_) rfl hreplace rfl rfl
    · rw [nodes_insert]
      refine Table.forall_insert ht.siblingOrd ?_
      have := ht.lastSibling_le input.chatId input.parentId
      rw [hmessage]
      exact Nat.succ_le_succ this
    · rw [nodes_insert, List.mem_append, List.mem_singleton]
      refine or_iff_left ?_
      rintro rfl
      exact hc (by rw [hmessage]; rfl)
  | select pathLength db₁ hreplace =>
    exact ht.replaced ht.schema hs' ht.siblingOrd (fun _ _ => Iff.rfl) rfl hreplace rfl rfl
  | restart hm hp hr =>
    refine ht.congr hs' ?_ hp
    rw [Database.nodes, hm]
    exact nodes_update db fun _ => rfl

theorem exec_tree (ht : db.Tree) (call : Call) : (store.exec call db).2.Tree := by
  have hs' : (store.exec call db).2.Schema := (transaction_schema call).commit ht.schema
  rcases exec_cases ht.schema call with ⟨e, he⟩ | ⟨response, db', he, heff⟩
  · rw [he]
    exact ht
  · rw [he] at hs' ⊢
    exact effect_tree ht hs' heff

theorem reachable_tree (h : Reachable db) : db.Tree :=
  Server.Reachable.invariant (I := Database.Tree) (fun _ call ht => exec_tree ht call) tree_empty h

/-! ## The check at opening passes -/

theorem invalidMessages_eq_zero (hs : db.Schema) : db.invalidMessages = 0 := by
  refine List.countP_eq_zero.mpr fun row hrow hbad => ?_
  obtain ⟨child, parent⟩ := row
  have hchild : child ∈ db.messages := by
    cases parent with
    | none => exact (Table.mem_leftJoin_none.mp hrow).1
    | some p => exact (Table.mem_leftJoin_some.mp hrow).1
  have hcheck := hs.messageCheck child hchild
  have hnode : child.node ∈ db.nodes := mem_nodes.mpr ⟨child, hchild, rfl⟩
  simp only [invalidMessageRow, Bool.or_eq_true, Bool.and_eq_true, bne_iff_ne, beq_iff_eq,
    Option.isNone_iff_eq_none] at hbad
  rcases hbad with ((⟨hroot, hd⟩ | ⟨hsome, hp⟩) | ⟨hc, hnone⟩) | ⟨hc, hsome⟩
  · exact hd (hcheck.parent.mp hroot)
  · -- the trigger gives the parent, the key makes it the joined row
    obtain ⟨p, hpid⟩ := Option.isSome_iff_exists.mp hsome
    obtain ⟨q, hq, hchat, hid, hdepth⟩ := hs.messageParent child.node hnode p hpid
    obtain ⟨m, hm, rfl⟩ := mem_nodes.mp hq
    have hjoined : (m.chatId == child.chatId && some m.id == child.parentId) = true := by
      rw [hpid, show m.chatId = child.chatId from hchat, show m.id = p from hid]
      simp
    cases parent with
    | none =>
      have := (Table.mem_leftJoin_none.mp hrow).2 m hm
      rw [hjoined] at this
      cases this
    | some m' =>
      obtain ⟨-, hm', hon⟩ := Table.mem_leftJoin_some.mp hrow
      rw [hpid] at hon
      simp only [Bool.and_eq_true, beq_iff_eq, Option.some.injEq] at hon
      have : m' = m := messageId_keyed hs |>.eq hm' hm (hon.2.trans (show p = m.id from hid.symm))
      rw [this] at hp
      have hd : m.depth + 1 = child.depth := hdepth
      simp [hd] at hp
  · have := hcheck.completed.mp hc
    simp [hnone] at this
  · exact hc (hcheck.completed.mpr hsome)

theorem mem_of_shows (h : (db.forest hs).Lineage a l) {p : PathRow}
    (hshows : db.Shows n.chatId l) (hn : n ∈ db.nodes) (hp : p ∈ db.activePath)
    (hchat : n.chatId = p.chatId) (hid : n.id = p.messageId) : n ∈ l ∧ n.pathRow = p := by
  obtain ⟨x, hx, rfl⟩ := (hshows p).mp ⟨hp, hchat.symm⟩
  obtain rfl := hs.messageId.eq hn (h.subset x hx) hid
  exact ⟨hx, rfl⟩

theorem Database.Tree.invalidPathRows_eq_zero (ht : db.Tree) : db.invalidPathRows = 0 := by
  refine List.countP_eq_zero.mpr fun row hrow hbad => ?_
  obtain ⟨⟨p, n⟩, previous⟩ := row
  have hjoined : (p, n) ∈ Table.join
      (fun (current : PathRow) (message : Node) =>
        message.chatId == current.chatId && message.id == current.messageId)
      db.activePath db.nodes := by
    cases previous with
    | none => exact (Table.mem_leftJoin_none.mp hrow).1
    | some q => exact (Table.mem_leftJoin_some.mp hrow).1
  obtain ⟨hp, hn, hon⟩ := Table.mem_join.mp hjoined
  simp only [Bool.and_eq_true, beq_iff_eq] at hon
  obtain ⟨leaf, l, hl, -, hshows⟩ := ht.path n hn
  obtain ⟨hnl, rfl⟩ := mem_of_shows hl hshows hn hp hon.1 hon.2
  simp only [invalidPathRow, Node.pathRow, Bool.or_eq_true, Bool.and_eq_true, bne_self_eq_false,
    beq_iff_eq, Bool.false_eq_true, false_or] at hbad
  rcases hbad with ⟨hd, hsome⟩ | ⟨hd, hprev⟩
  · rw [(ht.schema.parent_iff hn).mpr hd] at hsome
    cases hsome
  · -- the parent's row is the one before
    obtain ⟨b, hb⟩ := (db.forest ht.schema).parent_exists hn 
      (Nat.pos_iff_ne_zero.mp (of_decide_eq_true hd))
    have hdepth : n.depth = b.depth + 1 := (db.forest ht.schema).parent_depth hb
    have hbrow : b.pathRow ∈ db.activePath :=
      ((hshows b.pathRow).mpr ⟨b, hl.mem_of_parent hnl hb, rfl⟩).1
    cases previous with
    | none =>
      have := (Table.mem_leftJoin_none.mp hrow).2 b.pathRow hbrow
      simp [Node.pathRow, hb.chat, hdepth] at this
    | some q =>
      obtain ⟨-, hq, hqon⟩ := Table.mem_leftJoin_some.mp hrow
      simp only [Node.pathRow, Bool.and_eq_true, beq_iff_eq] at hqon
      have hqb : q = b.pathRow := ht.schema.pathPosition.eq hq hbrow (by
        simp only [PathRow.positionKey, Node.pathRow, hqon.1, hb.chat, Prod.mk.injEq, true_and]
        omega)
      rw [hqb] at hprev
      simp [parentDiffers, hb.link, Node.pathRow] at hprev

theorem pathPositions_perm (h : (db.forest hs).Lineage a l)
    (hshows : db.Shows chatId l) : (db.pathPositions chatId).Perm (List.range (a.depth + 1)) := by
  have hrows : (db.activePath.filter fun p => p.chatId == chatId).Perm (l.map Node.pathRow) := by
    refine (List.perm_ext_iff_of_nodup ?_ ?_).mpr fun p => ?_
    · exact (List.Nodup.of_map _ hs.pathPosition).filter _
    · refine List.Nodup.of_map PathRow.position ?_
      rw [List.map_map]
      exact h.nodup_depths
    · simp only [List.mem_filter, beq_iff_eq, List.mem_map]
      exact hshows p
  have hmap := hrows.map PathRow.position
  rw [List.map_map] at hmap
  refine hmap.trans ?_
  rw [show l.map (PathRow.position ∘ Node.pathRow) = _ from lineage_depths h]
  exact List.reverse_perm _

theorem Database.Tree.pathGaps_eq_zero (ht : db.Tree) : db.pathGaps = 0 := by
  refine List.countP_eq_zero.mpr fun chatId hchat hbad => ?_
  obtain ⟨p, hp, rfl⟩ := List.mem_map.mp (List.mem_dedup.mp hchat)
  obtain ⟨n, hn, hnc, -⟩ := ht.schema.pathMessage p hp
  obtain ⟨leaf, l, hl, -, hshows⟩ := ht.path n hn
  rw [hnc] at hshows
  have hperm := pathPositions_perm hl hshows
  have hmem : ∀ i, i ∈ db.pathPositions p.chatId ↔ i ≤ leaf.depth := fun i => by
    rw [hperm.mem_iff, List.mem_range, Nat.lt_succ_iff]
  have hmin : (db.pathPositions p.chatId).min? = some 0 :=
    List.min?_eq_some_iff.mpr ⟨(hmem 0).mpr (Nat.zero_le _), fun _ _ => Nat.zero_le _⟩
  have hmax : (db.pathPositions p.chatId).max? = some leaf.depth :=
    List.max?_eq_some_iff.mpr ⟨(hmem _).mpr le_rfl, fun i hi => (hmem i).mp hi⟩
  simp [hmin, hmax, hperm.length_eq] at hbad

theorem Database.Tree.missingPaths_eq_zero (ht : db.Tree) : db.missingPaths = 0 := by
  refine List.countP_eq_zero.mpr fun chat hchat hbad => ?_
  simp only [Bool.and_eq_true, List.any_eq_true, beq_iff_eq, Bool.not_eq_true',
    List.any_eq_false] at hbad
  obtain ⟨⟨n, hn, hc⟩, hnone⟩ := hbad
  obtain ⟨leaf, l, hl, hleaf, hshows⟩ := ht.path n hn
  obtain ⟨hp, hpc⟩ := (hshows leaf.pathRow).mpr ⟨leaf, hl.mem, rfl⟩
  exact hnone _ hp (hpc.trans hc)

theorem Database.Tree.verify (ht : db.Tree) : verifyBranchRows db = .ok () := by
  simp only [verifyBranchRows, except_bind_ok, ensure_ok]
  exact ⟨⟨⟩, invalidMessages_eq_zero ht.schema, ht.invalidPathRows_eq_zero, ht.pathGaps_eq_zero,
    ht.missingPaths_eq_zero⟩

/-! ## One active path -/

/-- `path`, root first, is the active path of the chat: its rows are stored at the
positions from zero on, it starts at a root and follows the parent links. -/
structure Database.IsActivePath (db : Database) (chatId : ChatId) (path : List Node) : Prop where
  nodes : ∀ n ∈ path, n ∈ db.nodes ∧ n.chatId = chatId
  rows : ∀ p, p ∈ db.activePath ∧ p.chatId = chatId ↔
    ∃ i n, path[i]? = some n ∧ p = { chatId, position := i, messageId := n.id }
  root : ∃ n, path.head? = some n ∧ n.parentId = none
  links : path.IsChain fun parent child => child.parentId = some parent.id

theorem Database.IsActivePath.getElem? {path path' : List Node} (hs : db.Schema)
    (h : db.IsActivePath chatId path) (h' : db.IsActivePath chatId path') {i : Nat}
    (hi : path[i]? = some n) : path'[i]? = some n := by
  obtain ⟨j, n', hj, hrow⟩ := (h'.rows _).mp ((h.rows _).mpr ⟨i, n, hi, rfl⟩)
  simp only [PathRow.mk.injEq, true_and] at hrow
  obtain ⟨rfl, hid⟩ := hrow
  rw [hj, hs.messageId.eq (h'.nodes n' (List.mem_of_getElem? hj)).1
    (h.nodes n (List.mem_of_getElem? hi)).1 hid.symm]

theorem Database.IsActivePath.unique {path path' : List Node} (hs : db.Schema)
    (h : db.IsActivePath chatId path) (h' : db.IsActivePath chatId path') : path = path' :=
  List.ext_getElem? fun _ => Option.ext fun _ => ⟨h.getElem? hs h', h'.getElem? hs h⟩

theorem lineage_getElem? (h : (db.forest hs).Lineage a l) {i : Nat} :
    l.reverse[i]? = some n ↔ n ∈ l ∧ n.depth = i := by
  have hdepth : ∀ {i : Nat} {n : Node}, l.reverse[i]? = some n → n.depth = i := by
    intro i n hi
    have hmap : (l.reverse.map Node.depth)[i]? = some n.depth := by
      rw [List.getElem?_map, hi]
      rfl
    rw [List.map_reverse, lineage_depths h, List.reverse_reverse] at hmap
    obtain ⟨_, hrange⟩ := List.getElem?_eq_some_iff.mp hmap
    rw [← hrange, List.getElem_range]
  constructor
  · exact fun hi => ⟨List.mem_reverse.mp (List.mem_of_getElem? hi), hdepth hi⟩
  · rintro ⟨hn, rfl⟩
    obtain ⟨j, hj⟩ := List.mem_iff_getElem?.mp (List.mem_reverse.mpr hn)
    rw [hdepth hj, hj]

theorem isActivePath_of_shows (h : (db.forest hs).Lineage a l)
    (hshows : db.Shows a.chatId l) : db.IsActivePath a.chatId l.reverse where
  nodes n hn := ⟨h.subset n (List.mem_reverse.mp hn), lineage_chat h n (List.mem_reverse.mp hn)⟩
  rows p := by
    rw [hshows p]
    simp only [lineage_getElem? h]
    constructor
    · rintro ⟨n, hn, rfl⟩
      exact ⟨n.depth, n, ⟨hn, rfl⟩, by rw [← lineage_chat h n hn]; rfl⟩
    · rintro ⟨_, n, ⟨hn, rfl⟩, rfl⟩
      exact ⟨n, hn, by rw [← lineage_chat h n hn]; rfl⟩
  root := by
    obtain ⟨n, hn, hd⟩ := h.exists_depth (Nat.zero_le _)
    refine ⟨n, ?_, (hs.parent_iff (h.subset n hn)).mpr hd⟩
    rw [List.head?_eq_getElem?]
    exact (lineage_getElem? h).mpr ⟨hn, hd⟩
  links := List.isChain_reverse.mpr (h.isChain.imp fun _ _ hp => hp.link)

theorem Database.Tree.existsUnique_path (ht : db.Tree) (hn : n ∈ db.nodes) :
    ∃! path, db.IsActivePath n.chatId path := by
  obtain ⟨leaf, l, hl, hleaf, hshows⟩ := ht.path n hn
  rw [← hleaf] at hshows ⊢
  have hpath := isActivePath_of_shows hl hshows
  exact ⟨l.reverse, hpath, fun path' hpath' => hpath'.unique ht.schema hpath⟩

/-! ## Replies that are never given -/

theorem checkedAddU64_none {x y : Nat} : checkedAddU64 x y = none ↔ 2 ^ 64 ≤ x + y := by
  simp [checkedAddU64]

theorem checkedAddI64_none {x y : Nat} : checkedAddI64 x y = none ↔ 2 ^ 63 ≤ x + y := by
  simp [checkedAddI64]

theorem insertPathRows_error {ps : List PathRow}
    (h : insertPathRows ps db = .error e) : e = constraintFailed := by
  induction ps generalizing db with
  | nil => simp [insertPathRows] at h
  | cons p ps ih =>
    rcases Tx.bind_error.mp h with h | ⟨_, db₁, -, h⟩
    · exact (Tx.guarded_error.mp h).2.symm
    · exact ih h

theorem messageDepth_compatible (hs : db.Schema) {messageId : MessageId} :
    messageDepth chatId messageId db ≠ .error (.incompatibleSchema reason) := by
  intro h
  simp only [messageDepth, validateBranchDepth, Tx.bind_error, Tx.lookup_error, Tx.lookup_ok,
    Tx.check_error, Tx.check_ok, Tx.pure_error, decodeU64_error, ensure_error, reduceCtorEq,
    and_false, false_or, or_false, exists_false, and_assoc, exists_and_left, exists_eq_left'] at h
  obtain ⟨n, hfind, hlarge, -⟩ := h
  have := hs.depth_le (List.mem_of_find?_eq_some hfind)
  omega

theorem currentActiveLeaf_total (hs : db.Schema) : currentActiveLeaf chatId db ≠ .error e := by
  intro h
  simp only [currentActiveLeaf, Tx.bind_error, Tx.query_error, Tx.query_ok, false_or] at h
  obtain ⟨_, _, ⟨rfl, rfl⟩, h⟩ := h
  cases hrow : db.activeLeafRow chatId with
  | none => simp [hrow] at h
  | some row =>
    rw [hrow] at h
    simp only [Tx.bind_error, Tx.check_error, decodeU64_error, Tx.pure_error, and_false,
      exists_false, or_false] at h
    have hmem := Table.mem_join.mp (List.argmax_mem hrow)
    have := hs.depth_le hmem.2.1
    omega

theorem ensureExpectedActiveLeaf_error (hs : db.Schema) {expected : Option MessageId}
    (h : ensureExpectedActiveLeaf chatId expected db = .error e) :
    e = .conflict "active path" := by
  rcases Tx.bind_error.mp h with h | ⟨_, _, -, h⟩
  · exact absurd h (currentActiveLeaf_total hs)
  · exact (Tx.require_error.mp h).2.symm

theorem ancestryOnPath_fst (hs : db.Schema) (l : List Node) :
    (db.ancestryOnPath chatId l).map Prod.fst = l := by
  refine Table.leftJoin_fst fun n _ => ?_
  by_cases hp : ∃ p ∈ db.activePath, (p.chatId == chatId && p.position == n.depth) = true
  · obtain ⟨p, hp⟩ := hp
    rw [hs.pathPosition.filter_eq hp.1 hp.2 fun q _ hq => ?_]
    · exact Nat.le_refl _
    · have hp' := hp.2
      simp only [Bool.and_eq_true, beq_iff_eq] at hq hp'
      simp only [PathRow.positionKey, hq, hp']
  · rw [List.filter_eq_nil_iff.mpr fun p hp' hon => hp ⟨p, hp', hon⟩]
    exact Nat.zero_le _

/-- The three counts of `replace_active_path` describe a complete ancestry. -/
theorem ancestryOnPath_complete (h : (db.forest hs).Lineage a l) :
    (db.ancestryOnPath chatId l).length = a.depth + 1 ∧
      ((db.ancestryOnPath chatId l).map fun row => row.1.depth).min? = some 0 ∧
      ((db.ancestryOnPath chatId l).map fun row => row.1.depth).max? = some a.depth := by
  have hfst : (db.ancestryOnPath chatId l).map Prod.fst = l := ancestryOnPath_fst hs l
  have hdepths : (db.ancestryOnPath chatId l).map (fun row => row.1.depth) =
      (List.range (a.depth + 1)).reverse := by
    rw [← lineage_depths h]
    conv_rhs => rw [← hfst, List.map_map]
    rfl
  have hmem : ∀ i, i ∈ (List.range (a.depth + 1)).reverse ↔ i ≤ a.depth := fun i => by
    rw [List.mem_reverse, List.mem_range, Nat.lt_succ_iff]
  rw [hdepths]
  refine ⟨?_, ?_, ?_⟩
  · have hlen := congrArg List.length hfst
    rw [List.length_map] at hlen
    exact hlen.trans h.length
  · exact List.min?_eq_some_iff.mpr ⟨(hmem 0).mpr (Nat.zero_le _), fun _ _ => Nat.zero_le _⟩
  · exact List.max?_eq_some_iff.mpr ⟨(hmem _).mpr le_rfl, fun i hi => (hmem i).mp hi⟩

theorem length_ancestrySuffix (h : (db.forest hs).Lineage a l) (start : Nat) :
    (ancestrySuffix chatId l start).length = a.depth + 1 - start := by
  have hcount : (l.filter fun n => decide (start ≤ n.depth)).length =
      ((l.map Node.depth).filter fun d => decide (start ≤ d)).length := by
    rw [List.filter_map, List.length_map]
    rfl
  rw [ancestrySuffix, List.length_map, List.length_insertionSort, hcount,
    lineage_depths h, List.filter_reverse, List.length_reverse,
    ← List.Ico.zero_bot, List.Ico.filter_le, List.Ico.length]
  show a.depth + 1 - max 0 start = _
  rw [Nat.zero_max]

/-- Replacing the active path never finds the tree inconsistent. -/
theorem replaceActivePath_compatible (hs : db.Schema) {leaf : MessageId} :
    replaceActivePath chatId leaf db ≠ .error (.incompatibleSchema reason) := by
  intro h
  simp only [replaceActivePath, deletePathSuffix, Tx.bind_error, Tx.lookup_error, Tx.lookup_ok,
    Tx.check_ok, Tx.check_error, Tx.require_ok, Tx.require_error, Tx.query_ok, Tx.query_error,
    Tx.execute_ok, Tx.execute_error, Tx.pure_error, checkedAddU64_eq, checkedAddU64_none,
    encodeU64_ok, encodeU64_error, and_assoc, exists_and_left, exists_eq_left', exists_const,
    reduceCtorEq, and_false, false_or, or_false, exists_false] at h
  rcases h with h | ⟨d, _, hdepth, h⟩
  · exact messageDepth_compatible hs h
  obtain ⟨⟨n, hn, rfl, rfl, rfl⟩, hlimit, rfl⟩ := messageDepth_ok hdepth
  obtain ⟨l, hl⟩ := (db.forest hs).exists_lineage hn
  rw [ancestry_lineage hl hn] at h
  rcases h with ⟨hlarge, -⟩ | ⟨-, -, -, ⟨hbad, -⟩ | ⟨-, -, -, ⟨hdiv, -⟩ | ⟨-, h | ⟨_, _, -, hlen, -⟩⟩⟩⟩
  · have : maxBranchDepth + 1 < 2 ^ 64 := by decide
    omega
  · exact hbad (ancestryOnPath_complete hl)
  · exact hdiv (divergence_le hl)
  · cases insertPathRows_error h
  · exact hlen (length_ancestrySuffix hl _)

theorem validateUserMessage_compatible {content : String} :
    validateUserMessage content = .error (.incompatibleSchema reason) ↔ False := by
  simp [validateUserMessage]

theorem turnParent_compatible {leaf : Option (MessageId × Nat)} :
    turnParent leaf = .error (.incompatibleSchema reason) ↔ False := by
  refine iff_of_false (fun h => ?_) not_false
  match leaf with
  | none => cases h
  | some (messageId, depth) =>
    simp only [turnParent] at h
    split at h <;> cases h

theorem touchChat_compatible {atMs : TimestampMillis} :
    touchChat chatId atMs db = .error (.incompatibleSchema reason) ↔ False := by
  simp [touchChat, updateChats, constraintFailed]

theorem insertPathRows_compatible {ps : List PathRow} :
    insertPathRows ps db = .error (.incompatibleSchema reason) ↔ False :=
  iff_of_false (fun h => by cases insertPathRows_error h) not_false

theorem insertMessage_error {m : Message} {e' : StorageError} :
    insertMessage m e db = .error e' ↔ ¬ db.AdmitsMessage m ∧ e = e' :=
  Tx.guarded_error

theorem insertRequest_error {r : RequestState} {e' : StorageError} :
    insertRequest r e db = .error e' ↔ ¬ db.AdmitsRequest r ∧ e = e' :=
  Tx.guarded_error

theorem findChat_error : findChat chatId db = .error e ↔
      db.chats.find? (fun c => c.id = chatId) = none ∧ .notFound "chat" = e :=
  Tx.lookup_error

theorem nextSiblingOrdinal_incompatible {parentId : Option MessageId}
    (h : nextSiblingOrdinal chatId parentId db = .error (.incompatibleSchema reason)) :
    maxSafeInteger < (db.lastSibling chatId parentId).getD 0 + 1 := by
  simp only [nextSiblingOrdinal, Tx.bind_error, Tx.query_error, Tx.query_ok, Tx.lookup_error,
    Tx.lookup_ok, Tx.check_error, checkedAddI64_eq, decodeU64_error, reduceCtorEq, and_false,
    false_or, and_assoc, exists_and_left, exists_eq_left'] at h
  exact h.2.1

theorem exists_lastOrdinal {k : Nat} (hk : k ≤ maxSafeInteger)
    (h : maxSafeInteger < (db.lastOrdinal chatId).getD 0 + k) :
    ∃ n ∈ db.nodes, n.chatId = chatId ∧ maxSafeInteger < n.ordinal + k := by
  cases hlast : db.lastOrdinal chatId with
  | none =>
    rw [hlast] at h
    simp only [Option.getD_none] at h
    omega
  | some last =>
    rw [hlast] at h
    obtain ⟨n, hn, rfl⟩ := List.mem_map.mp (List.max?_mem hlast)
    simp only [List.mem_filter, beq_iff_eq] at hn
    exact ⟨n, hn.1, hn.2, h⟩

theorem lastOrdinal_le (hs : db.Schema) (chatId : ChatId) :
    (db.lastOrdinal chatId).getD 0 ≤ maxSafeInteger := by
  by_contra hlarge
  obtain ⟨n, hn, -, hord⟩ := exists_lastOrdinal (k := 0) (Nat.zero_le _) (Nat.not_le.mp hlarge)
  have := hs.ordinal_le hn
  omega

theorem Database.Tree.lastOrdinal_isSome (ht : db.Tree) (chatId : ChatId) :
    (db.lastOrdinal chatId).isSome = (db.activeLeafRow chatId).isSome := by
  rcases ht.chat_cases chatId with ⟨hempty, -, hrow⟩ | ⟨leaf, l, hl, hleaf, -, hrow⟩
  · rw [hrow, lastOrdinal_eq_none.mpr hempty]
    rfl
  · rw [hrow, Option.isSome_some]
    refine Option.isSome_iff_ne_none.mpr fun hnone => ?_
    exact lastOrdinal_eq_none.mp hnone leaf (hl.subset leaf hl.mem) hleaf

/-- A turn is refused for the schema only when `decode_u64` refuses the number of one
of its two messages. -/
theorem beginTurn_incompatible (ht : db.Tree) {input : BeginTurn} {ids : TurnIds}
    (h : beginTurn input ids db = .error (.incompatibleSchema reason)) :
    reason = integerRangeReason ∧
      ∃ n ∈ db.nodes, n.chatId = input.chatId ∧ maxSafeInteger < n.ordinal + 2 := by
  have hlast := lastOrdinal_le ht.schema input.chatId
  have hsafe : maxSafeInteger + 2 < 2 ^ 63 := by decide
  have hsib := ht.lastSibling_le input.chatId
  simp only [beginTurn, validateBranchDepth, validateUserMessage_compatible,
    turnParent_compatible, touchChat_compatible, insertPathRows_compatible, Tx.bind_error,
    Tx.lookup_error, Tx.lookup_ok, Tx.check_ok, Tx.check_error, Tx.require_ok, Tx.require_error,
    Tx.query_ok, Tx.query_error, Tx.pure_error, checkedAddI64_eq, checkedAddI64_none,
    checkedAddU64_eq, encodeU64_ok, encodeU64_error, decodeU64_ok, decodeU64_error, ensure_ok,
    ensure_error, findChat_ok, findChat_error, insertMessage_ok, insertMessage_error,
    insertRequest_error, and_assoc, exists_and_left, exists_eq_left', exists_const, reduceCtorEq,
    and_false, false_or, or_false, exists_false] at h
  obtain ⟨_, -, _, -, -,
    ⟨hbig, -⟩ | ⟨-, ⟨hbig, -⟩ | ⟨-, ⟨hbig, hr⟩ | ⟨-, ⟨hbig, hr⟩ | ⟨hfits, h⟩⟩⟩⟩⟩ := h
  · omega
  · omega
  · exact ⟨(StorageError.incompatibleSchema.inj hr).symm,
      exists_lastOrdinal (by decide) (by omega)⟩
  · exact ⟨(StorageError.incompatibleSchema.inj hr).symm, exists_lastOrdinal (by decide) hbig⟩
  · exfalso
    rcases h with h | ⟨leaf, _, hleaf, ⟨hdiffer, -⟩ | ⟨-, parent, -, -, -, h⟩⟩
    · exact currentActiveLeaf_total ht.schema h
    · obtain ⟨rfl, -⟩ := currentActiveLeaf_ok hleaf
      rw [Option.isSome_map] at hdiffer
      exact hdiffer (ht.lastOrdinal_isSome _)
    · obtain ⟨-, rfl⟩ := currentActiveLeaf_ok hleaf
      have := nextSiblingOrdinal_incompatible h
      have := hsib parent.1
      omega

theorem selectActivePath_compatible (hs : db.Schema) {input : SelectActivePath} :
    selectActivePath input db ≠ .error (.incompatibleSchema reason) := by
  intro h
  simp only [selectActivePath, Tx.bind_error, findChat_error, findChat_ok, touchChat_compatible,
    Tx.pure_error, reduceCtorEq, and_false, false_or, or_false, exists_false, and_assoc,
    exists_and_left, exists_eq_left'] at h
  obtain ⟨_, -, h | ⟨_, _, hleaf, h⟩⟩ := h
  · cases ensureExpectedActiveLeaf_error hs h
  · obtain rfl := ensureExpectedActiveLeaf_ok hleaf
    exact replaceActivePath_compatible hs h

end Tree

/-- The conversation tree after any calls to the store.

The check at opening passes. Every message hangs one level below a message of its chat or is a
root; numbers are unique; every chat with messages has exactly one active path. So the store
never reports an inconsistent tree, but for `decode_u64` in `begin_turn` at the limit of the
message numbers. -/
theorem conversation_tree_sound (calls : List Call) :
    let db := (store.run calls {}).2
    verifyBranchRows db = .ok () ∧
    (∀ n ∈ db.nodes, (n.parentId = none ↔ n.depth = 0) ∧
      ∀ p ∈ n.parentId, ∃ q ∈ db.nodes, q.chatId = n.chatId ∧ q.id = p ∧ q.depth + 1 = n.depth) ∧
    Keyed (fun n => (n.chatId, n.ordinal)) db.nodes ∧
    Keyed (fun n => (n.chatId, n.parentId, n.siblingOrd)) db.nodes ∧
    (∀ n ∈ db.nodes, ∃! path, db.IsActivePath n.chatId path) ∧
    (∀ p ∈ db.activePath, ∃ n ∈ db.nodes, n.chatId = p.chatId ∧ n.id = p.messageId) ∧
    (∀ input ids reason,
      (store.exec (.beginTurn input ids) db).1 = .error (.incompatibleSchema reason) →
        reason = integerRangeReason ∧
          ∃ n ∈ db.nodes, n.chatId = input.chatId ∧ maxSafeInteger < n.ordinal + 2) ∧
    (∀ input reason,
      (store.exec (.selectActivePath input) db).1 ≠ .error (.incompatibleSchema reason)) ∧
    (∀ chatId leaf reason, replaceActivePath chatId leaf db ≠ .error (.incompatibleSchema reason)) ∧
    (∀ message, db.AdmitsMessage message → ∀ leaf reason,
      replaceActivePath message.chatId leaf { db with messages := db.messages ++ [message] } ≠
        .error (.incompatibleSchema reason)) := by
  intro db
  have ht : db.Tree := reachable_tree ⟨calls, rfl⟩
  have hs := ht.schema
  refine ⟨ht.verify, fun n hn => ⟨hs.parent_iff hn, hs.messageParent n hn⟩, hs.messageOrdinal,
    hs.messageSibling, fun n hn => ht.existsUnique_path hn, hs.pathMessage, ?_, ?_, ?_, ?_⟩
  · intro input ids reason he
    exact beginTurn_incompatible ht (Tx.map_error.mp (Tx.error_of_commit he))
  · intro input reason he
    exact selectActivePath_compatible hs (Tx.map_error.mp (Tx.error_of_commit he))
  · intro chatId leaf reason
    exact replaceActivePath_compatible hs
  · intro message hadmits leaf reason
    exact replaceActivePath_compatible (insertMessage_schema message constraintFailed db () _ hs
      (insertMessage_ok.mpr ⟨hadmits, rfl⟩))

end Lorepia.Storage
