import Mathlib
import Lorepia.Storage.Tree
import Lorepia.Storage.Journal

/-!
# Rewriting the active path

`replace_active_path` keeps the part of the current path that already agrees with the ancestry
of the new leaf, deletes the rest of the chat's rows and inserts the missing ones. That this is
a full rebuild rests on two facts. No message of a reachable tree is deeper than the branch
limit, so `message_depth` accepts every message (`reachable_shallow`). And the rows that stay
are rows of the new chain, at smaller positions than the inserted ones, so neither unique key
of `active_path` can be violated (`replacedPath_position`, `replacedPath_message`).
-/

namespace Lorepia.Storage

open Lorepia
open Lorepia.Table (Keyed)

variable {db db' : Database} {chatId : ChatId} {a : Node} {l : List Node}

/-! ## The depth limit -/

def Database.Shallow (db : Database) : Prop := ∀ n ∈ db.nodes, n.depth ≤ maxBranchDepth

theorem Database.Shallow.congr (h : db.Shallow) (hn : db'.nodes = db.nodes) : db'.Shallow := by
  rw [Database.Shallow, hn]
  exact h

theorem Database.Shallow.insert (h : db.Shallow) {message : Message}
    (hm : message.depth ≤ maxBranchDepth) :
    ({ db with messages := db.messages ++ [message] } : Database).Shallow := by
  rw [Database.Shallow, nodes_insert]
  exact Table.forall_insert h hm

theorem effect_shallow {call : Call} (h : db.Shallow) (he : Effect db call db') :
    db'.Shallow := by
  cases he with
  | createChat hsame => exact h.congr (by rw [Database.nodes, hsame.messages]; rfl)
  | renameChat hsame => exact h.congr (by rw [Database.nodes, hsame.messages]; rfl)
  | deleteChat hidle => exact fun n hn => h n (mem_nodes_deleteChat.mp hn).1
  | @beginTurn input ids place hnext hfresh =>
    have hlimit := hnext.depthLimit
    intro n hn
    rw [nodes_begun, List.mem_append, List.mem_pair] at hn
    rcases hn with hn | rfl | rfl
    · exact h n hn
    · exact (Nat.le_succ _).trans hlimit
    · exact hlimit
  | deliver r hr hallowed => exact h.congr rfl
  | acknowledge r hr hallowed => exact h.congr rfl
  | checkpoint r m hp =>
    obtain rfl := hp.state
    exact h.congr (nodes_update db fun _ => rfl)
  | finish r m hcode hp =>
    obtain rfl := hp.state
    exact h.congr (nodes_update db fun _ => rfl)
  | @append input id depth pathLength db₁ message hmessage hlimit hadmits hreplace =>
    obtain ⟨-, rfl⟩ := replaceActivePath_ok hreplace
    have hdepth : message.depth ≤ maxBranchDepth := by
      rw [hmessage]
      exact hlimit
    exact (h.insert hdepth).congr rfl
  | select pathLength db₁ hreplace =>
    obtain ⟨-, rfl⟩ := replaceActivePath_ok hreplace
    exact h.congr rfl
  | restart hm hp hr =>
    refine h.congr ?_
    rw [Database.nodes, hm]
    exact nodes_update db fun _ => rfl

theorem reachable_shallow (h : Reachable db) : db.Shallow := by
  have hboth : db.Schema ∧ db.Shallow := by
    refine Server.Reachable.invariant (I := fun db => db.Schema ∧ db.Shallow)
      (fun db call hdb => ?_) ⟨schema_empty, by simp [Database.Shallow, Database.nodes]⟩ h
    refine ⟨(transaction_schema call).commit hdb.1, ?_⟩
    exact exec_preserves (fun _ _ _ h he => effect_shallow h he) hdb.1 hdb.2
  exact hboth.2

/-! ## The keys of the rewritten path -/

variable {hs : db.Schema}

/-- The rows that stay and the rows that are inserted share no key. -/
theorem replacedPath_keyed (h : (db.forest hs).Lineage a l) {κ : Type}
    {k : PathRow → κ} (hold : Keyed k db.activePath)
    (hchat : ∀ p q, k p = k q → p.chatId = q.chatId)
    (hdepth : ∀ n ∈ l, ∀ n' ∈ l, k n.pathRow = k n'.pathRow → n.depth = n'.depth) :
    Keyed k (db.replacedPath a.chatId a.id (a.depth + 1)) := by
  have hshows := replacedPath_shows h
  unfold Database.replacedPath at hshows ⊢
  rw [ancestry_lineage h (h.subset a h.mem)] at hshows ⊢
  set divergence := pathDivergence (db.ancestryOnPath a.chatId l) (a.depth + 1)
  refine Table.keyed_append.mpr ⟨hold.filter _, ?_, ?_⟩
  · -- the inserted rows are at different depths
    have hnodup : ((l.filter fun n => decide (divergence ≤ n.depth)).insertionSort
        fun a b => a.depth ≤ b.depth).Nodup :=
      (List.perm_insertionSort _ _).nodup_iff.mpr
        ((List.Nodup.of_map _ h.nodup_depths).filter _)
    rw [ancestrySuffix, Table.keyed_map]
    refine List.Nodup.map_on (fun n hn n' hn' he => ?_) hnodup
    rw [List.mem_insertionSort, List.mem_filter] at hn hn'
    rw [← lineage_chat h n hn.1] at he
    have he' : k n.pathRow = k n'.pathRow := by
      rw [Node.pathRow, Node.pathRow, lineage_chat h n' hn'.1, ← lineage_chat h n hn.1]
      exact he
    exact h.depth_inj hn.1 hn'.1 (hdepth n hn.1 n' hn'.1 he')
  · -- a row that stays in the chat belongs to a smaller depth
    intro p hp q hq he
    obtain ⟨n', hn', hle, rfl⟩ := mem_ancestrySuffix.mp hq
    have hpc : p.chatId = a.chatId := hchat _ _ he
    obtain ⟨n, hn, rfl⟩ := (hshows p).mp ⟨List.mem_append_left _ hp, hpc⟩
    have hlt : n.depth < divergence := by
      have := (List.mem_filter.mp hp).2
      simp only [Node.pathRow] at hpc
      simpa [Node.pathRow, hpc] using this
    have he' : k n.pathRow = k n'.pathRow := by
      rw [he, Node.pathRow, lineage_chat h n' hn']
    have := hdepth n hn n' hn' he'
    omega

theorem replacedPath_position (h : (db.forest hs).Lineage a l) :
    Keyed PathRow.positionKey (db.replacedPath a.chatId a.id (a.depth + 1)) :=
  replacedPath_keyed h hs.pathPosition (fun _ _ he => (Prod.mk.inj he).1)
    fun _ _ _ _ he => (Prod.mk.inj he).2

theorem replacedPath_message (h : (db.forest hs).Lineage a l) :
    Keyed PathRow.messageKey (db.replacedPath a.chatId a.id (a.depth + 1)) :=
  replacedPath_keyed h hs.pathUnique (fun _ _ he => (Prod.mk.inj he).1)
    fun n hn n' hn' he => by
      rw [hs.messageId.eq (h.subset n hn) (h.subset n' hn') (Prod.mk.inj he).2]

theorem insertPathRows_succeeds {ps : List PathRow} (hcheck : ∀ p ∈ ps, p.Check)
    (hchat : ∀ p ∈ ps, ∃ c ∈ db.chats, c.id = p.chatId)
    (hmessage : ∀ p ∈ ps, ∃ n ∈ db.nodes, n.chatId = p.chatId ∧ n.id = p.messageId)
    (hposition : Keyed PathRow.positionKey (db.activePath ++ ps))
    (hunique : Keyed PathRow.messageKey (db.activePath ++ ps)) :
    insertPathRows ps db = .ok ((), { db with activePath := db.activePath ++ ps }) := by
  induction ps generalizing db with
  | nil => simp [insertPathRows]
  | cons p ps ih =>
    have happ : db.activePath ++ p :: ps = (db.activePath ++ [p]) ++ ps := by simp
    have hadmits : db.AdmitsPathRow p :=
      { check := hcheck p List.mem_cons_self
        chat := hchat p List.mem_cons_self
        message := hmessage p List.mem_cons_self
        position := fun q hq => (Table.keyed_append.mp hposition).2.2 q hq p List.mem_cons_self
        unique := fun q hq => (Table.keyed_append.mp hunique).2.2 q hq p List.mem_cons_self }
    refine Tx.bind_ok.mpr ⟨(), { db with activePath := db.activePath ++ [p] }, ?_, ?_⟩
    · exact Tx.guarded_ok.mpr ⟨hadmits, rfl⟩
    · rw [happ] at hposition hunique ⊢
      exact ih (fun q hq => hcheck q (List.mem_cons_of_mem _ hq))
        (fun q hq => hchat q (List.mem_cons_of_mem _ hq))
        (fun q hq => hmessage q (List.mem_cons_of_mem _ hq)) hposition hunique

/-! ## The rebuild -/

theorem messageDepth_succeeds (hs : db.Schema) (ha : a ∈ db.nodes)
    (hlimit : a.depth ≤ maxBranchDepth) :
    messageDepth a.chatId a.id db = .ok (a.depth, db) := by
  have hfind : (db.nodes.find? fun n => n.chatId == a.chatId && n.id == a.id) = some a := by
    rw [← List.head?_filter, hs.messageId.filter_eq ha (by simp) fun n _ hn => ?_]
    · rfl
    · simp only [Bool.and_eq_true, beq_iff_eq] at hn
      exact hn.2
  simp only [messageDepth, validateBranchDepth, Tx.bind_ok, Tx.lookup_ok, Tx.check_ok,
    Tx.pure_ok, decodeU64_ok, ensure_ok, and_assoc, exists_and_left, exists_eq_left',
    exists_const]
  exact ⟨a, hfind, hs.depth_le ha, hlimit, rfl, trivial⟩

theorem replaceActivePath_succeeds (h : (db.forest hs).Lineage a l)
    (hlimit : a.depth ≤ maxBranchDepth) :
    replaceActivePath a.chatId a.id db = .ok (a.depth + 1,
      { db with activePath := db.replacedPath a.chatId a.id (a.depth + 1) }) := by
  have ha := h.subset a h.mem
  have hsafe : maxBranchDepth + 1 ≤ maxSafeInteger ∧ maxBranchDepth + 1 < 2 ^ 64 := by decide
  simp only [replaceActivePath, deletePathSuffix, Tx.bind_ok, Tx.lookup_ok, Tx.check_ok,
    Tx.require_ok, Tx.query_ok, Tx.execute_ok, Tx.pure_ok, checkedAddU64_eq, encodeU64_ok,
    and_assoc, exists_and_left, exists_eq_left', exists_const]
  refine ⟨a.depth, db, messageDepth_succeeds hs ha hlimit, ?_⟩
  have hposition := replacedPath_position h
  have hunique := replacedPath_message h
  unfold Database.replacedPath at hposition hunique ⊢
  rw [ancestry_lineage h ha] at hposition hunique ⊢
  obtain ⟨hlength, hmin, hmax⟩ := @ancestryOnPath_complete _ a.chatId _ _ _ h
  refine ⟨by omega, by omega, by omega, hlength, hmin, hmax, divergence_le h, (), _, ?_,
    length_ancestrySuffix h _, rfl, rfl⟩
  refine insertPathRows_succeeds ?_ ?_ ?_ hposition hunique
  all_goals
    intro p hp
    obtain ⟨n, hn, -, rfl⟩ := mem_ancestrySuffix.mp hp
  · exact hs.depth_le (h.subset n hn)
  · exact hs.messageChat a ha
  · exact ⟨n, h.subset n hn, lineage_chat h n hn, rfl⟩

/-- Rewriting the path of the leaf's chat from the rows of `db` to `rows`: `chain` is
the new path, `divergence` the first position at which the old rows do not hold it. -/
structure Database.Rebuilt (db : Database) (leaf : Node) (chain : List Node)
    (divergence : Nat) (rows : List PathRow) : Prop where
  path : ({ db with activePath := rows } : Database).IsActivePath leaf.chatId chain
  last : chain.getLast? = some leaf
  length : chain.length = leaf.depth + 1
  position : Keyed PathRow.positionKey rows
  message : Keyed PathRow.messageKey rows
  shared : ∀ n ∈ chain.take divergence, n.pathRow ∈ db.activePath
  diverges : ∀ n, chain[divergence]? = some n → n.pathRow ∉ db.activePath
  before : rows.filter (fun p => p.chatId == leaf.chatId && decide (p.position < divergence)) =
    db.activePath.filter fun p => p.chatId == leaf.chatId && decide (p.position < divergence)
  others : rows.filter (fun p => p.chatId != leaf.chatId) =
    db.activePath.filter fun p => p.chatId != leaf.chatId

theorem pathRow_notMem_divergence (h : (db.forest hs).Lineage a l) {n : Node}
    (hn : n ∈ l) (hd : n.depth = pathDivergence (db.ancestryOnPath a.chatId l) (a.depth + 1)) :
    n.pathRow ∉ db.activePath := by
  intro hrow
  -- the divergence is a depth of the chain, so some mismatch was found there
  obtain ⟨row, hmem, hbad, hdepth⟩ : ∃ row ∈ db.ancestryOnPath a.chatId l,
      pathMismatch row = true ∧ row.1.depth = n.depth := by
    unfold pathDivergence at hd
    generalize hmin : List.min? (α := Nat) _ = least at hd
    cases least with
    | none =>
      have := h.depth_le hn
      simp only [Option.getD_none] at hd
      exact absurd (show n.depth ≤ a.depth from this) (by omega)
    | some d =>
      obtain ⟨row, hrow, rfl⟩ := List.mem_map.mp (List.min?_mem hmin)
      rw [List.mem_filter] at hrow
      exact ⟨row, hrow.1, hrow.2, hd.symm⟩
  obtain ⟨x, current⟩ := row
  obtain rfl : x = n := h.depth_inj (depth_le_of_mem_ancestryOnPath hmem) hn hdepth
  have hon : (x.pathRow.chatId == a.chatId && x.pathRow.position == x.depth) = true := by
    simp [Node.pathRow, lineage_chat h x hn]
  cases current with
  | none =>
    have := (Table.mem_leftJoin_none.mp hmem).2 _ hrow
    rw [hon] at this
    cases this
  | some p =>
    obtain ⟨-, hp, hpon⟩ := Table.mem_leftJoin_some.mp hmem
    simp only [Bool.and_eq_true, beq_iff_eq] at hpon hon
    have hsame : p = x.pathRow := hs.pathPosition.eq hp hrow (by
      simp only [PathRow.positionKey, hpon.1, hpon.2, hon.1, hon.2])
    rw [hsame] at hbad
    simp [pathMismatch, Node.pathRow] at hbad

theorem replacedPath_schema (h : (db.forest hs).Lineage a l) :
    ({ db with activePath := db.replacedPath a.chatId a.id (a.depth + 1) } : Database).Schema := by
  have hrows : ∀ p ∈ db.replacedPath a.chatId a.id (a.depth + 1),
      p ∈ db.activePath ∨ ∃ n ∈ l, n.pathRow = p := by
    intro p hp
    by_cases hc : p.chatId = a.chatId
    · exact .inr ((replacedPath_shows h p).mp ⟨hp, hc⟩)
    · exact .inl ((mem_replacedPath_other hc).mp hp)
  refine { hs with
    pathCheck := fun p hp => ?_
    pathPosition := replacedPath_position h
    pathUnique := replacedPath_message h
    pathMessage := fun p hp => ?_ }
  · rcases hrows p hp with hp | ⟨n, hn, rfl⟩
    · exact hs.pathCheck p hp
    · exact hs.depth_le (h.subset n hn)
  · rcases hrows p hp with hp | ⟨n, hn, rfl⟩
    · exact hs.pathMessage p hp
    · exact ⟨n, h.subset n hn, rfl, rfl⟩

theorem filter_replacedPath (h : (db.forest hs).Lineage a l) {keep : PathRow → Bool}
    (hkeep : ∀ p, keep p = true → p.chatId = a.chatId →
      p.position < pathDivergence (db.ancestryOnPath a.chatId l) (a.depth + 1)) :
    (db.replacedPath a.chatId a.id (a.depth + 1)).filter keep = db.activePath.filter keep := by
  unfold Database.replacedPath
  rw [ancestry_lineage h (h.subset a h.mem), List.filter_append, List.filter_filter]
  have hnew : (ancestrySuffix a.chatId l (pathDivergence (db.ancestryOnPath a.chatId l)
      (a.depth + 1))).filter keep = [] := by
    refine List.filter_eq_nil_iff.mpr fun p hp hk => ?_
    obtain ⟨n, -, hle, rfl⟩ := mem_ancestrySuffix.mp hp
    exact Nat.not_le.mpr (hkeep _ hk rfl) hle
  rw [hnew, List.append_nil]
  refine List.filter_congr fun p _ => ?_
  by_cases hk : keep p = true
  · by_cases hc : p.chatId = a.chatId
    · simp [hk, hc, hkeep p hk hc]
    · simp [hk, hc]
  · simp [Bool.eq_false_iff.mpr hk]

theorem rebuilt_replacedPath (h : (db.forest hs).Lineage a l) :
    db.Rebuilt a l.reverse (pathDivergence (db.ancestryOnPath a.chatId l) (a.depth + 1))
      (db.replacedPath a.chatId a.id (a.depth + 1)) where
  path := isActivePath_of_shows (lineage_transfer (replacedPath_schema h) h h.subset)
    (replacedPath_shows h)
  last := by
    rw [List.getLast?_eq_getElem?]
    refine (lineage_getElem? h).mpr ⟨h.mem, ?_⟩
    rw [List.length_reverse, h.length]
    rfl
  length := by
    rw [List.length_reverse]
    exact h.length
  position := replacedPath_position h
  message := replacedPath_message h
  shared n hn := by
    obtain ⟨i, hi⟩ := List.mem_iff_getElem?.mp hn
    rw [List.getElem?_take] at hi
    split at hi
    · next hlt =>
      obtain ⟨hn, rfl⟩ := (lineage_getElem? h).mp hi
      exact pathRow_mem_of_lt_divergence (lineage_chat h) hn hlt
    · cases hi
  diverges n hn := by
    obtain ⟨hn, hd⟩ := (lineage_getElem? h).mp hn
    exact pathRow_notMem_divergence h hn hd
  before := filter_replacedPath h fun p hp _ => by
    simp only [Bool.and_eq_true, decide_eq_true_eq] at hp
    exact hp.2
  others := filter_replacedPath h fun p hp hc => by simp [hc] at hp

theorem Database.Shallow.rebuilds (hd : db.Shallow) (hs : db.Schema) {leaf : Node}
    (hleaf : leaf ∈ db.nodes) : ∃ chain divergence rows,
      replaceActivePath leaf.chatId leaf.id db =
        .ok (leaf.depth + 1, { db with activePath := rows }) ∧
      db.Rebuilt leaf chain divergence rows := by
  obtain ⟨l, hl⟩ := (db.forest hs).exists_lineage hleaf
  exact ⟨_, _, _, replaceActivePath_succeeds hl (hd leaf hleaf), rebuilt_replacedPath hl⟩

/-- Rewriting the active path is a full rebuild, from any rows the schema allows: for every
message of a chat it succeeds and gives the chain from the root to it; the rows before the first
difference and those of the other chats are the old ones. The second part is the state
`append_branch_message` calls it in, after its insert. -/
theorem replaceActivePath_rebuilds (calls : List Call) (rows : List PathRow)
    (hrows : ({ (store.run calls {}).2 with activePath := rows } : Database).Schema) :
    let db : Database := { (store.run calls {}).2 with activePath := rows }
    (∀ leaf ∈ db.nodes, ∃ chain divergence rows',
      replaceActivePath leaf.chatId leaf.id db =
        .ok (leaf.depth + 1, { db with activePath := rows' }) ∧
      db.Rebuilt leaf chain divergence rows') ∧
    ∀ message, db.AdmitsMessage message → message.depth ≤ maxBranchDepth →
      let db' : Database := { db with messages := db.messages ++ [message] }
      ∀ leaf ∈ db'.nodes, ∃ chain divergence rows',
        replaceActivePath leaf.chatId leaf.id db' =
          .ok (leaf.depth + 1, { db' with activePath := rows' }) ∧
        db'.Rebuilt leaf chain divergence rows' := by
  intro db
  have hd : db.Shallow := (reachable_shallow ⟨calls, rfl⟩).congr rfl
  refine ⟨fun leaf hleaf => hd.rebuilds hrows hleaf, ?_⟩
  intro message hadmits hlimit db' leaf hleaf
  refine (hd.insert hlimit).rebuilds ?_ hleaf
  exact insertMessage_schema message constraintFailed db () _ hrows
    (insertMessage_ok.mpr ⟨hadmits, rfl⟩)

/-- The path of the sample conversation has two messages; either can be its leaf. -/
theorem replaceActivePath_rebuilds_sample :
    (store.run sampleStart {}).2.activePath.length = 2 ∧
    ∀ leaf ∈ (store.run sampleStart {}).2.nodes, ∃ chain divergence rows,
      replaceActivePath leaf.chatId leaf.id (store.run sampleStart {}).2 =
        .ok (leaf.depth + 1, { (store.run sampleStart {}).2 with activePath := rows }) ∧
      (store.run sampleStart {}).2.Rebuilt leaf chain divergence rows :=
  ⟨by decide, (replaceActivePath_rebuilds sampleStart
    (store.run sampleStart {}).2.activePath (reachable_schema ⟨sampleStart, rfl⟩)).1⟩

end Lorepia.Storage
