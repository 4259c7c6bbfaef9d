import Lorepia.Storage.Journal

/-!
# What a run leaves alone

While its chat exists a message keeps its place in the tree, its text only grows, and from the
moment no running request writes to it, it never changes again (`Kept`). The calls that do not
write to the turn of a response in progress (`Call.Writes`) leave it alone. Both go through
`exec_cases`, one case per kind of effect.
-/

namespace Lorepia.Storage

variable {db db' : Database} {call : Call} {m m' : Message} {r r' : RequestState}
  {checkpoint : ResponseCheckpoint} {terminal : Option TerminalOutcome} {id : MessageId}

/-! ## Messages -/

/-- No running request writes to the message. -/
def Database.Idle (db : Database) (id : MessageId) : Prop :=
  ∀ r ∈ db.requests, r.assistantMessageId = id → r.status ≠ .running

/-- What may have become of a message of `db` in `db'`. -/
structure Kept (db : Database) (m : Message) (db' : Database) (m' : Message) : Prop where
  node : m'.node = m.node
  text : m.text.toList <+: m'.text.toList
  settled : db.Idle m.id → m' = m ∧ db'.Idle m.id

theorem Kept.trans {db'' : Database} {m'' : Message} (h : Kept db m db' m')
    (h' : Kept db' m' db'' m'') : Kept db m db'' m'' where
  node := h'.node.trans h.node
  text := h.text.trans h'.text
  settled hidle := by
    obtain ⟨rfl, hidle'⟩ := h.settled hidle
    exact h'.settled hidle'

/-- A message nothing wrote to is kept if no request starts to write to it. -/
theorem Kept.same (m : Message) (h : db.Idle m.id → db'.Idle m.id) : Kept db m db' m :=
  ⟨rfl, List.prefix_rfl, fun hidle => ⟨rfl, h hidle⟩⟩

/-- A message a running request writes to may change in anything but its place and the
text it has. -/
theorem Kept.written (hr : r ∈ db.requests) (hrun : r.status = .running)
    (hid : r.assistantMessageId = m.id) (hnode : m'.node = m.node)
    (htext : m.text.toList <+: m'.text.toList) : Kept db m db' m' :=
  ⟨hnode, htext, fun hidle => absurd hrun (hidle r hr hid)⟩

/-- An update that lets no ended request run again starts no writing. -/
theorem idle_update {p : RequestState → Bool} {f : RequestState → RequestState}
    (hrequests : db'.requests = Table.update p f db.requests)
    (hf : ∀ r ∈ db.requests, p r = true → (f r).assistantMessageId = r.assistantMessageId ∧
      ((f r).status = .running → r.status = .running)) (h : db.Idle id) : db'.Idle id := by
  unfold Database.Idle
  rw [hrequests]
  refine Table.forall_update h fun r hr hp hid hrun => ?_
  obtain ⟨hsame, hback⟩ := hf r hr hp
  exact h r hr (hsame ▸ hid) (hback hrun)

theorem Progressed.kept {m₀ : Message} (hp : Progressed db checkpoint terminal db' r m₀)
    (hs : db.Schema) (hm : m ∈ db.messages) : ∃ m' ∈ db'.messages, Kept db m db' m' := by
  have hmessages : db'.messages = Table.update _ _ db.messages :=
    congrArg Database.messages hp.state
  refine ⟨_, hmessages ▸ Table.mem_update_of_mem hm, ?_⟩
  split
  · next hid =>
    have hid : r.assistantMessageId = m.id := (of_decide_eq_true hid).symm
    exact .written hp.request hp.allowed.running hid rfl (by simp [progressMessage])
  · have hrequests : db'.requests = Table.update _ _ db.requests :=
      congrArg Database.requests hp.state
    refine .same m (idle_update hrequests fun r' hr' hid => ⟨rfl, fun _ => ?_⟩)
    rw [hs.requestId.eq hr' hp.request (of_decide_eq_true hid)]
    exact hp.allowed.running

theorem effect_kept (hs : db.Schema) (he : Effect db call db') (hm : m ∈ db.messages) :
    (∃ m' ∈ db'.messages, Kept db m db' m') ∨ call = .deleteChat m.chatId := by
  have hstays : ∀ {db' : Database}, db'.messages = db.messages → db'.requests = db.requests →
      ∃ m' ∈ db'.messages, Kept db m db' m' := fun hmessages hrequests =>
    ⟨m, hmessages ▸ hm, .same m fun h => by rwa [Database.Idle, hrequests]⟩
  cases he with
  | createChat hsame => exact .inl (hstays hsame.messages hsame.requests)
  | renameChat hsame => exact .inl (hstays hsame.messages hsame.requests)
  | @deleteChat chatId hidle =>
    by_cases hc : m.chatId = chatId
    · exact .inr (by rw [hc])
    · refine .inl ⟨m, List.mem_filter.mpr ⟨hm, by simpa using hc⟩, .same m fun h r hr => ?_⟩
      exact h r (List.mem_of_mem_filter hr)
  | beginTurn place hnext hfresh =>
    refine .inl ⟨m, List.mem_append_left _ hm, .same m fun h => ?_⟩
    -- the turn's own message has an identifier no message had
    refine Table.forall_insert h fun hid => ?_
    exact absurd hid.symm (hfresh.assistant m.node (mem_nodes.mpr ⟨m, hm, rfl⟩))
  | deliver r₀ h₀ hallowed =>
    exact .inl ⟨m, hm, .same m (idle_update rfl fun r _ _ => ⟨rfl, fun h => h⟩)⟩
  | acknowledge r₀ h₀ hallowed =>
    exact .inl ⟨m, hm, .same m (idle_update rfl fun r _ _ => ⟨rfl, fun h => h⟩)⟩
  | checkpoint r₀ m₀ hp => exact .inl (hp.kept hs hm)
  | finish r₀ m₀ hcode hp => exact .inl (hp.kept hs hm)
  | append depth pathLength db₁ message hmessage hlimit hadmits hreplace =>
    obtain ⟨hmessages, hrequests⟩ := replaceActivePath_conversation hreplace
    refine .inl ⟨m, ?_, .same m fun h => ?_⟩
    · show m ∈ db₁.messages
      rw [hmessages]
      exact List.mem_append_left _ hm
    · show db₁.Idle m.id
      rwa [Database.Idle, hrequests]
  | select pathLength db₁ hreplace =>
    obtain ⟨hmessages, hrequests⟩ := replaceActivePath_conversation hreplace
    exact .inl (hstays hmessages hrequests)
  | @restart recoveredAtMs _ hmessages hpath hrequests =>
    refine .inl ⟨_, hmessages ▸ Table.mem_update_of_mem hm, ?_⟩
    split
    · next hrun =>
      obtain ⟨r, hr, hid⟩ := List.any_eq_true.mp hrun
      obtain ⟨hr, hrun⟩ := List.mem_filter.mp hr
      exact .written hr (isRunning_iff.mp hrun) (beq_iff_eq.mp hid) rfl List.prefix_rfl
    · exact .same m (idle_update hrequests fun r _ hrun => ⟨rfl, fun _ => isRunning_iff.mp hrun⟩)

/-- Along a run, a message is kept for as long as no call has deleted its chat. -/
theorem run_kept (hs : db.Schema) (calls : List Call) (hm : m ∈ db.messages)
    (hchat : ∀ entry ∈ (store.run calls db).1, entry.1 = .deleteChat m.chatId →
      ∃ e, entry.2 = .error e) :
    ∃ m' ∈ (store.run calls db).2.messages, Kept db m (store.run calls db).2 m' := by
  induction calls generalizing db m with
  | nil => exact ⟨m, hm, .same m fun h => h⟩
  | cons call calls ih =>
    rw [Server.run_cons] at hchat ⊢
    have hs' : (store.exec call db).2.Schema := (transaction_schema call).commit hs
    obtain ⟨m₁, hm₁, hkept⟩ : ∃ m₁ ∈ (store.exec call db).2.messages,
        Kept db m (store.exec call db).2 m₁ := by
      rcases exec_cases hs call with ⟨e, he⟩ | ⟨response, db', he, heff⟩
      · rw [he]
        exact ⟨m, hm, .same m fun h => h⟩
      · rw [he]
        rcases effect_kept hs heff hm with h | hdelete
        · exact h
        · obtain ⟨e, herror⟩ := hchat (call, (store.exec call db).1) List.mem_cons_self hdelete
          rw [he] at herror
          cases herror
    have hsame : m₁.chatId = m.chatId := congrArg Node.chatId hkept.node
    obtain ⟨m', hm', hkept'⟩ := ih hs' hm₁ fun entry hentry hdelete =>
      hchat entry (List.mem_cons_of_mem _ hentry) (hsame ▸ hdelete)
    exact ⟨m', hm', hkept.trans hkept'⟩

/-- Over any run in which its chat is not deleted, a message keeps its identity and its place,
its text only grows, and it does not change at all if it is not partial, or if it is but no
running request writes to it (its turn was cancelled, or interrupted by a restart). -/
theorem messages_permanent (hdb : Reachable db) (calls : List Call) (hm : m ∈ db.messages)
    (hchat : ∀ entry ∈ (store.run calls db).1, entry.1 = .deleteChat m.chatId →
      ∃ e, entry.2 = .error e) :
    ∃ m' ∈ (store.run calls db).2.messages, m'.node = m.node ∧
      m.text.toList <+: m'.text.toList ∧
      (m.status ≠ .partialText ∨ db.Idle m.id → m' = m) := by
  obtain ⟨hs, hj⟩ := reachable_journal hdb
  obtain ⟨m', hm', hkept⟩ := run_kept hs calls hm hchat
  refine ⟨m', hm', hkept.node, hkept.text, fun h => (hkept.settled ?_).1⟩
  rcases h with hended | hidle
  · exact fun r hr hid hrun => hended (hj.running r hr hrun m hm hid.symm)
  · exact hidle

/-- The user's message, over the rest of the turn it began. -/
theorem messages_permanent_replayed :
    ∃ m' ∈ (store.run (replayedTurn.drop 2) (store.run sampleStart {}).2).2.messages,
      m'.id = ⟨11⟩ ∧ m'.text = "hi" := by
  obtain ⟨m, hm, hchat, hstatus, hid, htext⟩ : ∃ m ∈ (store.run sampleStart {}).2.messages,
      m.chatId = sampleChat ∧ m.status ≠ .partialText ∧ m.id = ⟨11⟩ ∧ m.text = "hi" := by decide
  have hnone : ∀ entry ∈ (store.run (replayedTurn.drop 2) (store.run sampleStart {}).2).1,
      entry.1 ≠ .deleteChat sampleChat := by decide
  obtain ⟨m', hm', -, -, hsame⟩ := messages_permanent ⟨sampleStart, rfl⟩ (replayedTurn.drop 2) hm
    fun entry hentry hdelete => absurd (hchat ▸ hdelete) (hnone entry hentry)
  obtain rfl := hsame (.inl hstatus)
  exact ⟨m', hm', hid, htext⟩

/-! ## A response in progress -/

/-- The calls that may write to the turn of a request: those that name it, and a restart. -/
def Call.Writes (id : RequestStateId) : Call → Prop
  | .recordResponseDelivery checkpoint => checkpoint.requestStateId = id
  | .checkpointResponse checkpoint => checkpoint.requestStateId = id
  | .finishTurn terminal => terminal.checkpoint.requestStateId = id
  | .restart _ => True
  | _ => False

/-- The row is the same but for its acknowledgement. -/
def RequestState.Abides (r r' : RequestState) : Prop :=
  r' = { r with lastAckedSeq := r'.lastAckedSeq, updatedAtMs := r'.updatedAtMs }

theorem setRequest_other {f : RequestState → RequestState} (hr : r ∈ db.requests)
    (h : r.id ≠ r'.id) : r ∈ (db.setRequest r'.id f).requests :=
  Table.mem_update_of_not hr (by simpa using h)

theorem Progressed.other {m₀ : Message} (hp : Progressed db checkpoint terminal db' r' m₀)
    (hj : db.Journal) (hr : r ∈ db.requests) (hm : m ∈ db.messages)
    (hmr : m.id = r.assistantMessageId) (h : r.id ≠ r'.id) :
    r ∈ db'.requests ∧ m ∈ db'.messages := by
  rw [hp.state]
  refine ⟨setRequest_other hr h, Table.mem_update_of_not hm (decide_eq_false fun hid => h ?_)⟩
  -- no two requests write to one message
  rw [hj.owner.eq hr hp.request (hmr.symm.trans hid)]

/-- A call that does not write to a running turn leaves it as it is. -/
theorem effect_abides (hs : db.Schema) (hj : db.Journal) (he : Effect db call db')
    (hr : r ∈ db.requests) (hrun : r.status = .running) (hm : m ∈ db.messages)
    (hmr : m.id = r.assistantMessageId) (hcall : ¬ call.Writes r.id) :
    ∃ r' ∈ db'.requests, r.Abides r' ∧ m ∈ db'.messages := by
  cases he with
  | createChat hsame | renameChat hsame =>
    exact ⟨r, hsame.requests ▸ hr, rfl, hsame.messages ▸ hm⟩
  | @deleteChat chatId hidle =>
    have hother : r.chatId ≠ chatId := fun h => hidle r hr h hrun
    obtain ⟨n, hn, hchat, hid⟩ := hs.requestAssistant r hr
    have hsame : m.node = n :=
      hs.messageId.eq (mem_nodes.mpr ⟨m, hm, rfl⟩) hn (hmr.trans hid.symm)
    have hmchat : m.chatId ≠ chatId := by
      rw [show m.chatId = r.chatId from (congrArg Node.chatId hsame).trans hchat]
      exact hother
    exact ⟨r, List.mem_filter.mpr ⟨hr, by simpa using hother⟩, rfl,
      List.mem_filter.mpr ⟨hm, by simpa using hmchat⟩⟩
  | beginTurn place hnext hfresh =>
    exact ⟨r, List.mem_append_left _ hr, rfl, List.mem_append_left _ hm⟩
  | deliver r₀ h₀ hallowed =>
    exact ⟨r, setRequest_other hr fun h => hcall (hallowed.id.symm.trans h.symm), rfl, hm⟩
  | acknowledge r₀ h₀ hallowed =>
    refine ⟨_, Table.mem_update_of_mem hr, ?_, hm⟩
    split <;> rfl
  | checkpoint r₀ m₀ hp =>
    obtain ⟨hr, hm⟩ := hp.other hj hr hm hmr fun h => hcall (hp.allowed.id.symm.trans h.symm)
    exact ⟨r, hr, rfl, hm⟩
  | finish r₀ m₀ hcode hp =>
    obtain ⟨hr, hm⟩ := hp.other hj hr hm hmr fun h => hcall (hp.allowed.id.symm.trans h.symm)
    exact ⟨r, hr, rfl, hm⟩
  | append depth pathLength db₁ message hmessage hlimit hadmits hreplace =>
    obtain ⟨hmessages, hrequests⟩ := replaceActivePath_conversation hreplace
    exact ⟨r, hrequests ▸ hr, rfl, hmessages ▸ List.mem_append_left _ hm⟩
  | select pathLength db₁ hreplace =>
    obtain ⟨hmessages, hrequests⟩ := replaceActivePath_conversation hreplace
    exact ⟨r, hrequests ▸ hr, rfl, hmessages ▸ hm⟩
  | restart hmessages hpath hrequests => exact absurd trivial hcall

end Lorepia.Storage
