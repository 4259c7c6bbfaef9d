import Lorepia.Storage.Effects

/-!
# The stream journal

`request_state` is the journal of streamed responses: how far a response has been delivered,
made durable and acknowledged, and how it ended. The invariants over every run of calls:

- `Journal` and the row checks: the three sequence numbers are ordered, a chat has at most one
  running request, whose message is still partial, and rows only ever advance (`Advances`);
- `Written`: a message holds the texts of the accepted checkpoints of its request, in order. The
  compare-and-set on `last_durable_seq` keeps a checkpoint from being accepted twice.
-/

namespace Lorepia.Storage

/-! ## The invariant -/

/-- What the operations add to the schema's guarantees. -/
structure Database.Journal (db : Database) : Prop where
  /-- A running request's message is partial. -/
  running : ∀ r ∈ db.requests, r.status = .running →
    ∀ m ∈ db.messages, m.id = r.assistantMessageId → m.status = .partialText
  /-- The message is the assistant's, written when the turn began. -/
  assistant : ∀ r ∈ db.requests, ∀ n ∈ db.nodes, n.id = r.assistantMessageId →
    n.role = .assistant ∧ n.createdAtMs = r.startedAtMs
  /-- No two requests write to one message. -/
  owner : Table.Keyed RequestState.assistantMessageId db.requests

theorem journal_empty : ({} : Database).Journal where
  running := by simp
  assistant := by simp
  owner := Table.Keyed.nil

theorem update_none {α : Type} (t : List α) : Table.update (fun _ => false) id t = t := by
  simp [Table.update]

variable {db db' : Database} {g : RequestState → RequestState} {m : Message}
  {checkpoint : ResponseCheckpoint} {terminal : Option TerminalOutcome} {r : RequestState}
  {call : Call} {id : RequestStateId} {log : List (Call × Reply)} {entry : Call × Reply}

theorem Database.Journal.congr (h : db.Journal)
    (hm : db'.messages = db.messages) (hr : db'.requests = db.requests) : db'.Journal := by
  refine ⟨?_, ?_, ?_⟩
  · rw [hm, hr]
    exact h.running
  · unfold Database.nodes
    rw [hm, hr]
    exact h.assistant
  · rw [hr]
    exact h.owner

/-- Writing rows without touching their identity, as long as no request starts
running and every message of a running request stays partial. -/
theorem Database.Journal.update (h : db.Journal)
    {p : Message → Bool} {f : Message → Message} {q : RequestState → Bool}
    (hm : db'.messages = Table.update p f db.messages)
    (hr : db'.requests = Table.update q g db.requests)
    (hf : ∀ m, (f m).node = m.node) (hg : ∀ r, (g r).identity = r.identity)
    (hstay : ∀ r ∈ db.requests, (if q r then g r else r).status = .running →
      r.status = .running ∧ ∀ m ∈ db.messages, m.id = r.assistantMessageId →
        (if p m then f m else m).status = .partialText) : db'.Journal := by
  have hid : ∀ {β : Type} (k : RequestIdentity → β) r,
      k (if q r then g r else r).identity = k r.identity :=
    fun k r => congrArg k (Table.updated_eq hg r)
  have hmid : ∀ m, (if p m then f m else m).id = m.id :=
    Table.updated_eq fun m => congrArg Node.id (hf m)
  refine ⟨?_, ?_, ?_⟩
  · rw [hm, hr]
    intro r hr' hrun m hm' hmr
    obtain ⟨r₀, hr₀, rfl⟩ := Table.mem_update.mp hr'
    obtain ⟨m₀, hm₀, rfl⟩ := Table.mem_update.mp hm'
    have hsame : m₀.id = r₀.assistantMessageId := by
      rw [← hmid m₀, hmr]
      exact hid RequestIdentity.assistantMessageId r₀
    exact (hstay r₀ hr₀ hrun).2 m₀ hm₀ hsame
  · have hnodes : db'.nodes = db.nodes := by
      unfold Database.nodes
      rw [hm]
      exact Table.map_update hf _
    rw [hnodes, hr]
    intro r hr' n hn hnr
    obtain ⟨r₀, hr₀, rfl⟩ := Table.mem_update.mp hr'
    have := h.assistant r₀ hr₀ n hn (hnr.trans (hid RequestIdentity.assistantMessageId r₀))
    exact ⟨this.1, this.2.trans (hid RequestIdentity.startedAtMs r₀).symm⟩
  · rw [hr]
    exact h.owner.update fun r => congrArg RequestIdentity.assistantMessageId (hg r)

theorem Database.Journal.insertMessage (hs : db.Schema) (h : db.Journal)
    (hm : db'.messages = db.messages ++ [m]) (hr : db'.requests = db.requests)
    (hfresh : ∀ n ∈ db.nodes, n.id ≠ m.id) : db'.Journal := by
  have hother : ∀ r ∈ db.requests, m.id ≠ r.assistantMessageId := by
    intro r hr he
    obtain ⟨n, hn, -, hid⟩ := hs.requestAssistant r hr
    exact hfresh n hn (hid.trans he.symm)
  refine ⟨?_, ?_, hr ▸ h.owner⟩
  · rw [hm, hr]
    intro r hr' hrun x hx hxr
    rcases List.mem_append.mp hx with hx | hx
    · exact h.running r hr' hrun x hx hxr
    · rw [List.mem_singleton.mp hx] at hxr
      exact absurd hxr (hother r hr')
  · unfold Database.nodes
    rw [hm, hr, List.map_append]
    intro r hr' n hn hnr
    rcases List.mem_append.mp hn with hn | hn
    · exact h.assistant r hr' n hn hnr
    · obtain rfl : n = m.node := by simpa using hn
      exact absurd hnr (hother r hr')

theorem Database.Journal.setRequest (h : db.Journal) (id : RequestStateId)
    (hg : ∀ r, (g r).identity = r.identity)
    (hstatus : ∀ r, (g r).status = r.status) : (db.setRequest id g).Journal := by
  refine h.update (update_none db.messages).symm rfl (fun _ => rfl) hg fun r hr hrun => ?_
  have hrun : r.status = .running := by
    split at hrun
    · exact (hstatus r).symm.trans hrun
    · exact hrun
  exact ⟨hrun, h.running r hr hrun⟩

theorem Database.Journal.progressed (h : db.Journal)
    (hs : db.Schema) (hp : Progressed db checkpoint terminal db' r m) :
    db'.Journal := by
  rw [hp.state]
  refine h.update rfl rfl (fun _ => rfl) (fun _ => rfl) fun q hq hrun => ?_
  by_cases hqr : q.id = r.id
  · -- the row itself: still running only if the call was not terminal
    obtain rfl := hs.requestId.eq hq hp.request hqr
    rw [if_pos (decide_eq_true rfl)] at hrun
    have hterminal : terminal = none := by
      cases terminal with
      | none => rfl
      | some outcome => cases outcome <;> cases hrun
    subst hterminal
    refine ⟨hp.allowed.running, fun x hx hxq => ?_⟩
    rw [if_pos (decide_eq_true hxq)]
    rfl
  · -- another row writes to another message
    rw [if_neg (by simpa using hqr)] at hrun
    refine ⟨hrun, fun x hx hxq => ?_⟩
    have hother : ¬ x.id = r.assistantMessageId := fun he =>
      hqr (congrArg RequestState.id (h.owner.eq hq hp.request (hxq.symm.trans he)))
    rw [if_neg (by simpa using hother)]
    exact h.running q hq hrun x hx hxq

theorem Database.Journal.deleteChat (h : db.Journal) (chatId : ChatId) : Database.Journal
      { chats := dropChat Chat.id chatId db.chats
        messages := dropChat Message.chatId chatId db.messages
        activePath := dropChat PathRow.chatId chatId db.activePath
        requests := dropChat RequestState.chatId chatId db.requests } where
  running r hr hrun m hm hmr :=
    h.running r (List.mem_of_mem_filter hr) hrun m (List.mem_of_mem_filter hm) hmr
  assistant r hr n hn hnr :=
    h.assistant r (List.mem_of_mem_filter hr) n (mem_nodes_deleteChat.mp hn).1 hnr
  owner := h.owner.filter _

theorem begun_assistant (hs : db.Schema) {place : TurnPlace} {input : BeginTurn} {ids : TurnIds}
    (hfresh : TurnFresh db input ids) {m : Message} (hr : r ∈ (db.begun place input ids).requests)
    (hm : m ∈ (db.begun place input ids).messages) (hmr : m.id = r.assistantMessageId) :
    r ∈ db.requests ∧ m ∈ db.messages ∨
      r = input.requestState ids ∧ m = place.assistant input ids := by
  have hm : m ∈ db.messages ∨ m = place.user input ids ∨ m = place.assistant input ids := by
    simpa [Database.begun, Database.touch] using hm
  rcases List.mem_append.mp hr with hr | hr
  · obtain ⟨n, hn, -, hid⟩ := hs.requestAssistant r hr
    rcases hm with hm | rfl | rfl
    · exact .inl ⟨hr, hm⟩
    · exact absurd (hid.trans hmr.symm) (hfresh.user n hn)
    · exact absurd (hid.trans hmr.symm) (hfresh.assistant n hn)
  · obtain rfl := List.mem_singleton.mp hr
    rcases hm with hm | rfl | rfl
    · exact absurd hmr (hfresh.assistant m.node (mem_nodes.mpr ⟨m, hm, rfl⟩))
    · exact absurd hmr hfresh.distinct
    · exact .inr ⟨rfl, rfl⟩

theorem Database.Journal.begun (h : db.Journal) (hs : db.Schema)
    {place : TurnPlace} {input : BeginTurn} {ids : TurnIds} (hfresh : TurnFresh db input ids) :
    (db.begun place input ids).Journal := by
  refine ⟨?_, ?_, ?_⟩
  · intro r hr hrun m hm hmr
    obtain ⟨hr, hm⟩ | ⟨rfl, rfl⟩ := begun_assistant hs hfresh hr hm hmr
    · exact h.running r hr hrun m hm hmr
    · rfl
  · intro r hr n hn hnr
    obtain ⟨m, hm, rfl⟩ := mem_nodes.mp hn
    obtain ⟨hr, hm⟩ | ⟨rfl, rfl⟩ := begun_assistant hs hfresh hr hm hnr
    · exact h.assistant r hr m.node (mem_nodes.mpr ⟨m, hm, rfl⟩) hnr
    · exact ⟨rfl, rfl⟩
  · refine h.owner.insert fun r hr => ?_
    obtain ⟨n, hn, -, hid⟩ := hs.requestAssistant r hr
    exact hid ▸ hfresh.assistant n hn

theorem replaceActivePath_conversation {db₁ : Database} {chatId : ChatId} {leaf : MessageId}
    {n : Nat} (h : replaceActivePath chatId leaf db = .ok (n, db₁)) :
    db₁.messages = db.messages ∧ db₁.requests = db.requests := by
  obtain ⟨-, rfl⟩ := replaceActivePath_ok h
  exact ⟨rfl, rfl⟩

theorem effect_journal (hs : db.Schema) (h : db.Journal)
    (he : Effect db call db') : db'.Journal := by
  cases he with
  | createChat hsame => exact h.congr hsame.messages hsame.requests
  | renameChat hsame => exact h.congr hsame.messages hsame.requests
  | deleteChat hidle => exact h.deleteChat _
  | beginTurn place hnext hfresh => exact h.begun hs hfresh
  | deliver r hr hallowed => exact h.setRequest _ (fun _ => rfl) fun _ => rfl
  | acknowledge r hr hallowed => exact h.setRequest _ (fun _ => rfl) fun _ => rfl
  | checkpoint r m hp => exact h.progressed hs hp
  | finish r m hcode hp => exact h.progressed hs hp
  | append depth pathLength db₁ message hmessage hlimit hadmits hreplace =>
    obtain ⟨hm, hr⟩ := replaceActivePath_conversation hreplace
    exact h.insertMessage hs hm hr hadmits.id
  | select pathLength db₁ hreplace =>
    obtain ⟨hm, hr⟩ := replaceActivePath_conversation hreplace
    exact h.congr hm hr
  | restart hm hp hr =>
    refine h.update hm hr (fun _ => rfl) (fun _ => rfl) fun r _ hrun => ?_
    -- recovery leaves no request running
    split at hrun
    · cases hrun
    · next hnot => exact absurd (isRunning_iff.mpr hrun) hnot

theorem reachable_journal (h : Reachable db) : db.Schema ∧ db.Journal :=
  Server.Reachable.invariant (I := fun db => db.Schema ∧ db.Journal)
    (fun _ call hi => ⟨(transaction_schema call).commit hi.1,
      exec_preserves (I := Database.Journal) (fun _ _ hs hj he => effect_journal hs hj he) hi.1 hi.2⟩)
    ⟨schema_empty, journal_empty⟩ h


/-! ## Rows only advance -/

/-- What may happen to a journal row over time: its three sequence numbers do not
decrease, and once it has ended only the acknowledgement and the row's date move. -/
structure RequestState.Advances (r r' : RequestState) : Prop where
  identity : r'.identity = r.identity
  delivered : r.lastDeliveredSeq ≤ r'.lastDeliveredSeq
  durable : r.lastDurableSeq ≤ r'.lastDurableSeq
  acked : ∀ s ∈ r.lastAckedSeq, ∃ s' ∈ r'.lastAckedSeq, s ≤ s'
  settled : r.status ≠ .running →
    r' = { r with lastAckedSeq := r'.lastAckedSeq, updatedAtMs := r'.updatedAtMs }

theorem RequestState.Advances.refl (r : RequestState) : r.Advances r where
  identity := rfl
  delivered := le_refl _
  durable := le_refl _
  acked s hs := ⟨s, hs, le_refl _⟩
  settled _ := rfl

theorem RequestState.Advances.trans {a b c : RequestState} (hab : a.Advances b)
    (hbc : b.Advances c) : a.Advances c where
  identity := hbc.identity.trans hab.identity
  delivered := hab.delivered.trans hbc.delivered
  durable := hab.durable.trans hbc.durable
  acked s hs := by
    obtain ⟨s', hs', hle⟩ := hab.acked s hs
    obtain ⟨s'', hs'', hle'⟩ := hbc.acked s' hs'
    exact ⟨s'', hs'', hle.trans hle'⟩
  settled ha := by
    have hb := hab.settled ha
    have hstatus : b.status ≠ .running := by
      rw [hb]
      exact ha
    rw [hbc.settled hstatus, hb]

theorem deliverRequest_advances {checkpoint : DeliveryCheckpoint}
    (h : DeliveryAllowed r checkpoint) (atMs : TimestampMillis) :
    r.Advances (deliverRequest checkpoint atMs r) :=
  { RequestState.Advances.refl r with
    delivered := by
      show r.lastDeliveredSeq ≤ checkpoint.throughSeq
      rw [h.next, ← h.expected]
      omega
    settled := fun hended => absurd h.running hended }

theorem ackRequest_advances {ack : CumulativeAck} (h : AckAllowed r ack)
    (atMs : TimestampMillis) : r.Advances (ackRequest ack atMs r) :=
  { RequestState.Advances.refl r with
    acked := by
      intro s hs
      refine ⟨ack.throughSeq, rfl, ?_⟩
      have hexpected : ack.expectedLastAckedSeq = some s := h.expected ▸ hs
      have hlt := h.advances
      rw [hexpected, Option.getD_some] at hlt
      exact hlt.le
    settled := fun _ => rfl }

theorem progressRequest_advances (h : ProgressAllowed r m checkpoint)
    (terminal : Option TerminalOutcome) (atMs : TimestampMillis) :
    r.Advances (progressRequest checkpoint terminal r atMs r) :=
  { RequestState.Advances.refl r with
    durable := by
      show r.lastDurableSeq ≤ checkpoint.throughSeq
      rw [h.expected]
      exact h.advances.le
    settled := fun hended => absurd h.running hended }

theorem setRequest_advances (hs : db.Schema) {r₀ : RequestState}
    (h₀ : r₀ ∈ db.requests) (hg : r₀.Advances (g r₀)) (hr : r ∈ db.requests) :
    ∃ r' ∈ (db.setRequest r₀.id g).requests, r.Advances r' := by
  refine ⟨_, Table.mem_update_of_mem hr, ?_⟩
  split
  · next hid =>
    rw [hs.requestId.eq hr h₀ (of_decide_eq_true hid)]
    exact hg
  · exact .refl r

theorem Progressed.advances {r₀ : RequestState}
    (hp : Progressed db checkpoint terminal db' r₀ m) (hs : db.Schema)
    (hr : r ∈ db.requests) : ∃ r' ∈ db'.requests, r.Advances r' := by
  obtain ⟨r', hr', hadv⟩ := setRequest_advances hs hp.request
    (progressRequest_advances hp.allowed terminal (effectiveStreamTimestamp r₀ checkpoint.atMs)) hr
  rw [hp.state]
  exact ⟨r', hr', hadv⟩

theorem effect_advances (hs : db.Schema) (he : Effect db call db') (hr : r ∈ db.requests) :
    (∃ r' ∈ db'.requests, r.Advances r') ∨ call = .deleteChat r.chatId := by
  have hstays : ∀ {db' : Database}, db'.requests = db.requests →
      ∃ r' ∈ db'.requests, r.Advances r' := fun h => ⟨r, h ▸ hr, .refl r⟩
  cases he with
  | createChat hsame => exact .inl (hstays hsame.requests)
  | renameChat hsame => exact .inl (hstays hsame.requests)
  | @deleteChat chatId hidle =>
    by_cases hc : r.chatId = chatId
    · exact .inr (by rw [hc])
    · exact .inl ⟨r, List.mem_filter.mpr ⟨hr, by simpa using hc⟩, .refl r⟩
  | beginTurn place hnext hfresh => exact .inl ⟨r, List.mem_append_left _ hr, .refl r⟩
  | deliver r₀ h₀ hallowed =>
    exact .inl (setRequest_advances hs h₀ (deliverRequest_advances hallowed _) hr)
  | acknowledge r₀ h₀ hallowed =>
    exact .inl (setRequest_advances hs h₀ (ackRequest_advances hallowed _) hr)
  | checkpoint r₀ m hp => exact .inl (hp.advances hs hr)
  | finish r₀ m hcode hp => exact .inl (hp.advances hs hr)
  | append depth pathLength db₁ message hmessage hlimit hadmits hreplace =>
    exact .inl (hstays (replaceActivePath_conversation hreplace).2)
  | select pathLength db₁ hreplace =>
    exact .inl (hstays (replaceActivePath_conversation hreplace).2)
  | @restart recoveredAtMs _ hm hp hrequests =>
    refine .inl ⟨_, hrequests ▸ Table.mem_update_of_mem hr, ?_⟩
    split
    · next hrun =>
      exact { RequestState.Advances.refl r with
        settled := fun hended => absurd (isRunning_iff.mp hrun) hended }
    · exact .refl r

theorem run_advances (hi : db.Schema) (calls : List Call) (hr : r ∈ db.requests)
    (hkept : ∀ entry ∈ (store.run calls db).1, entry.1 = .deleteChat r.chatId →
      ∃ e, entry.2 = .error e) :
    ∃ r' ∈ (store.run calls db).2.requests, r.Advances r' := by
  induction calls generalizing db r with
  | nil => exact ⟨r, hr, .refl r⟩
  | cons call calls ih =>
    rw [Server.run_cons] at hkept ⊢
    have hi' : (store.exec call db).2.Schema := (transaction_schema call).commit hi
    -- one step
    obtain ⟨r₁, hr₁, hadv⟩ : ∃ r₁ ∈ (store.exec call db).2.requests, r.Advances r₁ := by
      rcases exec_cases hi call with ⟨e, he⟩ | ⟨response, db', he, heff⟩
      · rw [he]
        exact ⟨r, hr, .refl r⟩
      · rw [he]
        rcases effect_advances hi heff hr with h | hdelete
        · exact h
        · obtain ⟨e, herror⟩ := hkept (call, (store.exec call db).1) List.mem_cons_self hdelete
          rw [he] at herror
          cases herror
    -- the rest of the run, for the row as it is now
    have hchat : r₁.chatId = r.chatId := congrArg RequestIdentity.chatId hadv.identity
    obtain ⟨r', hr', hadv'⟩ := ih hi' hr₁ fun entry hentry hdelete =>
      hkept entry (List.mem_cons_of_mem _ hentry) (hchat ▸ hdelete)
    exact ⟨r', hr', hadv.trans hadv'⟩

theorem running_iff_unfinished (h : r.Check) : r.status = .running ↔ r.finishedAtMs = none := by
  rcases h.outcome with ⟨h₁, h₂, -⟩ | ⟨h₁ | h₁, h₂, -⟩ | ⟨h₁, h₂, -⟩ | ⟨h₁, h₂, -⟩ <;>
    simp_all [Option.isSome_iff_ne_none]

/-- The stream journal is sound in every state the store can reach, rows only ever advance, and
a call that fails changes nothing at all. -/
theorem stream_journal_sound (calls : List Call) :
    let db := (store.run calls {}).2
    -- the order of the sequence numbers
    (∀ r ∈ db.requests, (∀ s ∈ r.lastAckedSeq, s ≠ 0 ∧ s ≤ r.lastDurableSeq) ∧
      r.lastDurableSeq ≤ r.lastDeliveredSeq ∧ r.lastDeliveredSeq ≤ 2 ^ 53 - 1) ∧
    -- rows advance, and ended rows keep everything but the acknowledgement
    (∀ later : List Call, ∀ r ∈ db.requests,
      (∀ entry ∈ (store.run later db).1, entry.1 = .deleteChat r.chatId →
        ∃ e, entry.2 = .error e) →
      ∃ r' ∈ (store.run later db).2.requests, r.Advances r') ∧
    -- at most one running request per chat
    (∀ r₁ ∈ db.requests, ∀ r₂ ∈ db.requests, r₁.status = .running → r₂.status = .running →
      r₁.chatId = r₂.chatId → r₁ = r₂) ∧
    -- running means unfinished, and the message is partial
    (∀ r ∈ db.requests, (r.status = .running ↔ r.finishedAtMs = none) ∧
      (r.status = .running → ∃ m ∈ db.messages, m.id = r.assistantMessageId ∧
        m.chatId = r.chatId ∧ m.role = .assistant ∧ m.status = .partialText)) ∧
    -- failed calls are invisible
    (∀ call e, (store.exec call db).1 = .error e → (store.exec call db).2 = db) := by
  intro db
  obtain ⟨hs, hj⟩ := reachable_journal ⟨calls, (rfl : _ = db)⟩
  refine ⟨fun r hr => ?_, fun later r hr hkept => run_advances hs later hr hkept,
    fun r₁ h₁ r₂ h₂ hrun₁ hrun₂ hchat => ?_,
    fun r hr => ⟨running_iff_unfinished (hs.requestCheck r hr), fun hrun => ?_⟩,
    fun call e he => Tx.commit_error_state he⟩
  · have hc := hs.requestCheck r hr
    exact ⟨fun s h => ⟨Nat.one_le_iff_ne_zero.mp (hc.acked s h).1, (hc.acked s h).2⟩, hc.durable,
      hc.delivered⟩
  · exact hs.requestRunning.eq (List.mem_filter.mpr ⟨h₁, isRunning_iff.mpr hrun₁⟩)
      (List.mem_filter.mpr ⟨h₂, isRunning_iff.mpr hrun₂⟩) hchat
  · obtain ⟨n, hn, hchat, hid⟩ := hs.requestAssistant r hr
    obtain ⟨m, hm, rfl⟩ := mem_nodes.mp hn
    exact ⟨m, hm, hid, hchat, (hj.assistant r hr m.node hn hid).1, hj.running r hr hrun m hm hid⟩


/-! ## Exactly-once text -/

def Call.checkpoint? : Call → Option ResponseCheckpoint
  | .checkpointResponse checkpoint => some checkpoint
  | .finishTurn terminal => some terminal.checkpoint
  | _ => none

def acceptedCheckpoint (entry : Call × Reply) : Option ResponseCheckpoint :=
  match entry.2 with
  | .ok _ => entry.1.checkpoint?
  | .error _ => none

def acceptedTexts (id : RequestStateId) (log : List (Call × Reply)) : List String :=
  ((log.filterMap acceptedCheckpoint).filter fun checkpoint => checkpoint.requestStateId = id).map
    ResponseCheckpoint.appendedText

/-- How the history of a store that deletes no chat shows in its rows. -/
structure Written (log : List (Call × Reply)) (db : Database) : Prop where
  schema : db.Schema
  journal : db.Journal
  /-- A message holds exactly the accepted texts of its request. -/
  text : ∀ r ∈ db.requests, ∀ m ∈ db.messages, m.id = r.assistantMessageId →
    m.text = String.join (acceptedTexts r.id log)
  /-- The durable sequence has passed every accepted checkpoint. -/
  passed : ∀ checkpoint ∈ log.filterMap acceptedCheckpoint,
    ∃ r ∈ db.requests, r.id = checkpoint.requestStateId ∧
      checkpoint.throughSeq ≤ r.lastDurableSeq

theorem acceptedTexts_snoc_none (h : acceptedCheckpoint entry = none) :
    acceptedTexts id (log ++ [entry]) = acceptedTexts id log := by
  simp [acceptedTexts, List.filterMap_append, h]

theorem acceptedTexts_snoc_some (h : acceptedCheckpoint entry = some checkpoint) :
    acceptedTexts id (log ++ [entry]) = acceptedTexts id log ++
      (if checkpoint.requestStateId = id then [checkpoint.appendedText] else []) := by
  by_cases hid : checkpoint.requestStateId = id <;>
    simp [acceptedTexts, List.filterMap_append, h, hid]

theorem Written.acceptedTexts_fresh (h : Written log db) (hfresh : ∀ r ∈ db.requests, r.id ≠ id) :
    acceptedTexts id log = [] := by
  unfold acceptedTexts
  rw [List.map_eq_nil_iff, List.filter_eq_nil_iff]
  intro checkpoint hc hid
  obtain ⟨r, hr, hrid, -⟩ := h.passed checkpoint hc
  exact hfresh r hr (hrid.trans (of_decide_eq_true hid))

/-- A call that submits no text keeps the correspondence when it neither rewrites a
text nor loses a row. -/
theorem Written.silent (h : Written log db) (hs : db'.Schema) (hj : db'.Journal)
    (hentry : acceptedCheckpoint entry = none)
    (htext : ∀ r ∈ db'.requests, ∀ m ∈ db'.messages, m.id = r.assistantMessageId →
      m.text = String.join (acceptedTexts r.id log))
    (hrows : ∀ r ∈ db.requests, ∃ r' ∈ db'.requests, r.Advances r') :
    Written (log ++ [entry]) db' := by
  refine ⟨hs, hj, fun r hr m hm hmr => ?_, fun checkpoint hc => ?_⟩
  · rw [acceptedTexts_snoc_none hentry]
    exact htext r hr m hm hmr
  · have hc : checkpoint ∈ log.filterMap acceptedCheckpoint := by
      simpa [List.filterMap_append, hentry] using hc
    obtain ⟨r, hr, hid, hle⟩ := h.passed checkpoint hc
    obtain ⟨r', hr', hadv⟩ := hrows r hr
    exact ⟨r', hr', (congrArg RequestIdentity.id hadv.identity).trans hid,
      hle.trans hadv.durable⟩

theorem Written.progressed (h : Written log db) (hs : db'.Schema)
    (hp : Progressed db checkpoint terminal db' r m)
    (hentry : acceptedCheckpoint entry = some checkpoint) : Written (log ++ [entry]) db' := by
  have hj := h.journal.progressed h.schema hp
  have hrows : ∀ q ∈ db.requests, ∃ q' ∈ db'.requests, q.Advances q' := by
    intro q hq
    exact hp.advances h.schema hq
  refine ⟨hs, hj, fun q' hq' x' hx' hxq => ?_, fun c hc => ?_⟩
  · rw [hp.state] at hq' hx'
    obtain ⟨q, hq, rfl⟩ := Table.mem_update.mp hq'
    obtain ⟨x, hx, rfl⟩ := Table.mem_update.mp hx'
    have hids : (if decide (q.id = r.id) = true then
        progressRequest checkpoint terminal r (effectiveStreamTimestamp r checkpoint.atMs) q
        else q).id = q.id ∧ (if decide (q.id = r.id) = true then
        progressRequest checkpoint terminal r (effectiveStreamTimestamp r checkpoint.atMs) q
        else q).assistantMessageId = q.assistantMessageId := by
      split <;> exact ⟨rfl, rfl⟩
    have hxid : x.id = q.assistantMessageId := by
      rw [hids.2] at hxq
      split at hxq <;> exact hxq
    rw [hids.1, acceptedTexts_snoc_some hentry, String.join_append,
      ← h.text q hq x hx hxid, ← hp.allowed.id]
    by_cases hqr : r.id = q.id
    · obtain rfl := h.schema.requestId.eq hp.request hq hqr
      rw [if_pos (decide_eq_true hxid), if_pos rfl]
      simp [progressMessage]
    · have hother : ¬ x.id = r.assistantMessageId := fun he => hqr
        (congrArg RequestState.id (h.journal.owner.eq hp.request hq (he.symm.trans hxid)))
      rw [if_neg (by simpa using hother), if_neg hqr]
      simp
  · rw [List.filterMap_append] at hc
    rcases List.mem_append.mp hc with hc | hc
    · obtain ⟨q, hq, hid, hle⟩ := h.passed c hc
      obtain ⟨q', hq', hadv⟩ := hrows q hq
      exact ⟨q', hq', (congrArg RequestIdentity.id hadv.identity).trans hid,
        hle.trans hadv.durable⟩
    · obtain rfl : c = checkpoint := by simpa [hentry, eq_comm] using hc
      rw [hp.state]
      exact ⟨_, Table.mem_update_of_true hp.request (decide_eq_true rfl), hp.allowed.id, le_refl _⟩


theorem Written.text_update (h : Written log db)
    {p : Message → Bool} {f : Message → Message} {q : RequestState → Bool}
    (hm : db'.messages = Table.update p f db.messages)
    (hr : db'.requests = Table.update q g db.requests)
    (hf : ∀ m, (f m).id = m.id ∧ (f m).text = m.text) (hg : ∀ r, (g r).identity = r.identity) :
    ∀ r ∈ db'.requests, ∀ m ∈ db'.messages, m.id = r.assistantMessageId →
      m.text = String.join (acceptedTexts r.id log) := by
  rw [hm, hr]
  intro r' hr' m' hm' hmr
  obtain ⟨r, hr₀, rfl⟩ := Table.mem_update.mp hr'
  obtain ⟨m, hm₀, rfl⟩ := Table.mem_update.mp hm'
  have hrow : (if q r then g r else r).identity = r.identity := Table.updated_eq hg r
  have hid : (if q r then g r else r).id = r.id := congrArg RequestIdentity.id hrow
  have hassistant : (if q r then g r else r).assistantMessageId = r.assistantMessageId :=
    congrArg RequestIdentity.assistantMessageId hrow
  have hmid : (if p m then f m else m).id = m.id := Table.updated_eq (fun m => (hf m).1) m
  have htext : (if p m then f m else m).text = m.text := Table.updated_eq (fun m => (hf m).2) m
  rw [htext, hid]
  exact h.text r hr₀ m hm₀ (by rw [← hmid, hmr, hassistant])

theorem Written.text_begun (h : Written log db)
    {place : TurnPlace} {input : BeginTurn} {ids : TurnIds} (hfresh : TurnFresh db input ids) :
    ∀ r ∈ (db.begun place input ids).requests, ∀ m ∈ (db.begun place input ids).messages,
      m.id = r.assistantMessageId → m.text = String.join (acceptedTexts r.id log) := by
  intro r hr m hm hmr
  obtain ⟨hr, hm⟩ | ⟨rfl, rfl⟩ := begun_assistant h.schema hfresh hr hm hmr
  · exact h.text r hr m hm hmr
  · have hnone : acceptedTexts (input.requestState ids).id log = [] :=
      h.acceptedTexts_fresh hfresh.request
    rw [hnone]
    rfl

def Call.keepsChats : Call → Bool
  | .deleteChat _ => false
  | _ => true

theorem written_step (log : List (Call × Reply)) (db : Database) (call : Call)
    (hkeeps : call.keepsChats = true) (h : Written log db) :
    Written (log ++ [(call, (store.exec call db).1)]) (store.exec call db).2 := by
  have hs' : (store.exec call db).2.Schema := (transaction_schema call).commit h.schema
  rcases exec_cases h.schema call with ⟨e, he⟩ | ⟨response, db', he, heff⟩
  · -- a failed call changes neither the rows nor the accepted texts
    rw [he]
    exact h.silent h.schema h.journal rfl h.text fun r hr => ⟨r, hr, .refl r⟩
  · rw [he] at hs' ⊢
    have hj' := effect_journal h.schema h.journal heff
    have hrows : ∀ r ∈ db.requests, ∃ r' ∈ db'.requests, r.Advances r' := by
      intro r hr
      rcases effect_advances h.schema heff hr with hadv | hdelete
      · exact hadv
      · rw [hdelete] at hkeeps
        exact absurd hkeeps Bool.false_ne_true
    cases heff with
    | createChat hsame =>
      exact h.silent hs' hj' rfl (by rw [hsame.messages, hsame.requests]; exact h.text) hrows
    | renameChat hsame =>
      exact h.silent hs' hj' rfl (by rw [hsame.messages, hsame.requests]; exact h.text) hrows
    | deleteChat hidle => exact absurd hkeeps Bool.false_ne_true
    | beginTurn place hnext hfresh => exact h.silent hs' hj' rfl (h.text_begun hfresh) hrows
    | deliver r hr hallowed =>
      exact h.silent hs' hj' rfl
        (h.text_update (update_none db.messages).symm rfl (fun _ => ⟨rfl, rfl⟩) fun _ => rfl) hrows
    | acknowledge r hr hallowed =>
      exact h.silent hs' hj' rfl
        (h.text_update (update_none db.messages).symm rfl (fun _ => ⟨rfl, rfl⟩) fun _ => rfl) hrows
    | checkpoint r m hp => exact h.progressed hs' hp rfl
    | finish r m hcode hp => exact h.progressed hs' hp rfl
    | append depth pathLength db₁ message hmessage hlimit hadmits hreplace =>
      obtain ⟨hm, hr⟩ := replaceActivePath_conversation hreplace
      refine h.silent hs' hj' rfl (fun r hr' m hm' hmr => ?_) hrows
      have hr' : r ∈ db.requests := hr ▸ hr'
      have hm' : m ∈ db₁.messages := hm'
      rw [hm] at hm'
      rcases List.mem_append.mp hm' with hm' | hm'
      · exact h.text r hr' m hm' hmr
      · -- the appended message is new, so no request points at it
        obtain ⟨n, hn, -, hid⟩ := h.schema.requestAssistant r hr'
        rw [List.mem_singleton.mp hm'] at hmr
        exact absurd (hid.trans hmr.symm) (hadmits.id n hn)
    | select pathLength db₁ hreplace =>
      obtain ⟨hm, hr⟩ := replaceActivePath_conversation hreplace
      refine h.silent hs' hj' rfl (fun r hr' m hm' hmr => ?_) hrows
      exact h.text r (hr ▸ hr') m (hm ▸ hm') hmr
    | restart hm hp hr =>
      exact h.silent hs' hj' rfl (h.text_update hm hr (fun _ => ⟨rfl, rfl⟩) fun _ => rfl) hrows

theorem written_run {calls : List Call} (hkeeps : ∀ call ∈ calls, call.keepsChats = true) :
    Written (store.run calls {}).1 (store.run calls {}).2 :=
  Server.run_history written_step hkeeps
    ⟨schema_empty, journal_empty, by simp, by simp⟩

/-- A checkpoint that was accepted once is refused from then on. -/
theorem Written.refuses (h : Written log db) (hc : checkpoint ∈ log.filterMap acceptedCheckpoint)
    (terminal : Option TerminalOutcome) (progress : ResponseProgress) (db' : Database) :
    applyResponseProgress checkpoint terminal db ≠ .ok (progress, db') := by
  intro hok
  obtain ⟨r, m, hp⟩ := progressed_of_ok h.schema hok
  obtain ⟨q, hq, hid, hle⟩ := h.passed checkpoint hc
  obtain rfl := h.schema.requestId.eq hq hp.request (hid.trans hp.allowed.id.symm)
  -- the compare-and-set expects a sequence below one that is already durable
  have hexpected := hp.allowed.expected
  have hadvances := hp.allowed.advances
  omega

theorem exec_error_of_not_ok (h : ∀ response db', transaction call db ≠ .ok (response, db')) :
    ∃ e, store.exec call db = (.error e, db) := by
  rcases hx : transaction call db with e | ⟨response, db'⟩
  · exact ⟨e, Tx.commit_of_error hx⟩
  · exact absurd hx (h response db')

/-- Appends a message of its own, instead of streaming into one. -/
def Call.isAppend : Call → Bool
  | .appendBranchMessage _ _ => true
  | _ => false

theorem assistant_owned_step (db : Database) (call : Call)
    (hcall : call.keepsChats = true ∧ call.isAppend = false)
    (h : db.Schema ∧ ∀ n ∈ db.nodes, n.role = .assistant →
      ∃ r ∈ db.requests, r.assistantMessageId = n.id) :
    (store.exec call db).2.Schema ∧ ∀ n ∈ (store.exec call db).2.nodes, n.role = .assistant →
      ∃ r ∈ (store.exec call db).2.requests, r.assistantMessageId = n.id := by
  refine ⟨(transaction_schema call).commit h.1, ?_⟩
  rcases exec_cases h.1 call with ⟨e, he⟩ | ⟨response, db', he, heff⟩
  · rw [he]
    exact h.2
  · rw [he]
    intro n hn hrole
    -- a node the call did not add belongs to a request that is still there
    have hold : n ∈ db.nodes → ∃ r ∈ db'.requests, r.assistantMessageId = n.id := by
      intro hn
      obtain ⟨r, hr, hid⟩ := h.2 n hn hrole
      rcases effect_advances h.1 heff hr with ⟨r', hr', hadv⟩ | hdelete
      · exact ⟨r', hr', (congrArg RequestIdentity.assistantMessageId hadv.identity).trans hid⟩
      · rw [hdelete] at hcall
        exact absurd hcall.1 Bool.false_ne_true
    have hmessages : ∀ {p : Message → Bool} {f : Message → Message}, (∀ m, (f m).node = m.node) →
        db'.messages = Table.update p f db.messages → n ∈ db.nodes := by
      intro p f hf hm
      rw [Database.nodes, hm, Table.map_update hf] at hn
      exact hn
    cases heff with
    | createChat hsame => exact hold (by rwa [Database.nodes, hsame.messages] at hn)
    | renameChat hsame => exact hold (by rwa [Database.nodes, hsame.messages] at hn)
    | deleteChat hidle => exact absurd hcall.1 Bool.false_ne_true
    | @beginTurn input ids place hnext hfresh =>
      obtain ⟨m, hm, rfl⟩ := mem_nodes.mp hn
      have hm : m ∈ db.messages ∨ m = place.user input ids ∨ m = place.assistant input ids := by
        simpa [Database.begun, Database.touch] using hm
      rcases hm with hm | rfl | rfl
      · exact hold (mem_nodes.mpr ⟨m, hm, rfl⟩)
      · cases hrole
      · exact ⟨_, List.mem_append_right _ (List.mem_singleton_self _), rfl⟩
    | deliver r hr hallowed => exact hold hn
    | acknowledge r hr hallowed => exact hold hn
    | checkpoint r m hp =>
      exact hold (hmessages (f := progressMessage _ _ _) (fun _ => rfl) (by rw [hp.state]; rfl))
    | finish r m hcode hp =>
      exact hold (hmessages (f := progressMessage _ _ _) (fun _ => rfl) (by rw [hp.state]; rfl))
    | append => exact absurd hcall.2.symm Bool.false_ne_true
    | select pathLength db₁ hreplace =>
      have hm := (replaceActivePath_conversation hreplace).1
      exact hold (by
        have hn : n ∈ db₁.messages.map Message.node := hn
        rwa [hm] at hn)
    | restart hm hp hr => exact hold (hmessages (f := recoverMessage _) (fun _ => rfl) hm)

/-- Streamed text is stored exactly once. After any calls that delete no chat, the message of
every request holds the texts of its accepted checkpoints in their order and nothing else; a
checkpoint that was accepted is refused when it is submitted again. -/
theorem streamed_text_exactly_once (calls : List Call)
    (hkeeps : ∀ call ∈ calls, call.keepsChats = true) :
    let log := (store.run calls {}).1
    let db := (store.run calls {}).2
    (∀ r ∈ db.requests, ∃ m ∈ db.messages, m.id = r.assistantMessageId ∧
      m.role = .assistant ∧ m.text = String.join (acceptedTexts r.id log) ∧
      m.text.utf8ByteSize ≤ maxMessageBytes) ∧
    (∀ checkpoint ∈ log.filterMap acceptedCheckpoint,
      (∃ e, store.exec (.checkpointResponse checkpoint) db = (.error e, db)) ∧
      ∀ outcome, ∃ e, store.exec (.finishTurn ⟨checkpoint, outcome⟩) db = (.error e, db)) ∧
    ((∀ call ∈ calls, call.isAppend = false) → ∀ m ∈ db.messages, m.role = .assistant →
      ∃ r ∈ db.requests, r.assistantMessageId = m.id) := by
  intro log db
  have h : Written log db := written_run hkeeps
  refine ⟨fun r hr => ?_, fun checkpoint hc => ⟨?_, fun outcome => ?_⟩, fun hstream m hm hrole => ?_⟩
  · obtain ⟨n, hn, -, hid⟩ := h.schema.requestAssistant r hr
    obtain ⟨m, hm, rfl⟩ := mem_nodes.mp hn
    exact ⟨m, hm, hid, (h.journal.assistant r hr m.node hn hid).1, h.text r hr m hm hid,
      (h.schema.messageCheck m hm).text⟩
  · refine exec_error_of_not_ok fun response db' hok => ?_
    obtain ⟨progress, hok, -⟩ := Tx.map_ok.mp hok
    exact h.refuses hc none progress db' hok
  · refine exec_error_of_not_ok fun response db' hok => ?_
    obtain ⟨progress, hok, -⟩ := Tx.map_ok.mp hok
    exact h.refuses hc _ progress db' (finishTurn_iff.mp hok).2
  · have howned := Server.run_invariant assistant_owned_step
      (fun call hcall => ⟨hkeeps call hcall, hstream call hcall⟩)
      (s := {}) ⟨schema_empty, by simp⟩
    exact howned.2 m.node (mem_nodes.mpr ⟨m, hm, rfl⟩) hrole

/-! A small conversation to try the theorems on: a turn of two checkpoints in which the
first is sent twice. -/

section Sample

def sampleChat : ChatId := ⟨1⟩
def sampleOwner : StreamOwnerLabel := ⟨"main", by decide⟩
def sampleGeneration : StreamGeneration := ⟨7⟩
def sampleRequest : RequestStateId := ⟨10⟩

def sampleTurn : BeginTurn :=
  { chatId := sampleChat, selection := ⟨.openAi, ⟨"model", by decide⟩⟩, ownerLabel := sampleOwner
    streamGeneration := sampleGeneration, userText := "hi", startedAtMs := 5 }

def sampleDelivery (seq : Nat) : DeliveryCheckpoint :=
  { requestStateId := sampleRequest, ownerLabel := sampleOwner
    streamGeneration := sampleGeneration, expectedLastDeliveredSeq := seq
    throughSeq := seq + 1, atMs := 6 }

def sampleCheckpoint (seq : Nat) (text : String) : ResponseCheckpoint :=
  { requestStateId := sampleRequest, ownerLabel := sampleOwner
    streamGeneration := sampleGeneration, expectedLastDurableSeq := seq, throughSeq := seq + 1
    appendedText := text, providerResponseId := none, usage := none, atMs := 7 }

def sampleStart : List Call :=
  [.createChat { characterId := ⟨"character", by decide⟩, title := "chat", atMs := 3 } sampleChat,
   .beginTurn sampleTurn ⟨sampleRequest, ⟨11⟩, ⟨12⟩⟩]

def replayedTurn : List Call := sampleStart ++
  [.recordResponseDelivery (sampleDelivery 0), .checkpointResponse (sampleCheckpoint 0 "hello "),
   .checkpointResponse (sampleCheckpoint 0 "hello "), .recordResponseDelivery (sampleDelivery 1),
   .finishTurn ⟨sampleCheckpoint 1 "world", .completed⟩]

theorem streamed_text_of_replayed_turn :
    (store.run replayedTurn {}).2.messages.map Message.text = ["hi", "hello world"] ∧
    sampleCheckpoint 0 "hello " ∈ (store.run replayedTurn {}).1.filterMap acceptedCheckpoint ∧
    ∃ e, store.exec (.checkpointResponse (sampleCheckpoint 0 "hello "))
      (store.run replayedTurn {}).2 = (.error e, (store.run replayedTurn {}).2) := by
  have hmem : sampleCheckpoint 0 "hello " ∈
      (store.run replayedTurn {}).1.filterMap acceptedCheckpoint := by decide
  exact ⟨by decide, hmem,
    ((streamed_text_exactly_once replayedTurn (by decide)).2.1 _ hmem).1⟩

end Sample

end Lorepia.Storage
