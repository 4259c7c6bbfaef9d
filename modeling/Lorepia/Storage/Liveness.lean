import Lorepia.Storage.Journal

/-!
# No chat stays blocked

While a request of a chat is running, the chat takes no new turn and cannot be deleted. Opening
the store ends every request that was running, and the owner of a running turn can end it.
-/

namespace Lorepia.Storage

variable {db : Database} {m : Message} {r : RequestState}

def Database.Unblocked (db : Database) (chatId : ChatId) : Prop :=
  ∀ r ∈ db.requests, r.chatId = chatId → r.status ≠ .running

theorem recoverRequest_check (hr : r.Check) (recoveredAtMs : TimestampMillis) :
    (recoverRequest recoveredAtMs r).Check :=
  { hr with
    updatedAt := hr.updatedAt.trans (le_max_left _ _)
    finishedAt := decide_eq_true ((le_max_right _ _).trans (le_max_left _ _))
    outcome := .inr (.inr (.inr ⟨rfl, rfl, rfl⟩)) }

theorem recoverMessage_check (hm : m.Check) (hpart : m.status = .partialText)
    (recoveredAtMs : TimestampMillis) : (recoverMessage recoveredAtMs m).Check :=
  have hopen : m.completedAtMs.isSome ≠ true := fun h => by simp [hm.completed.mpr h] at hpart
  { hm with
    updatedAt := hm.updatedAt.trans (le_max_left _ _)
    role := fun h => by simp [hm.role h] at hpart
    completed := iff_of_false (by simp [recoverMessage]) hopen }

/-- The statements of the recovery violate no constraint: what they make partial is partial. -/
theorem recoverInterruptedRequests_succeeds (hs : db.Schema) (hj : db.Journal)
    (recoveredAtMs : TimestampMillis) : ∃ db', recoverInterruptedRequests recoveredAtMs db =
      .ok (db.requests.countP RequestState.isRunning, db') := by
  simp only [recoverInterruptedRequests, Tx.bind_ok, Tx.query_ok, updateChats_ok,
    updateMessages_ok, updateRequests_ok]
  refine ⟨_, _, _, ⟨rfl, rfl⟩, _, _, ⟨rfl, fun c hc _ => ?_, rfl⟩, _, _,
    ⟨rfl, fun m hm hany => ?_, rfl⟩, rfl, fun r hr _ => ?_, rfl⟩
  · have hcheck := hs.chatCheck c hc
    exact { hcheck with updatedAt := hcheck.updatedAt.trans (le_max_left _ _) }
  · obtain ⟨r, hr, hid⟩ := List.any_eq_true.mp hany
    obtain ⟨hr, hrun⟩ := List.mem_filter.mp hr
    have hpart := hj.running r hr (isRunning_iff.mp hrun) m hm (beq_iff_eq.mp hid).symm
    exact recoverMessage_check (hs.messageCheck m hm) hpart _
  · exact recoverRequest_check (hs.requestCheck r hr) _

/-- **Opening a store unblocks every chat**, whatever the clock says, and keeps every text. -/
theorem recovery_unblocks (hdb : Reachable db) (recoveredAtMs : TimestampMillis) :
    ∃ db', recoverInterruptedRequests recoveredAtMs db =
        .ok (db.requests.countP RequestState.isRunning, db') ∧
      (∀ chatId, db'.Unblocked chatId) ∧
      db'.messages.map (fun m => (m.node, m.text)) =
        db.messages.map (fun m => (m.node, m.text)) := by
  obtain ⟨hs, hj⟩ := reachable_journal hdb
  obtain ⟨db', hok⟩ := recoverInterruptedRequests_succeeds hs hj recoveredAtMs
  obtain ⟨hmessages, -, hrequests⟩ := recoverInterruptedRequests_ok hok
  refine ⟨db', hok, fun chatId r' hr' _ => ?_, ?_⟩
  · rw [hrequests] at hr'
    obtain ⟨r, hr, rfl⟩ := Table.mem_update.mp hr'
    split
    · simp [recoverRequest]
    · next hnot => exact fun hrun => hnot (isRunning_iff.mpr hrun)
  · rw [hmessages]
    exact Table.map_update (f := recoverMessage recoveredAtMs) (fun _ => rfl) _

/-- A run cut off at 5 is recovered although the clock now reads 4. -/
theorem recovery_unblocks_sample :
    ∃ db', recoverInterruptedRequests 4 (store.run sampleStart {}).2 = .ok (1, db') ∧
      db'.Unblocked sampleChat := by
  have hone : (store.run sampleStart {}).2.requests.countP RequestState.isRunning = 1 := by decide
  obtain ⟨db', hok, hfree, -⟩ := recovery_unblocks ⟨sampleStart, rfl⟩ 4
  exact ⟨db', hone ▸ hok, hfree sampleChat⟩

/-! ## Ending a turn -/

/-- The next delivery of a request. -/
def RequestState.nextDelivery (r : RequestState) (atMs : TimestampMillis) : DeliveryCheckpoint :=
  ⟨r.id, r.ownerLabel, r.streamGeneration, r.lastDeliveredSeq, r.lastDeliveredSeq + 1, atMs⟩

/-- The checkpoint through `seq` that appends nothing. -/
def RequestState.checkpointThrough (r : RequestState) (seq : Nat) (atMs : TimestampMillis) :
    ResponseCheckpoint :=
  ⟨r.id, r.ownerLabel, r.streamGeneration, r.lastDurableSeq, seq, "", none, none, atMs⟩

section Finish

variable {outcome : TerminalOutcome} (houtcome : outcome ≠ .failed .appRestarted)
include houtcome

theorem progressRequest_check (hr : r.Check) (atMs : TimestampMillis) :
    (progressRequest (r.checkpointThrough r.lastDeliveredSeq atMs) (some outcome) r
      (effectiveStreamTimestamp r atMs) r).Check :=
  { hr with
    durable := le_rfl
    acked := fun s hs => ⟨(hr.acked s hs).1, (hr.acked s hs).2.trans hr.durable⟩
    updatedAt := hr.updatedAt.trans (le_max_left _ _)
    finishedAt := decide_eq_true ((le_max_right _ _).trans (le_max_left _ _))
    outcome := by
      cases outcome with
      | completed => exact .inr (.inl ⟨.inl rfl, rfl, rfl⟩)
      | cancelled => exact .inr (.inl ⟨.inr rfl, rfl, rfl⟩)
      | failed code =>
        exact .inr (.inr (.inl ⟨rfl, rfl, rfl, fun h => houtcome (by cases h; rfl)⟩)) }

omit houtcome in
theorem progressMessage_check {checkpoint : ResponseCheckpoint} (hm : m.Check)
    (hpart : m.status = .partialText) (htext : checkpoint.appendedText = "")
    {atMs : TimestampMillis} (hat : m.createdAtMs ≤ atMs) :
    (progressMessage checkpoint (some outcome) atMs m).Check :=
  { hm with
    updatedAt := hm.updatedAt.trans (le_max_left _ _)
    completedAt := by cases outcome <;> simp [progressMessage, progressMessageStatus, hat]
    text := by simpa [progressMessage, htext] using hm.text
    role := fun h => by simp [hm.role h] at hpart
    completed := by cases outcome <;> simp [progressMessage, progressMessageStatus] }

/-- A turn with a delivery that is not durable yet can be finished as it is. -/
theorem finishTurn_of_running (hs : db.Schema) (hj : db.Journal) (hr : r ∈ db.requests)
    (hrun : r.status = .running) (hseq : r.lastDurableSeq < r.lastDeliveredSeq)
    (atMs : TimestampMillis) :
    ∃ progress db', finishTurn ⟨r.checkpointThrough r.lastDeliveredSeq atMs, outcome⟩ db =
      .ok (progress, db') ∧ db'.Unblocked r.chatId := by
  obtain ⟨n, hn, -, hid⟩ := hs.requestAssistant r hr
  obtain ⟨m, hm, rfl⟩ := mem_nodes.mp hn
  have hpart := hj.running r hr hrun m hm hid
  have hat : m.createdAtMs ≤ effectiveStreamTimestamp r atMs := by
    rw [show m.createdAtMs = r.startedAtMs from (hj.assistant r hr _ hn hid).2]
    exact (le_max_right _ _).trans (le_max_left _ _)
  have hallowed : ProgressAllowed r m (r.checkpointThrough r.lastDeliveredSeq atMs) :=
    { id := rfl, running := hrun, owner := rfl, generation := rfl, expected := rfl
      advances := hseq, delivered := le_rfl
      payload := ⟨Nat.zero_le _, rfl, nofun, nofun⟩
      sameId := by simp [responseIdChanged, RequestState.checkpointThrough]
      monotone := by simp [usageDecreased, RequestState.checkpointThrough]
      bytes := (hs.messageCheck m hm).text }
  refine ⟨_, _, finishTurn_iff.mpr ⟨houtcome, (applyResponseProgress_iff hs).mpr
    ⟨r, hr, m, hm, hid, hpart, hallowed,
      progressMessage_check (hs.messageCheck m hm) hpart rfl hat,
      progressRequest_check houtcome (hs.requestCheck r hr) atMs, rfl, rfl⟩⟩, ?_⟩
  intro q hq hchat hqrun
  obtain ⟨q₀, hq₀, rfl⟩ := Table.mem_update.mp hq
  split at hqrun
  · cases outcome <;> simp [progressRequest, progressStatus] at hqrun
  · -- a row with another id; but only one request of a chat runs
    rename_i hne
    rw [if_neg hne] at hchat
    have := hs.requestRunning.eq (List.mem_filter.mpr ⟨hq₀, isRunning_iff.mpr hqrun⟩)
      (List.mem_filter.mpr ⟨hr, isRunning_iff.mpr hrun⟩) hchat
    simp [this] at hne

/-- **A running turn can be ended.** Its owner records one more delivery and finishes, with any
outcome and at any time; then nothing runs in the chat. -/
theorem turn_can_end (hdb : Reachable db) (hr : r ∈ db.requests) (hrun : r.status = .running)
    (hseq : r.lastDeliveredSeq < maxSafeInteger) (atMs : TimestampMillis) :
    ∃ sequence db₁ progress db₂,
      recordResponseDelivery (r.nextDelivery atMs) db = .ok (sequence, db₁) ∧
      finishTurn ⟨r.checkpointThrough (r.lastDeliveredSeq + 1) atMs, outcome⟩ db₁ =
        .ok (progress, db₂) ∧
      db₂.Unblocked r.chatId := by
  obtain ⟨hs, hj⟩ := reachable_journal hdb
  have hallowed : DeliveryAllowed r (r.nextDelivery atMs) := ⟨rfl, hrun, rfl, rfl, rfl, rfl, hseq⟩
  have hdelivery := (recordResponseDelivery_iff hs).mpr ⟨r, hr, hallowed, rfl, rfl⟩
  have hs₁ := recordResponseDelivery_schema _ db _ _ hs hdelivery
  have hj₁ := effect_journal hs hj (.deliver r hr hallowed)
  obtain ⟨progress, db₂, hfinish, hfree⟩ := finishTurn_of_running houtcome hs₁ hj₁
    (Table.mem_update_of_true hr (decide_eq_true rfl)) hrun
    (Nat.lt_succ_of_le (hs.requestCheck r hr).durable) atMs
  exact ⟨_, _, progress, db₂, hdelivery, hfinish, hfree⟩

end Finish

theorem turn_can_end_sample :
    ∃ r ∈ (store.run sampleStart {}).2.requests, ∃ sequence db₁ progress db₂,
      recordResponseDelivery (r.nextDelivery 4) (store.run sampleStart {}).2 =
        .ok (sequence, db₁) ∧
      finishTurn ⟨r.checkpointThrough 1 4, .cancelled⟩ db₁ = .ok (progress, db₂) ∧
      db₂.Unblocked sampleChat := by
  obtain ⟨r, hr, hrun, hseq, hchat⟩ : ∃ r ∈ (store.run sampleStart {}).2.requests,
      r.status = .running ∧ r.lastDeliveredSeq = 0 ∧ r.chatId = sampleChat := by decide
  have hcancelled : TerminalOutcome.cancelled ≠ .failed .appRestarted := nofun
  have hend := turn_can_end hcancelled ⟨sampleStart, rfl⟩ hr hrun (by rw [hseq]; decide) 4
  rw [hseq, hchat] at hend
  exact ⟨r, hr, hend⟩

end Lorepia.Storage
