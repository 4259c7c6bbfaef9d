import Lorepia.Storage.Permanence
import Lorepia.Stream.Tasks

/-!
# No text is lost or stored twice

The bridge keeps in memory what it has not yet written (`StreamPersistence`), and its own copies
of the sequence numbers of the turn's row. Between its storage calls other calls reach the
store, and each of its own may fail. `Agrees` ties the two together: the numbers are the row's,
and the stored text followed by the buffered text is all the text that was recorded. Every step
keeps it, so the checks that the source makes of storage's replies never fail.
-/

namespace Lorepia.Stream

open Lorepia
open Lorepia.Storage hiding TokenUsage

/-! ## The rest of `StreamPersistence` -/

/-- `StreamPersistence::new`. -/
def StreamPersistence.new (started : StartedTurn) (startedAtMs : TimestampMillis) :
    StreamPersistence :=
  { lastDeliveredSeq := started.lastDeliveredSeq, lastDurableSeq := started.lastDurableSeq
    throughSeq := started.lastDurableSeq, appendedText := "", visibleTextBytes := 0
    providerResponseId := none, usage := {}, hasUsage := false, lastAtMs := startedAtMs
    flushDeadline := none }

def StreamPersistence.enterTerminalSequence (p : StreamPersistence) (terminalSeq : Nat) :
    Except ProviderCommandError StreamPersistence :=
  if terminalSeq = p.throughSeq + 1 then .ok { p with throughSeq := terminalSeq }
  else if terminalSeq = p.throughSeq ∧ p.lastDurableSeq < terminalSeq then .ok p
  else .error (storageSequenceInvalid "terminal persistence sequence is invalid")

/-- In `finish`. -/
def StreamPersistence.finishConsistent (turn : TurnIdentity) (terminalSeq : Nat)
    (progress : ResponseProgress) : Bool :=
  decide (progress.requestStateId = turn.requestStateId) &&
  decide (progress.lastDeliveredSeq = terminalSeq) &&
  decide (progress.lastDurableSeq = terminalSeq) &&
  (progress.lastAckedSeq.all fun acked => decide (acked ≤ progress.lastDurableSeq)) &&
  decide (progress.status ≠ .running)

/-- `finish`, but for `publish_durable`. -/
def finish (terminalSeq : Nat) (outcome : TerminalOutcome) (i : StorageInput) : Section Unit :=
  fun s =>
  match s.persistence.enterTerminalSequence terminalSeq with
  | .error error => (.error error, s)
  | .ok entered =>
    match i.clock with
    | none => (.error storageUnavailable, { s with persistence := entered })
    | some now =>
      let (checkpoint, p) := (entered.stamp now).checkpoint s.turn terminalSeq
      match i.run (finishTurn ⟨checkpoint, outcome⟩) s.db with
      | (.error error, db) =>
        (.error (.fromStorage error),
          { s with persistence := p.restoreCheckpointPayload checkpoint, db })
      | (.ok progress, db) =>
        if StreamPersistence.finishConsistent s.turn terminalSeq progress then
          (.ok (), { s with persistence := p.committed terminalSeq, db })
        else
          (.error (storageWriteFailed "local storage terminal checkpoint was inconsistent"),
            { s with persistence := p.restoreCheckpointPayload checkpoint, db })

/-! ## Agreement of the buffer and the row -/

/-- The turn's row `r` and message `m` are what the bridge takes them to be, and the stored
text followed by the buffered text is `text`. -/
structure Agrees (s : Sys) (text : String) (r : RequestState) (m : Message) : Prop where
  schema : s.db.Schema
  journal : s.db.Journal
  request : r ∈ s.db.requests
  running : r.status = .running
  identity : r.id = s.turn.requestStateId ∧ r.ownerLabel = s.turn.ownerLabel ∧
    r.streamGeneration = s.turn.streamGeneration
  delivered : r.lastDeliveredSeq = s.persistence.lastDeliveredSeq
  durable : r.lastDurableSeq = s.persistence.lastDurableSeq
  message : m ∈ s.db.messages
  assistant : m.id = r.assistantMessageId
  text : m.text ++ s.persistence.appendedText = text

variable {s : Sys} {text : String} {r : RequestState} {m : Message} {i : StorageInput}
  {db : Database}

theorem StorageInput.run_cases {α : Type} (i : StorageInput) (tx : StoreTx α) (db : Database) :
    (∃ e, i.run tx db = (.error e, db)) ∨
      ∃ a db', i.run tx db = (.ok a, db') ∧ tx db = .ok (a, db') := by
  unfold StorageInput.run
  cases i.fault with
  | some error => exact .inl ⟨error, rfl⟩
  | none =>
    cases htx : tx db with
    | error e => exact .inl ⟨.fromStorage e, by rw [Tx.commit_of_error htx]⟩
    | ok result =>
      obtain ⟨a, db'⟩ := result
      exact .inr ⟨a, db', by rw [Tx.commit_of_ok htx], rfl⟩

/-- The bridge's own fields may change, as long as the agreement does not speak of them. -/
theorem Agrees.congr (h : Agrees s text r m) {p : StreamPersistence}
    (hdelivered : p.lastDeliveredSeq = s.persistence.lastDeliveredSeq)
    (hdurable : p.lastDurableSeq = s.persistence.lastDurableSeq)
    (htext : p.appendedText = s.persistence.appendedText) :
    Agrees { s with persistence := p } text r m :=
  { h with
    delivered := h.delivered.trans hdelivered.symm
    durable := h.durable.trans hdurable.symm
    text := by
      show m.text ++ p.appendedText = text
      rw [htext]
      exact h.text }

theorem acked_le (h : Agrees s text r m) {bound : Nat} (hbound : r.lastDurableSeq ≤ bound) :
    (r.lastAckedSeq.all fun acked => decide (acked ≤ bound)) = true := by
  rw [Option.all_eq_true]
  intro acked hacked
  exact decide_eq_true (((h.schema.requestCheck r h.request).acked acked hacked).2.trans hbound)

theorem recordDelivery_agrees (h : Agrees s text r m) (seq : Nat) (i : StorageInput) :
    (recordDelivery seq i s).2.turn = s.turn ∧ ∃ r', Agrees (recordDelivery seq i s).2 text r' m := by
  unfold recordDelivery
  split
  · exact ⟨rfl, r, h⟩
  cases i.clock with
  | none => exact ⟨rfl, r, h⟩
  | some now =>
    dsimp only
    rcases i.run_cases (recordResponseDelivery
      ((s.persistence.stamp now).deliveryCheckpoint s.turn seq)) s.db with
      ⟨e, he⟩ | ⟨progress, db', he, hok⟩
    · rw [he]
      exact ⟨rfl, r, h.congr rfl rfl rfl⟩
    · obtain ⟨r₀, h₀, hallowed, hdb, hprogress⟩ := (recordResponseDelivery_iff h.schema).mp hok
      obtain rfl : r₀ = r :=
        h.schema.requestId.eq h₀ h.request (hallowed.id.trans h.identity.1.symm)
      -- what storage replies is what the bridge expects
      have hconsistent : (s.persistence.stamp now).deliveryConsistent s.turn seq progress = true := by
        rw [hprogress]
        simp [StreamPersistence.deliveryConsistent, StreamPersistence.stamp,
          StreamPersistence.deliveryCheckpoint, h.identity, h.durable, acked_le h (le_of_eq h.durable)]
      rw [he]
      dsimp only
      rw [if_pos hconsistent]
      have hjournal := effect_journal h.schema h.journal (.deliver r₀ h₀ hallowed)
      have hrow : ∀ f : RequestState → RequestState, f r₀ ∈ (s.db.setRequest r₀.id f).requests :=
        fun f => Table.mem_update_of_true h₀ (decide_eq_true rfl)
      subst hdb
      exact ⟨rfl, _,
        { schema := recordResponseDelivery_schema _ _ _ _ h.schema hok
          journal := hjournal
          request := hrow _
          running := h.running
          identity := h.identity
          delivered := rfl
          durable := h.durable
          message := h.message
          assistant := h.assistant
          text := h.text }⟩

/-- An accepted checkpoint is of this row and this message, and the text it carries is stored
behind the text that was there. -/
theorem Agrees.progress (h : Agrees s text r m) {checkpoint : ResponseCheckpoint}
    {terminal : Option TerminalOutcome} {progress : ResponseProgress} {db' : Database}
    (hid : checkpoint.requestStateId = s.turn.requestStateId)
    (hok : applyResponseProgress checkpoint terminal s.db = .ok (progress, db')) :
    Progressed s.db checkpoint terminal db' r m ∧
      progress = progressReply checkpoint terminal r m ∧
      progressRequest checkpoint terminal r (effectiveStreamTimestamp r checkpoint.atMs) r
        ∈ db'.requests ∧
      progressMessage checkpoint terminal (effectiveStreamTimestamp r checkpoint.atMs) m
        ∈ db'.messages := by
  obtain ⟨r₀, h₀, m₀, hm₀, hassistant, hunsealed, hallowed, -, -, hdb, hprogress⟩ :=
    (applyResponseProgress_iff h.schema).mp hok
  obtain rfl : r₀ = r :=
    h.schema.requestId.eq h₀ h.request (hallowed.id.trans (hid.trans h.identity.1.symm))
  obtain rfl : m₀ = m :=
    (messageId_keyed h.schema).eq hm₀ h.message (hassistant.trans h.assistant.symm)
  refine ⟨⟨h₀, hm₀, hassistant, hunsealed, hallowed, hdb⟩, hprogress, ?_, ?_⟩
  · rw [hdb]
    exact Table.mem_update_of_true h₀ (decide_eq_true rfl)
  · rw [hdb]
    exact Table.mem_update_of_true hm₀ (decide_eq_true hassistant)

theorem storeCheckpoint_agrees (h : Agrees s text r m) (throughSeq : Nat) (i : StorageInput) :
    (storeCheckpoint throughSeq i s).2.turn = s.turn ∧
      ∃ r' m', Agrees (storeCheckpoint throughSeq i s).2 text r' m' := by
  unfold storeCheckpoint
  cases i.clock with
  | none => exact ⟨rfl, r, m, h⟩
  | some now =>
    dsimp only
    rcases i.run_cases (checkpointResponse
      ((s.persistence.stamp now).checkpoint s.turn throughSeq).1) s.db with
      ⟨e, he⟩ | ⟨progress, db', he, hok⟩
    · rw [he]
      -- the payload that is put back is the payload that was taken out
      exact ⟨rfl, r, m, h.congr rfl rfl (by exact String.append_empty)⟩
    · obtain ⟨hp, hprogress, hrow, hmessage⟩ := h.progress rfl hok
      have hdurable : r.lastDurableSeq ≤ throughSeq := by
        have hadvances : s.persistence.lastDurableSeq < throughSeq := hp.allowed.advances
        exact h.durable.trans_le hadvances.le
      have hconsistent : ((s.persistence.stamp now).checkpoint s.turn throughSeq).2.flushConsistent
          s.turn throughSeq progress = true := by
        rw [hprogress]
        simp [StreamPersistence.flushConsistent, StreamPersistence.stamp, progressReply,
          StreamPersistence.checkpoint, h.delivered, acked_le h hdurable]
      rw [he]
      dsimp only
      rw [if_pos hconsistent]
      exact ⟨rfl, _, _,
        { schema := applyResponseProgress_schema _ _ _ _ _ h.schema hok
          journal := effect_journal h.schema h.journal (.checkpoint r m hp)
          request := hrow
          running := rfl
          identity := h.identity
          delivered := h.delivered
          durable := rfl
          message := hmessage
          assistant := h.assistant
          text := by
            show m.text ++ s.persistence.appendedText ++ "" = text
            rw [String.append_empty]
            exact h.text }⟩

theorem record_ok {p p' : StreamPersistence} {seq now : Nat}
    {visibleText providerResponseId : Option String} {usage : Option TokenUsage}
    (h : p.record seq visibleText providerResponseId usage now = .ok p') :
    p'.lastDeliveredSeq = p.lastDeliveredSeq ∧ p'.lastDurableSeq = p.lastDurableSeq ∧
      p'.appendedText = p.appendedText ++ visibleText.getD "" := by
  unfold StreamPersistence.record at h
  split at h
  · cases h
  · cases visibleText <;> obtain ⟨_, -, h⟩ := except_bind_ok.mp h <;> cases h <;>
      cases usage <;> exact ⟨rfl, rfl, rfl⟩

/-- A call of another task. -/
theorem exec_agrees (h : Agrees s text r m) {call : Call}
    (hcall : ¬ call.Writes s.turn.requestStateId) :
    ∃ r', Agrees { s with db := (store.exec call s.db).2 } text r' m := by
  rcases exec_cases h.schema call with ⟨e, he⟩ | ⟨response, db', he, heffect⟩
  · rw [he]
    exact ⟨r, h⟩
  · have hschema : (store.exec call s.db).2.Schema := (transaction_schema call).commit h.schema
    rw [he] at hschema ⊢
    obtain ⟨r', hr', habides, hm'⟩ := effect_abides h.schema h.journal heffect h.request h.running
      h.message h.assistant (h.identity.1 ▸ hcall)
    refine ⟨r', hschema, effect_journal h.schema h.journal heffect, hr', ?_, ?_, ?_, ?_, hm', ?_,
      h.text⟩ <;> rw [habides]
    · exact h.running
    · exact h.identity
    · exact h.delivered
    · exact h.durable
    · exact h.assistant

/-! ## Runs -/

/-- What happens while a response is streamed: the bridge records a delivery, records an
event, or flushes; its clock moves; another task calls the store. What a checkpoint publishes
to the other tasks of the stream is left out: storage does not read it. -/
inductive Step where
  | delivery (seq : Nat) (i : StorageInput)
  | record (seq : Nat) (visibleText providerResponseId : Option String)
      (usage : Option TokenUsage)
  | flush (i : StorageInput)
  | tick (now : Nat)
  | other (call : Call)

def Step.run : Step → Sys → Sys
  | .delivery seq i, s => (recordDelivery seq i s).2
  | .record seq visibleText providerResponseId usage, s =>
    (recordEvent seq visibleText providerResponseId usage s).2
  | .flush i, s =>
    match dirtyThrough s with
    | (.ok (some throughSeq), s) => (storeCheckpoint throughSeq i s).2
    | (_, s) => s
  | .tick now, s => { s with now }
  | .other call, s => { s with db := (store.exec call s.db).2 }

/-- The visible text a step records; an event that is refused records none. -/
def Step.recorded : Step → Sys → String
  | .record seq visibleText providerResponseId usage, s =>
    match (recordEvent seq visibleText providerResponseId usage s).1 with
    | .ok () => visibleText.getD ""
    | .error _ => ""
  | _, _ => ""

def runSteps : List Step → Sys → Sys
  | [], s => s
  | step :: steps, s => runSteps steps (step.run s)

def recordedText : List Step → Sys → String
  | [], _ => ""
  | step :: steps, s => step.recorded s ++ recordedText steps (step.run s)

/-- The other calls do not write to the turn. -/
def Step.Apart (turn : TurnIdentity) : Step → Prop
  | .other call => ¬ call.Writes turn.requestStateId
  | _ => True

theorem step_agrees (h : Agrees s text r m) {step : Step} (hstep : step.Apart s.turn) :
    (step.run s).turn = s.turn ∧
      ∃ r' m', Agrees (step.run s) (text ++ step.recorded s) r' m' := by
  -- only an event that is recorded adds to the text
  have hsilent : ∀ {s' : Sys} {r' : RequestState} {m' : Message}, Agrees s' text r' m' →
      Agrees s' (text ++ "") r' m' := fun h => String.append_empty.symm ▸ h
  cases step with
  | delivery seq i =>
    obtain ⟨hturn, r', h'⟩ := recordDelivery_agrees h seq i
    exact ⟨hturn, r', m, hsilent h'⟩
  | record seq visibleText providerResponseId usage =>
    dsimp only [Step.run, Step.recorded, recordEvent]
    cases hrecord : s.persistence.record seq visibleText providerResponseId usage s.now with
    | error e => exact ⟨rfl, r, m, hsilent h⟩
    | ok p =>
      obtain ⟨hdelivered, hdurable, htext⟩ := record_ok hrecord
      refine ⟨rfl, r, m, { h with
        delivered := h.delivered.trans hdelivered.symm
        durable := h.durable.trans hdurable.symm
        text := ?_ }⟩
      show m.text ++ p.appendedText = text ++ visibleText.getD ""
      rw [htext, ← String.append_assoc, h.text]
  | flush i =>
    dsimp only [Step.run, dirtyThrough]
    by_cases hdirty : s.persistence.isDirty
    · rw [if_pos hdirty]
      obtain ⟨hturn, r', m', h'⟩ := storeCheckpoint_agrees h s.persistence.throughSeq i
      exact ⟨hturn, r', m', hsilent h'⟩
    · rw [if_neg hdirty]
      exact ⟨rfl, r, m, hsilent (h.congr rfl rfl rfl)⟩
  | tick now => exact ⟨rfl, r, m, hsilent { h with }⟩
  | other call =>
    obtain ⟨r', h'⟩ := exec_agrees h hstep
    exact ⟨rfl, r', m, hsilent h'⟩

theorem runSteps_agrees (h : Agrees s text r m) {steps : List Step}
    (hsteps : ∀ step ∈ steps, step.Apart s.turn) :
    (runSteps steps s).turn = s.turn ∧
      ∃ r' m', Agrees (runSteps steps s) (text ++ recordedText steps s) r' m' := by
  induction steps generalizing s text r m with
  | nil => exact ⟨rfl, r, m, by rwa [recordedText, String.append_empty]⟩
  | cons step steps ih =>
    obtain ⟨hturn, r₁, m₁, h₁⟩ := step_agrees h (hsteps step List.mem_cons_self)
    obtain ⟨hturn', r', m', h'⟩ := ih h₁ fun later hlater => by
      rw [hturn]
      exact hsteps later (List.mem_cons_of_mem _ hlater)
    rw [String.append_assoc] at h'
    exact ⟨hturn'.trans hturn, r', m', h'⟩

/-- The bridge of a turn that has just begun. -/
theorem begun_agrees {db : Database} (hdb : Reachable db) {input : BeginTurn} {ids : TurnIds}
    {started : StartedTurn} (hbegin : beginTurn input ids db = .ok (started, s.db))
    (hturn : s.turn = ⟨started.requestStateId, started.ownerLabel, started.streamGeneration⟩)
    (hnew : s.persistence = .new started input.startedAtMs) : ∃ r m, Agrees s "" r m := by
  obtain ⟨hs, hj⟩ := reachable_journal hdb
  obtain ⟨place, hnext, hfresh, hafter, rfl⟩ := beginTurn_ok hs hbegin
  have hjournal := effect_journal hs hj (.beginTurn place hnext hfresh)
  rw [← hafter] at hjournal
  refine ⟨input.requestState ids, place.assistant input ids,
    { schema := beginTurn_schema _ _ _ _ _ hs hbegin
      journal := hjournal
      request := by rw [hafter]; exact List.mem_append_right _ List.mem_cons_self
      running := rfl
      identity := by rw [hturn]; exact ⟨rfl, rfl, rfl⟩
      delivered := by rw [hnew]; rfl
      durable := by rw [hnew]; rfl
      message := by rw [hafter]; exact List.mem_append_right _ (by simp)
      assistant := rfl
      text := by rw [hnew]; rfl }⟩

theorem finish_stores (h : Agrees s text r m) {seq : Nat} {outcome : TerminalOutcome}
    (hok : (finish seq outcome i s).1 = .ok ()) :
    ∃ r' ∈ (finish seq outcome i s).2.db.requests, ∃ m' ∈ (finish seq outcome i s).2.db.messages,
      r'.id = s.turn.requestStateId ∧ r'.status = progressStatus (some outcome) ∧
        m'.id = r'.assistantMessageId ∧ m'.text = text := by
  unfold finish at hok ⊢
  cases hentered : s.persistence.enterTerminalSequence seq with
  | error e =>
    rw [hentered] at hok
    cases hok
  | ok entered =>
    have htext : entered.appendedText = s.persistence.appendedText := by
      unfold StreamPersistence.enterTerminalSequence at hentered
      split_ifs at hentered <;> cases hentered <;> rfl
    rw [hentered] at hok
    dsimp only at hok ⊢
    cases hclock : i.clock with
    | none =>
      rw [hclock] at hok
      cases hok
    | some now =>
      rw [hclock] at hok
      dsimp only at hok ⊢
      rcases i.run_cases (finishTurn ⟨((entered.stamp now).checkpoint s.turn seq).1, outcome⟩) s.db
        with ⟨e, he⟩ | ⟨progress, db', he, hfinish⟩
      · rw [he] at hok
        cases hok
      · obtain ⟨-, -, hrow, hmessage⟩ := h.progress rfl (finishTurn_iff.mp hfinish).2
        rw [he] at hok ⊢
        dsimp only at hok ⊢
        split_ifs at hok ⊢
        · refine ⟨_, hrow, _, hmessage, h.identity.1, rfl, h.assistant, ?_⟩
          show m.text ++ entered.appendedText = text
          rw [htext]
          exact h.text

/-- From the beginning of a turn, whatever the bridge records, whenever it flushes, however its
storage calls fail and whatever other tasks ask of the store: the stored text followed by the
buffered text is the visible text recorded so far; when the turn is finished, all is stored. -/
theorem streamed_text_conserved {db : Database} (hdb : Reachable db) {input : BeginTurn}
    {ids : TurnIds} {started : StartedTurn}
    (hbegin : beginTurn input ids db = .ok (started, s.db))
    (hturn : s.turn = ⟨started.requestStateId, started.ownerLabel, started.streamGeneration⟩)
    (hnew : s.persistence = .new started input.startedAtMs) (steps : List Step)
    (hsteps : ∀ step ∈ steps, step.Apart s.turn) :
    (∃ r ∈ (runSteps steps s).db.requests, ∃ m ∈ (runSteps steps s).db.messages,
      r.id = s.turn.requestStateId ∧ r.status = .running ∧ m.id = r.assistantMessageId ∧
        m.text ++ (runSteps steps s).persistence.appendedText = recordedText steps s) ∧
    ∀ seq outcome i, (finish seq outcome i (runSteps steps s)).1 = .ok () →
      ∃ r ∈ (finish seq outcome i (runSteps steps s)).2.db.requests,
        ∃ m ∈ (finish seq outcome i (runSteps steps s)).2.db.messages,
          r.id = s.turn.requestStateId ∧ r.status = progressStatus (some outcome) ∧
            m.id = r.assistantMessageId ∧ m.text = recordedText steps s := by
  obtain ⟨r₀, m₀, h₀⟩ := begun_agrees hdb hbegin hturn hnew
  obtain ⟨hturn', r, m, h⟩ := runSteps_agrees h₀ hsteps
  rw [String.empty_append] at h
  refine ⟨⟨r, h.request, m, h.message, hturn' ▸ h.identity.1, h.running, h.assistant, h.text⟩, ?_⟩
  intro seq outcome i hok
  rw [← hturn']
  exact finish_stores h hok

section Sample

def calmCall : StorageInput := ⟨some 6, none⟩

def sampleStarted : StartedTurn :=
  ⟨sampleRequest, ⟨11⟩, ⟨12⟩, 1, 2, sampleOwner, sampleGeneration, 0, 0, none⟩

def sampleSys : Sys :=
  { turn := ⟨sampleRequest, sampleOwner, sampleGeneration⟩
    machine := ⟨0, none, 0, none, none, none, none, none, none, false, false⟩
    cancelRequested := false, cancelled := false
    persistence := .new sampleStarted sampleTurn.startedAtMs
    db := (store.run sampleStart {}).2, now := 0, wire := [], faults := [] }

/-- A flush fails, and another task tries to delete the chat. -/
def sampleSteps : List Step :=
  [.delivery 1 calmCall, .record 1 (some "hello") none none,
   .flush ⟨some 6, some (.fromStorage (.database "disk full"))⟩, .other (.deleteChat sampleChat),
   .delivery 2 calmCall]

theorem streamed_text_after_fault :
    (finish 2 .completed calmCall (runSteps sampleSteps sampleSys)).1 = .ok () ∧
    ∃ r ∈ (finish 2 .completed calmCall (runSteps sampleSteps sampleSys)).2.db.requests,
      ∃ m ∈ (finish 2 .completed calmCall (runSteps sampleSteps sampleSys)).2.db.messages,
        r.id = sampleRequest ∧ r.status = progressStatus (some .completed) ∧
          m.id = r.assistantMessageId ∧ m.text = recordedText sampleSteps sampleSys := by
  have hok : (finish 2 .completed calmCall (runSteps sampleSteps sampleSys)).1 = .ok () := rfl
  have hbegin : beginTurn sampleTurn ⟨sampleRequest, ⟨11⟩, ⟨12⟩⟩
      (store.run (sampleStart.take 1) {}).2 = .ok (sampleStarted, sampleSys.db) := rfl
  exact ⟨hok, (streamed_text_conserved ⟨sampleStart.take 1, rfl⟩ hbegin rfl rfl sampleSteps
    (by simp [sampleSteps, Step.Apart, Call.Writes])).2 2 .completed calmCall hok⟩

end Sample

end Lorepia.Stream
