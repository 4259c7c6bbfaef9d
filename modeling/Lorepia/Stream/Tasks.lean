import Lorepia.Lib.Concurrent
import Lorepia.Stream.Persistence

/-!
# Forwarding the events of a stream (`provider_stream.rs`)

The bridge sends each event it receives on the channel, records its delivery and buffers
what it carries; text is cut into fragments, and a flush writes the buffer. It shares a `Sys`
with the other tasks of the stream. Every critical section of the machine's lock, every
storage transaction and every send on the channel is one atomic action; what the task
computes between two of them is private to it.

What an action does may depend on an `Input`:

- a storage call reads the wall clock, and the clock or the call may fail; a failed call
  leaves the database as it was, and is noted in `faults`;
- a send may fail;
- a wait ends by a notification, which may come at any time, so that no wake-up is lost,
  or by the cancelled token.
-/

namespace Lorepia.Stream

open Lorepia
open Lorepia.Storage hiding TokenUsage

/-! ## State and inputs -/

/-- Which storage call failed. -/
inductive Fault where
  | delivery
  | checkpoint
  deriving DecidableEq

structure Sys where
  turn : TurnIdentity
  machine : StreamMachine
  cancelRequested : Bool
  /-- The cancellation token. -/
  cancelled : Bool
  persistence : StreamPersistence
  db : Database
  /-- The monotonic clock. -/
  now : Nat
  /-- The events sent on the channel. -/
  wire : List ChannelEvent
  faults : List Fault
  deriving DecidableEq

/-- How a storage call goes: what the wall clock reads, and whether storage fails. -/
structure StorageInput where
  clock : Option TimestampMillis
  fault : Option StorageCommandError
  deriving DecidableEq

def StorageInput.calm (i : StorageInput) : Bool := i.clock.isSome && i.fault.isNone

/-- `StorageState::run`. -/
def StorageInput.run {α : Type} (i : StorageInput) (tx : StoreTx α) (db : Database) :
    Except StorageCommandError α × Database :=
  match i.fault with
  | some error => (.error error, db)
  | none => match tx.commit db with
    | (.ok a, db) => (.ok a, db)
    | (.error e, db) => (.error (.fromStorage e), db)

inductive Input where
  | proceed
  | storage (call : StorageInput)
  | sendFails (error : ProviderCommandError)
  | notified
  | tokenCancelled

abbrev Task (α : Type) := Proc Sys Input ProviderCommandError α

abbrev Section (α : Type) := Sys → Except ProviderCommandError α × Sys

abbrev locked {α : Type} (f : Section α) : Task α := Proc.locked f

def storage {α : Type} (fault : Fault) (f : StorageInput → Section α) : Task α :=
  Proc.atomic fun
    | .storage i, s =>
      let (r, s') := f i s
      some (r, if i.calm then s' else { s' with faults := s'.faults ++ [fault] })
    | _, _ => none

def Sys.onMachine (s : Sys) (f : StreamMachine → StreamMachine) : Sys :=
  { s with machine := f s.machine }

/-! ## Waiting -/

/-- `select!` of a notification and the cancelled token. -/
def awaitNotice : Task Unit :=
  Proc.atomic fun
    | .notified, s => some (.ok (), s)
    | .tokenCancelled, s => if s.cancelled then some (.error streamCancelled, s) else none
    | _, _ => none

/-! ## Sending (provider_stream.rs:2289–2389) -/

/-- The first critical section of `send_non_terminal`: reserve the next sequence number,
or find that the window is full. -/
def reserveSend : Section (Option Nat) := fun s =>
  match s.machine.leaseFailure with
  | some error => (.error error, s)
  | none =>
    if s.cancelRequested ∨ s.cancelled then (.error streamCancelled, s)
    else if s.machine.terminal.isSome ∨ s.machine.terminalCommitting then
      (.error (.new "STREAM_ALREADY_TERMINAL"
        "provider stream already reached a terminal state"), s)
    else if s.machine.pendingSendSeq = none ∧ s.machine.inFlight < maxInFlight then
      match nextWireSequence s.machine.lastSentSeq maxNonTerminalSequence with
      | .error error => (.error error, s)
      | .ok seq => (.ok (some seq), s.onMachine fun m => { m with pendingSendSeq := some seq })
    else (.ok none, s)

/-- `send_direct`; its result is looked at later. -/
def sendDirect (event : ChannelEvent) : Task (Except ProviderCommandError Unit) :=
  Proc.atomic fun
    | .proceed, s => some (.ok (.ok ()), { s with wire := s.wire ++ [event] })
    | .sendFails error, s => some (.ok (.error error), s)
    | _, _ => none

/-- The second critical section of `send_non_terminal`. -/
def commitSend (seq : Nat) (sent : Except ProviderCommandError Unit) : Section Nat := fun s =>
  if s.machine.pendingSendSeq ≠ some seq then
    (.error (streamInternalState "provider event reservation was lost"), s)
  else
    match sent with
    | .ok () =>
      (.ok seq, s.onMachine fun m =>
        { m with
          pendingSendSeq := none
          lastSentSeq := seq
          ackDeadline :=
            if m.inFlight = 0 ∨ m.ackDeadline = none then some (s.now + ackTimeout)
            else m.ackDeadline })
    | .error error => (.error error, s.onMachine fun m => { m with pendingSendSeq := none })

def sendNonTerminal (body : EventBody) : Task Nat :=
  Proc.repeatUntil do
    match ← locked reserveSend with
    | some seq => do
      let sent ← sendDirect ⟨seq, body⟩
      let seq ← locked (commitSend seq sent)
      pure (some seq)
    | none => do
      awaitNotice
      pure none

/-! ## Persistence (provider_stream.rs:1687–1904) -/

def recordDelivery (seq : Nat) (i : StorageInput) : Section Unit := fun s =>
  if seq ≠ s.persistence.lastDeliveredSeq + 1 then
    (.error (storageSequenceInvalid "stream delivery sequence is invalid"), s)
  else
    match i.clock with
    | none => (.error storageUnavailable, s)
    | some now =>
      let p := s.persistence.stamp now
      match i.run (recordResponseDelivery (p.deliveryCheckpoint s.turn seq)) s.db with
      | (.error error, db) => (.error (.fromStorage error), { s with persistence := p, db })
      | (.ok progress, db) =>
        if p.deliveryConsistent s.turn seq progress then
          (.ok (), { s with persistence := { p with lastDeliveredSeq := seq }, db })
        else
          (.error (storageIdentityMismatch "local delivery progress was inconsistent"),
            { s with persistence := p, db })

/-- `record`. -/
def recordEvent (seq : Nat) (visibleText providerResponseId : Option String)
    (usage : Option TokenUsage) : Section Unit := fun s =>
  match s.persistence.record seq visibleText providerResponseId usage s.now with
  | .ok p => (.ok (), { s with persistence := p })
  | .error error => (.error error, s)

/-- The sequence number a flush reaches, unless there is nothing to flush. -/
def dirtyThrough : Section (Option Nat) := fun s =>
  if s.persistence.isDirty then (.ok (some s.persistence.throughSeq), s)
  else (.ok none, { s with persistence := { s.persistence with flushDeadline := none } })

/-- The storage call of `flush`. -/
def storeCheckpoint (throughSeq : Nat) (i : StorageInput) : Section Unit := fun s =>
  match i.clock with
  | none => (.error storageUnavailable, s)
  | some now =>
    let (checkpoint, p) := (s.persistence.stamp now).checkpoint s.turn throughSeq
    match i.run (checkpointResponse checkpoint) s.db with
    | (.error error, db) =>
      (.error (.fromStorage error),
        { s with persistence := p.restoreCheckpointPayload checkpoint, db })
    | (.ok progress, db) =>
      if p.flushConsistent s.turn throughSeq progress then
        (.ok (), { s with persistence := p.committed throughSeq, db })
      else
        (.error (storageWriteFailed "local storage checkpoint was inconsistent"),
          { s with persistence := p.restoreCheckpointPayload checkpoint, db })

/-- `publish_durable`, under the machine's lock. -/
def publishDurable (seq : Nat) : Section Unit := fun s =>
  (.ok (), s.onMachine (·.publishDurable seq))

def flush : Task Unit := do
  match ← locked dirtyThrough with
  | none => pure ()
  | some throughSeq => do
    storage .checkpoint (storeCheckpoint throughSeq)
    locked (publishDurable throughSeq)

/-! ## Forwarding (provider_stream.rs:2122–2280) -/

/-- Whether `flush_if_requested_or_pressured` flushes. -/
def flushPressure : Section Bool := fun s =>
  (.ok (s.persistence.shouldFlushForSize ||
    (s.machine.flushRequestedThrough.any fun requested =>
      decide (requested ≤ s.persistence.throughSeq)) ||
    decide (maxInFlight - 1 ≤ s.machine.inFlight)), s)

def flushIfRequestedOrPressured : Task Unit := do
  if ← locked flushPressure then flush else pure ()

/-- Send an event, record its delivery, and buffer what it carries. -/
def forwardEvent (body : EventBody) (visibleText providerResponseId : Option String)
    (usage : Option TokenUsage) : Task Unit := do
  let seq ← sendNonTerminal body
  storage .delivery (recordDelivery seq)
  locked (recordEvent seq visibleText providerResponseId usage)

def validateFragment (kind : DeltaKind) (fragment : String) : Section Unit := fun s =>
  (if kind.isVisible then s.persistence.validateVisibleFragment fragment else .ok (), s)

/-- The loop of `forward_text_fragments`. -/
def forwardFragments (kind : DeltaKind) : List String → Task Unit
  | [] => pure ()
  | fragment :: rest => do
    locked (validateFragment kind fragment)
    forwardEvent (kind.body fragment) (if kind.isVisible then some fragment else none) none none
    flushIfRequestedOrPressured
    forwardFragments kind rest

def forwardTextFragments (kind : DeltaKind) (text : String) : Task Unit :=
  if text.isEmpty then
    Proc.fail (.new "INVALID_STREAM_EVENT" "provider stream text delta was empty")
  else forwardFragments kind (splitUtf8 text maxDeltaFragmentBytes)

def forwardRuntimeEvent (event : RuntimeEvent) : Task Unit := do
  match event with
  | .providerResponseId id =>
    if maxForwardedResponseIdBytes < id.utf8ByteSize then
      Proc.fail (.new "PROVIDER_RESPONSE_ID_TOO_LARGE"
        "provider response identifier exceeded the runtime limit")
    else forwardEvent (.providerResponseId id) none (some id) none
  | .textDelta text => forwardTextFragments .text text
  | .reasoningDelta text => forwardTextFragments .reasoning text
  | .refusalDelta text => forwardTextFragments .refusal text
  | .usage usage => forwardEvent (.usage usage) none none (some usage)
  flushIfRequestedOrPressured

end Lorepia.Stream
