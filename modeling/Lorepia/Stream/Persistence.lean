import Lorepia.Stream.Model

/-!
# Buffered persistence of a stream (`StreamPersistence`, provider_stream.rs:1541–1904)

What the bridge has sent it also writes to the turn's row and message, in batches: text
is buffered until a flush, and a flush that fails puts its payload back. The methods
that do not touch storage are functions here; each method that does is cut in two, the
checkpoint it builds and what it makes of the reply, with the transaction of
`Storage.Store` between them.

The source keeps the identity of the turn twice, in `StreamPersistence` and in
`StreamRequestState`; `bind_started_turn` has checked that they agree, so there is one
`TurnIdentity` here.
-/

namespace Lorepia.Stream

open Lorepia.Storage hiding TokenUsage

/-- The turn a stream belongs to. -/
structure TurnIdentity where
  requestStateId : RequestStateId
  ownerLabel : StreamOwnerLabel
  streamGeneration : StreamGeneration
  deriving DecidableEq

structure StreamPersistence where
  lastDeliveredSeq : Nat
  lastDurableSeq : Nat
  throughSeq : Nat
  appendedText : String
  visibleTextBytes : Nat
  providerResponseId : Option String
  usage : Storage.TokenUsage
  hasUsage : Bool
  lastAtMs : TimestampMillis
  flushDeadline : Option Nat
  deriving DecidableEq

namespace StreamPersistence

def validateVisibleFragment (p : StreamPersistence) (text : String) :
    Except ProviderCommandError Unit :=
  if p.visibleTextBytes + text.utf8ByteSize ≤ maxMessageBytes then .ok ()
  else .error responseTooLarge

/-- `merge_usage`. The total is not stored. -/
def mergeUsage (p : StreamPersistence) (usage : TokenUsage) : StreamPersistence :=
  { p with
    usage :=
      { inputTokens := usage.inputTokens.getD p.usage.inputTokens
        outputTokens := usage.outputTokens.getD p.usage.outputTokens
        cachedInputTokens := usage.cachedInputTokens.getD p.usage.cachedInputTokens
        reasoningTokens := usage.reasoningTokens.getD p.usage.reasoningTokens }
    hasUsage := p.hasUsage || usage.inputTokens.isSome || usage.outputTokens.isSome ||
      usage.cachedInputTokens.isSome || usage.reasoningTokens.isSome }

/-- What `record` does once the sequence number is the next one and the text fits. -/
def recorded (p : StreamPersistence) (seq : Nat) (visibleText : Option String)
    (providerResponseId : Option String) (usage : Option TokenUsage) (now : Nat) :
    StreamPersistence :=
  let written :=
    { p with
      appendedText := p.appendedText ++ visibleText.getD ""
      visibleTextBytes := p.visibleTextBytes + (visibleText.getD "").utf8ByteSize
      providerResponseId := providerResponseId.or p.providerResponseId }
  let merged := match usage with
    | some usage => written.mergeUsage usage
    | none => written
  { merged with
    throughSeq := seq
    flushDeadline := p.flushDeadline.or (some (now + storageFlushInterval)) }

def record (p : StreamPersistence) (seq : Nat) (visibleText : Option String)
    (providerResponseId : Option String) (usage : Option TokenUsage) (now : Nat) :
    Except ProviderCommandError StreamPersistence := do
  if seq ≠ p.throughSeq + 1 then
    .error (storageSequenceInvalid "stream persistence sequence is invalid")
  else
    match visibleText with
    | some text => p.validateVisibleFragment text
    | none => .ok ()
    .ok (p.recorded seq visibleText providerResponseId usage now)

def isDirty (p : StreamPersistence) : Bool := decide (p.lastDurableSeq < p.throughSeq)

def shouldFlushForSize (p : StreamPersistence) : Bool :=
  decide (storageFlushBytes ≤ p.appendedText.utf8ByteSize)

/-- `timestamp`, when the clock reads `now`. -/
def stamp (p : StreamPersistence) (now : TimestampMillis) : StreamPersistence :=
  { p with lastAtMs := max p.lastAtMs now }

/-- `checkpoint`: the payload leaves the buffer. -/
def checkpoint (p : StreamPersistence) (turn : TurnIdentity) (throughSeq : Nat) :
    ResponseCheckpoint × StreamPersistence :=
  ({ requestStateId := turn.requestStateId, ownerLabel := turn.ownerLabel
     streamGeneration := turn.streamGeneration, expectedLastDurableSeq := p.lastDurableSeq
     throughSeq, appendedText := p.appendedText, providerResponseId := p.providerResponseId
     usage := if p.hasUsage then some p.usage else none, atMs := p.lastAtMs },
   { p with appendedText := "", providerResponseId := none })

def restoreCheckpointPayload (p : StreamPersistence) (checkpoint : ResponseCheckpoint) :
    StreamPersistence :=
  { p with
    appendedText := checkpoint.appendedText ++ p.appendedText
    providerResponseId := p.providerResponseId.or checkpoint.providerResponseId }

/-- What a flush or a terminal commit leaves when storage has accepted it. -/
def committed (p : StreamPersistence) (seq : Nat) : StreamPersistence :=
  { p with lastDurableSeq := seq, flushDeadline := none }

/-- The checkpoint of `record_delivery`. -/
def deliveryCheckpoint (p : StreamPersistence) (turn : TurnIdentity) (seq : Nat) :
    DeliveryCheckpoint :=
  { requestStateId := turn.requestStateId, ownerLabel := turn.ownerLabel
    streamGeneration := turn.streamGeneration, expectedLastDeliveredSeq := p.lastDeliveredSeq
    throughSeq := seq, atMs := p.lastAtMs }

/-! ### What the source checks in a reply -/

/-- In `record_delivery`. -/
def deliveryConsistent (p : StreamPersistence) (turn : TurnIdentity) (seq : Nat)
    (progress : StreamSequenceProgress) : Bool :=
  decide (progress.requestStateId = turn.requestStateId) &&
  decide (progress.ownerLabel = turn.ownerLabel) &&
  decide (progress.streamGeneration = turn.streamGeneration) &&
  decide (progress.lastDeliveredSeq = seq) &&
  decide (progress.lastDurableSeq = p.lastDurableSeq) &&
  progress.lastAckedSeq.all fun acked => decide (acked ≤ progress.lastDurableSeq)

/-- In `flush`. -/
def flushConsistent (p : StreamPersistence) (turn : TurnIdentity) (throughSeq : Nat)
    (progress : ResponseProgress) : Bool :=
  decide (progress.requestStateId = turn.requestStateId) &&
  decide (progress.lastDeliveredSeq = p.lastDeliveredSeq) &&
  decide (progress.lastDurableSeq = throughSeq) &&
  progress.lastAckedSeq.all fun acked => decide (acked ≤ progress.lastDurableSeq)

end StreamPersistence

end Lorepia.Stream
