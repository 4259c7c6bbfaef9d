import Lorepia.Storage.Store

/-!
# The provider stream (`provider_stream.rs`): data and local computation

A turn's response is forwarded to the window as a sequence of channel events, each
with the next sequence number. The window acknowledges them; at most `maxInFlight`
are under way, and the flow-control state of one stream is its `StreamMachine`. This
module has the types of the stream, the machine with its methods, and the cutting of
text into fragments. What the concurrent tasks do with them is in `Tasks.lean`.

Representation:

- a sequence number is a `Nat`; `next_wire_sequence` keeps it at most
  `maxWireSequence`, below which the source's saturating arithmetic is exact;
- an instant of the monotonic clock is a number of milliseconds;
- request ids are left out: all events here are those of one stream.
-/

namespace Lorepia.Stream

open Lorepia.Storage hiding TokenUsage

/-! ## Limits (provider_stream.rs:46–75) -/

def maxInFlight : Nat := 4
def ackTimeout : Nat := 30000
def maxDeltaFragmentBytes : Nat := 512
/-- The largest integer that JavaScript represents exactly. -/
def maxWireSequence : Nat := 9007199254740991
def maxNonTerminalSequence : Nat := maxWireSequence - 1
def maxForwardedResponseIdBytes : Nat := 256
def storageFlushBytes : Nat := 4 * 1024
def storageFlushInterval : Nat := 250

/-! ## Cutting text (provider_stream.rs:2714–2753, 2766–2776) -/

/-- The longest run of whole characters within `budget` bytes, and the rest. -/
def splitBytes : Nat → List Char → List Char × List Char
  | _, [] => ([], [])
  | budget, c :: cs =>
    if c.utf8Size ≤ budget then
      let parts := splitBytes (budget - c.utf8Size) cs
      (c :: parts.1, parts.2)
    else ([], c :: cs)

/-- `Utf8Fragments::next`. A character that does not fit is taken alone. -/
def nextFragment (maxBytes : Nat) : List Char → Option (List Char × List Char)
  | [] => none
  | c :: cs =>
    match splitBytes maxBytes (c :: cs) with
    | ([], _) => some ([c], cs)
    | parts => some parts

/-- The fragments of `remaining`; each takes a character, so there are no more
fragments than characters. -/
def collectFragments (maxBytes : Nat) : Nat → List Char → List String
  | 0, _ => []
  | fuel + 1, remaining =>
    match nextFragment maxBytes remaining with
    | none => []
    | some (fragment, rest) =>
      String.ofList fragment :: collectFragments maxBytes fuel rest

def splitUtf8 (text : String) (maxBytes : Nat) : List String :=
  collectFragments (max maxBytes 1) text.toList.length text.toList

def truncateUtf8 (value : String) (maxBytes : Nat) : String :=
  if value.utf8ByteSize ≤ maxBytes then value
  else String.ofList (splitBytes maxBytes value.toList).1

/-! ## Errors -/

inductive RuntimeErrorKind where
  | invalidRequest | invalidEndpoint | unsafeEndpoint | dnsResolution | credentialMismatch
  | invalidCredential | http | httpStatus | unexpectedContentType | streamTooLarge
  | streamProtocol | provider | cancelled | consumerClosed | timeout
  deriving DecidableEq

/-- `ProviderCommandError` (provider_stream.rs:172–181). -/
structure ProviderCommandError where
  code : String
  message : String
  httpStatus : Option Nat := none
  retriable : Bool := false
  runtimeKind : Option RuntimeErrorKind := none
  deriving DecidableEq

/-- `ProviderCommandError::new`, and `internal`. -/
def ProviderCommandError.new (code message : String) : ProviderCommandError :=
  { code := truncateUtf8 code 64, message := truncateUtf8 message 512 }

/-- `StorageCommandError` (storage_commands.rs). -/
structure StorageCommandError where
  code : String
  message : String
  deriving DecidableEq

/-- `StorageCommandError::from_storage` (storage_commands.rs:150–202), on the errors of
the operations modelled here. -/
def StorageCommandError.fromStorage : StorageError → StorageCommandError
  | .incompatibleSchema _ => ⟨"STORAGE_INCOMPATIBLE", "local storage schema is incompatible"⟩
  | .notFound entity =>
    if entity = "chat" then ⟨"CHAT_NOT_FOUND", "chat was not found"⟩
    else ⟨"STORAGE_WRITE_FAILED", "local storage operation failed"⟩
  | .conflict entity =>
    if entity = "chat with an active request" then
      ⟨"CHAT_ACTIVE_STREAM", "chat has an active response"⟩
    else ⟨"STORAGE_WRITE_FAILED", "local storage operation failed"⟩
  | .invalidInput _ _ => ⟨"STORAGE_INPUT_INVALID", "storage input is invalid"⟩
  | .invalidState _ _ => ⟨"STORAGE_WRITE_FAILED", "local storage operation failed"⟩
  | .sequenceMismatch _ _ => ⟨"STORAGE_WRITE_FAILED", "local storage operation failed"⟩
  | .database _ => ⟨"STORAGE_WRITE_FAILED", "local storage operation failed"⟩

def ProviderCommandError.fromStorage (error : StorageCommandError) : ProviderCommandError :=
  .new error.code error.message

def streamCancelled : ProviderCommandError :=
  .new "STREAM_CANCELLED" "provider stream was cancelled"

def responseTooLarge : ProviderCommandError :=
  .new "STREAM_VISIBLE_OUTPUT_TOO_LARGE"
    "provider stream visible output exceeded the product limit"

def storageUnavailable : ProviderCommandError :=
  .new "STORAGE_UNAVAILABLE" "local storage is unavailable"

def streamInternalState (message : String) : ProviderCommandError :=
  .new "STREAM_INTERNAL_STATE" message

def storageSequenceInvalid (message : String) : ProviderCommandError :=
  .new "STORAGE_SEQUENCE_INVALID" message

def storageIdentityMismatch (message : String) : ProviderCommandError :=
  .new "STREAM_STORAGE_IDENTITY_MISMATCH" message

def storageWriteFailed (message : String) : ProviderCommandError :=
  .new "STORAGE_WRITE_FAILED" message

/-! ## Events -/

/-- The runtime's `TokenUsage` (event.rs). -/
structure TokenUsage where
  inputTokens : Option Nat := none
  outputTokens : Option Nat := none
  reasoningTokens : Option Nat := none
  cachedInputTokens : Option Nat := none
  totalTokens : Option Nat := none
  deriving DecidableEq

inductive CompletionReason where
  | stop | length | contentFilter | refusal | resourceLimit
  | other (reason : String)
  deriving DecidableEq

/-- The runtime's `ProviderStreamEvent`. -/
inductive RuntimeEvent where
  | providerResponseId (id : String)
  | textDelta (text : String)
  | reasoningDelta (text : String)
  | refusalDelta (text : String)
  | usage (usage : TokenUsage)
  deriving DecidableEq

/-- What a `ProviderChannelEvent` carries besides its sequence number. -/
inductive EventBody where
  | started (maxInFlight : Nat)
  | providerResponseId (id : String)
  | textDelta (text : String)
  | reasoningDelta (text : String)
  | refusalDelta (text : String)
  | usage (usage : TokenUsage)
  | completed (reason : Option CompletionReason) (usage : Option TokenUsage)
  | cancelled
  | failed (error : ProviderCommandError)
  deriving DecidableEq

structure ChannelEvent where
  seq : Nat
  body : EventBody
  deriving DecidableEq

inductive DeltaKind where
  | text | reasoning | refusal
  deriving DecidableEq

def DeltaKind.body : DeltaKind → String → EventBody
  | .text, fragment => .textDelta fragment
  | .reasoning, fragment => .reasoningDelta fragment
  | .refusal, fragment => .refusalDelta fragment

/-- `matches!(kind, DeltaKind::Text | DeltaKind::Refusal)`. -/
def DeltaKind.isVisible : DeltaKind → Bool
  | .text | .refusal => true
  | .reasoning => false

inductive TerminalReceipt where
  | completed (seq : Nat) (reason : Option CompletionReason) (usage : Option TokenUsage)
  | cancelled (seq : Nat)
  | failed (seq : Nat) (error : ProviderCommandError)
  deriving DecidableEq

/-! ## Flow control (provider_stream.rs:313–402) -/

structure StreamMachine where
  lastSentSeq : Nat
  acknowledgedThrough : Option Nat
  lastDurableSeq : Nat
  persistedAckedThrough : Option Nat
  flushRequestedThrough : Option Nat
  ackDeadline : Option Nat
  pendingSendSeq : Option Nat
  leaseFailure : Option ProviderCommandError
  terminal : Option TerminalReceipt
  terminalSnapshotReturned : Bool
  terminalCommitting : Bool
  deriving DecidableEq

namespace StreamMachine

def ackedCount (m : StreamMachine) : Nat := (m.acknowledgedThrough.map (· + 1)).getD 0

def inFlight (m : StreamMachine) : Nat := m.lastSentSeq + 1 - m.ackedCount

def publishDurable (m : StreamMachine) (seq : Nat) : StreamMachine :=
  let durable := max m.lastDurableSeq seq
  { m with
    lastDurableSeq := durable
    flushRequestedThrough := m.flushRequestedThrough.filter fun requested =>
      !decide (requested ≤ durable) }

end StreamMachine

def nextWireSequence (lastSentSeq maximum : Nat) : Except ProviderCommandError Nat :=
  if lastSentSeq + 1 ≤ maximum then .ok (lastSentSeq + 1)
  else .error (.new "STREAM_SEQUENCE_EXHAUSTED"
    "provider stream exhausted its JavaScript-safe sequence budget")

end Lorepia.Stream
