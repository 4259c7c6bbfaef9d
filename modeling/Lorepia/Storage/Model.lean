import Lorepia.Lib.Table
import Lorepia.Lib.Tx

/-!
# The chat database (`lorepia-storage`: `model.rs`, `id.rs`, `error.rs`)

The data types of the storage crate and the four tables of schema version 3 that
a conversation lives in: `chats`, `messages`, `active_path` and `request_state`
(the stream journal). The other tables (`settings`, `schema_meta`) are left out,
and so are the render cache and the full-text index, which no operation modelled
here reads.

Representation:

- an identifier is 32 lowercase hexadecimal characters (`validate_id`), i.e. a
  128-bit UUID in print, and is kept as the `BitVec 128` it prints;
- `TimestampMillis` is a non-negative safe integer, so `Fin (2 ^ 53)`;
- sequence numbers, ordinals and token counts are `Nat`; the code's own range
  checks (`encode_u64`, `decode_u64`, the column `CHECK`s) stay explicit;
- a Rust `String` is a Lean `String`, and its `len()` is `utf8ByteSize`.
-/

namespace Lorepia.Storage

/-! ## Limits (model.rs:9–26) -/

def maxChatTitleBytes : Nat := 1024
def maxUserMessageBytes : Nat := 64 * 1024
def maxMessageBytes : Nat := 1024 * 1024
def maxCheckpointBytes : Nat := 64 * 1024
def maxProviderResponseIdBytes : Nat := 256
def maxStreamOwnerLabelBytes : Nat := 128
def maxBranchDepth : Nat := 1000000
def maxSafeInteger : Nat := 9007199254740991

/-! ## Identifiers and scalar types -/

structure ChatId where
  uuid : BitVec 128
  deriving DecidableEq

structure MessageId where
  uuid : BitVec 128
  deriving DecidableEq

structure RequestStateId where
  uuid : BitVec 128
  deriving DecidableEq

structure StreamGeneration where
  uuid : BitVec 128
  deriving DecidableEq

/-- Milliseconds since the epoch, at most `maxSafeInteger` (model.rs:84–93). -/
abbrev TimestampMillis := Fin (2 ^ 53)

instance neZero_safeInteger : NeZero (2 ^ 53) := ⟨by decide⟩

/-- Bytes of the native label alphabet (model.rs:41–44). -/
def isOwnerLabelChar (c : Char) : Bool :=
  c.isAlphanum || c == '-' || c == '/' || c == ':' || c == '_'

/-- The checks of `StreamOwnerLabel::parse` (model.rs:33–51). -/
def isOwnerLabel (value : String) : Bool :=
  !value.isEmpty && decide (value.utf8ByteSize ≤ maxStreamOwnerLabelBytes) &&
    value.toList.all isOwnerLabelChar

structure StreamOwnerLabel where
  value : String
  parsed : isOwnerLabel value = true
  deriving DecidableEq

/-- Rust's `char::is_control`: the general category `Cc`. -/
def isControl (c : Char) : Bool :=
  decide (c.toNat ≤ 0x1f) || (decide (0x7f ≤ c.toNat) && decide (c.toNat ≤ 0x9f))

/-- Rust's `char::is_whitespace`: the Unicode property `White_Space`. -/
def isWhitespace (c : Char) : Bool :=
  (decide (0x9 ≤ c.toNat) && decide (c.toNat ≤ 0xd)) || c.toNat == 0x20 || c.toNat == 0x85 ||
    c.toNat == 0xa0 || c.toNat == 0x1680 ||
    (decide (0x2000 ≤ c.toNat) && decide (c.toNat ≤ 0x200a)) ||
    c.toNat == 0x2028 || c.toNat == 0x2029 || c.toNat == 0x202f || c.toNat == 0x205f ||
    c.toNat == 0x3000

/-- `text.contains('\0')`. -/
def containsNul (text : String) : Bool := text.toList.contains '\x00'

/-- The checks of `CharacterId::parse` (id.rs:87–102). -/
def isCharacterId (value : String) : Bool :=
  !value.isEmpty && decide (value.utf8ByteSize ≤ 128) && !containsNul value

structure CharacterId where
  value : String
  parsed : isCharacterId value = true
  deriving DecidableEq

/-- The checks of `ModelId::parse` (id.rs:136–157). -/
def isModelId (value : String) : Bool :=
  !value.isEmpty && decide (value.utf8ByteSize ≤ 256) && !value.toList.any isControl

structure ModelId where
  value : String
  parsed : isModelId value = true
  deriving DecidableEq

inductive ProviderId where
  | openAi | anthropic | deepSeek | ollamaCloud | gemini | vertexAi
  deriving DecidableEq

structure ProviderSelection where
  providerId : ProviderId
  modelId : ModelId
  deriving DecidableEq

inductive MessageRole where
  | user | assistant
  deriving DecidableEq

/-- The source's `Complete`, `Partial` and `Failed`. -/
inductive MessageStatus where
  | complete | partialText | failed
  deriving DecidableEq

inductive RequestStatus where
  | running | completed | cancelled | failed | interrupted
  deriving DecidableEq

def RequestStatus.asStr : RequestStatus → String
  | .running => "running"
  | .completed => "completed"
  | .cancelled => "cancelled"
  | .failed => "failed"
  | .interrupted => "interrupted"

inductive RequestFailureCode where
  | networkUnavailable | authenticationFailed | rateLimited | providerRejected | timeout
  | protocolViolation | responseTooLarge | internal | appRestarted
  deriving DecidableEq

inductive TerminalOutcome where
  | completed | cancelled
  | failed (code : RequestFailureCode)
  deriving DecidableEq

/-- The stored token counts (model.rs:515–520). -/
structure TokenUsage where
  inputTokens : Nat := 0
  outputTokens : Nat := 0
  cachedInputTokens : Nat := 0
  reasoningTokens : Nat := 0
  deriving DecidableEq

/-- `StorageError`, with every SQLite failure that is not an I/O failure in
`database`. -/
inductive StorageError where
  | database (reason : String)
  | incompatibleSchema (reason : String)
  | invalidInput (field reason : String)
  | notFound (entity : String)
  | conflict (entity : String)
  | invalidState (expected actual : String)
  | sequenceMismatch (expected actual : Nat)
  deriving DecidableEq

/-! ## Rows -/

/-- A row of `chats`. -/
structure Chat where
  id : ChatId
  characterId : CharacterId
  title : String
  revision : Nat
  createdAtMs : TimestampMillis
  updatedAtMs : TimestampMillis
  deriving DecidableEq

/-- A row of `messages`. -/
structure Message where
  id : MessageId
  chatId : ChatId
  parentId : Option MessageId
  siblingOrd : Nat
  depth : Nat
  ordinal : Nat
  role : MessageRole
  status : MessageStatus
  text : String
  createdAtMs : TimestampMillis
  updatedAtMs : TimestampMillis
  completedAtMs : Option TimestampMillis
  deriving DecidableEq

/-- A row of `active_path`. -/
structure PathRow where
  chatId : ChatId
  position : Nat
  messageId : MessageId
  deriving DecidableEq

/-- A row of `request_state`. The four usage columns are set together
(`encode_usage`), so they are one optional record. -/
structure RequestState where
  id : RequestStateId
  chatId : ChatId
  userMessageId : MessageId
  assistantMessageId : MessageId
  selection : ProviderSelection
  ownerLabel : StreamOwnerLabel
  streamGeneration : StreamGeneration
  status : RequestStatus
  lastDeliveredSeq : Nat
  lastDurableSeq : Nat
  lastAckedSeq : Option Nat
  providerResponseId : Option String
  usage : Option TokenUsage
  failureCode : Option RequestFailureCode
  startedAtMs : TimestampMillis
  updatedAtMs : TimestampMillis
  finishedAtMs : Option TimestampMillis
  deriving DecidableEq

structure Database where
  chats : List Chat := []
  messages : List Message := []
  activePath : List PathRow := []
  requests : List RequestState := []
  deriving DecidableEq

abbrev StoreTx (α : Type) := Tx Database StorageError α

/-! ## Arguments and replies -/

structure CreateChat where
  characterId : CharacterId
  title : String
  atMs : TimestampMillis
  deriving DecidableEq

structure BeginTurn where
  chatId : ChatId
  selection : ProviderSelection
  ownerLabel : StreamOwnerLabel
  streamGeneration : StreamGeneration
  userText : String
  startedAtMs : TimestampMillis
  deriving DecidableEq

/-- The identifiers `begin_turn` draws with `Uuid::new_v4`. Nothing is assumed of
them: a collision is caught by the `UNIQUE` columns. -/
structure TurnIds where
  requestStateId : RequestStateId
  userMessageId : MessageId
  assistantMessageId : MessageId
  deriving DecidableEq

structure StartedTurn where
  requestStateId : RequestStateId
  userMessageId : MessageId
  assistantMessageId : MessageId
  userOrdinal : Nat
  assistantOrdinal : Nat
  ownerLabel : StreamOwnerLabel
  streamGeneration : StreamGeneration
  lastDeliveredSeq : Nat
  lastDurableSeq : Nat
  lastAckedSeq : Option Nat
  deriving DecidableEq

structure ResponseCheckpoint where
  requestStateId : RequestStateId
  ownerLabel : StreamOwnerLabel
  streamGeneration : StreamGeneration
  expectedLastDurableSeq : Nat
  throughSeq : Nat
  appendedText : String
  providerResponseId : Option String
  usage : Option TokenUsage
  atMs : TimestampMillis
  deriving DecidableEq

structure DeliveryCheckpoint where
  requestStateId : RequestStateId
  ownerLabel : StreamOwnerLabel
  streamGeneration : StreamGeneration
  expectedLastDeliveredSeq : Nat
  throughSeq : Nat
  atMs : TimestampMillis
  deriving DecidableEq

structure CumulativeAck where
  requestStateId : RequestStateId
  ownerLabel : StreamOwnerLabel
  streamGeneration : StreamGeneration
  expectedLastAckedSeq : Option Nat
  throughSeq : Nat
  atMs : TimestampMillis
  deriving DecidableEq

structure TerminalCheckpoint where
  checkpoint : ResponseCheckpoint
  outcome : TerminalOutcome
  deriving DecidableEq

structure AppendBranchMessage where
  chatId : ChatId
  parentId : Option MessageId
  expectedActiveLeafId : Option MessageId
  role : MessageRole
  text : String
  atMs : TimestampMillis
  deriving DecidableEq

structure SelectActivePath where
  chatId : ChatId
  expectedLeafId : Option MessageId
  leafMessageId : MessageId
  atMs : TimestampMillis
  deriving DecidableEq

structure ResponseProgress where
  requestStateId : RequestStateId
  assistantMessageId : MessageId
  lastDeliveredSeq : Nat
  lastDurableSeq : Nat
  lastAckedSeq : Option Nat
  textBytes : Nat
  status : RequestStatus
  updatedAtMs : TimestampMillis
  deriving DecidableEq

structure StreamSequenceProgress where
  requestStateId : RequestStateId
  ownerLabel : StreamOwnerLabel
  streamGeneration : StreamGeneration
  lastDeliveredSeq : Nat
  lastDurableSeq : Nat
  lastAckedSeq : Option Nat
  status : RequestStatus
  updatedAtMs : TimestampMillis
  deriving DecidableEq

structure ActivePathSelection where
  chatId : ChatId
  leafMessageId : MessageId
  pathLength : Nat
  deriving DecidableEq

structure AppendedBranchMessage where
  message : Message
  activePath : ActivePathSelection
  deriving DecidableEq

end Lorepia.Storage
