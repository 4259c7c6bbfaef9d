import Lorepia.Providers.Validate
import Lorepia.ProviderRuntime.Framing
import Lorepia.Tools.Schema

/-!
# Decoding of provider streams (`decode/`, `event.rs`)

Five decoders turn frames into events, each with its own terminal frame. The parser of JSON
text is a parameter; nothing is assumed about it.
-/

namespace Lorepia.ProviderRuntime

open Providers (ProviderId isWhitespace)
open Tools (Value)

/-- `serde_json::from_str`. -/
structure Json where
  fromStr : String → Option Value

/-! ## Events -/

structure TokenUsage where
  inputTokens : Option Nat := none
  outputTokens : Option Nat := none
  reasoningTokens : Option Nat := none
  cachedInputTokens : Option Nat := none
  totalTokens : Option Nat := none
  deriving DecidableEq

def TokenUsage.mergeFrom (usage newer : TokenUsage) : TokenUsage where
  inputTokens := newer.inputTokens.or usage.inputTokens
  outputTokens := newer.outputTokens.or usage.outputTokens
  reasoningTokens := newer.reasoningTokens.or usage.reasoningTokens
  cachedInputTokens := newer.cachedInputTokens.or usage.cachedInputTokens
  totalTokens := newer.totalTokens.or usage.totalTokens

def TokenUsage.isEmpty (usage : TokenUsage) : Bool := decide (usage = {})

inductive CompletionReason where
  | stop
  | length
  | contentFilter
  | refusal
  | resourceLimit
  | other (reason : String)
  deriving DecidableEq

inductive ProviderStreamEvent where
  | providerResponseId (id : String)
  | textDelta (text : String)
  | reasoningDelta (text : String)
  | refusalDelta (text : String)
  | usage (usage : TokenUsage)
  deriving DecidableEq

inductive ProviderRunOutcome where
  | completed (reason : Option CompletionReason) (usage : Option TokenUsage)
  | cancelled
  deriving DecidableEq

structure DecodedFrame where
  events : List ProviderStreamEvent := []
  terminal : Option ProviderRunOutcome := none
  deriving DecidableEq

/-! ## Shared parts -/

def completed (reason : Option CompletionReason) (usage : TokenUsage) : ProviderRunOutcome :=
  .completed reason (if usage.isEmpty then none else some usage)

/-- `provider_error`, which drops the provider's own message. -/
def providerError (code : String) : RuntimeError :=
  if code = "UNEXPECTED_TOOL_EVENT" then
    ⟨.provider, "UNEXPECTED_TOOL_EVENT", "provider emitted a tool event although tools are disabled"⟩
  else if code = "GOOGLE_PROMPT_BLOCKED" then
    ⟨.provider, "GOOGLE_PROMPT_BLOCKED", "provider blocked the request according to its safety policy"⟩
  else ⟨.provider, "PROVIDER_STREAM_ERROR", "provider reported a streaming error"⟩

def unexpectedToolEvent : RuntimeError := providerError "UNEXPECTED_TOOL_EVENT"

def isResponseIdChar (c : Char) : Bool := c.isAlphanum || c = '_' || c = '-' || c = '.'

def responseIdEvent (id : String) : Result ProviderStreamEvent := do
  ensure (id ≠ "" ∧ id.utf8ByteSize ≤ 256 ∧ id.toList.all isResponseIdChar = true)
    (protocolError "INVALID_PROVIDER_RESPONSE_ID"
      "provider response id was missing, oversized, or contained unsafe characters")
  .ok (.providerResponseId id)

def parseJson (J : Json) (data : String) : Result Value :=
  required (protocolError "INVALID_PROVIDER_JSON" "provider stream contained malformed JSON") (J.fromStr data)

/-- `Value::get` of an object. -/
def get (value : Value) (key : String) : Option Value := value.asObject.bind (·.lookup key)

/-- `Value::pointer` through objects; no pointer of the decoders goes into an array. -/
def pointer (value : Value) : List String → Option Value
  | [] => some value
  | key :: rest => (get value key).bind (pointer · rest)

def asBool : Value → Option Bool
  | .bool b => some b
  | _ => none

def getStr (value : Value) (path : List String) : Option String := (pointer value path).bind Value.asStr

def valueU64 (value : Value) (path : List String) : Option Nat := (pointer value path).bind Value.asU64

def mapCommonReason (reason : String) : CompletionReason :=
  let reason := reason.toLower
  if reason ∈ ["stop", "end_turn", "stop_sequence"] then .stop
  else if reason ∈ ["length", "max_tokens", "max_output_tokens"] then .length
  else if reason ∈ ["content_filter", "safety", "recitation", "blocklist", "prohibited_content", "spii",
      "image_safety", "refusal"] then .contentFilter
  else if reason ∈ ["insufficient_system_resource", "resource_limit"] then .resourceLimit
  else .other "other"

def ensureNoTerminal (terminal : Option ProviderRunOutcome) : Result Unit :=
  ensure (terminal = none)
    (protocolError "EVENT_AFTER_TERMINAL" "provider emitted data after a terminal event")

/-- `u64::saturating_add`. -/
def saturatingAdd (a b : Nat) : Nat := min (a + b) (2 ^ 64 - 1)

def totalOf : Option Nat → Option Nat → Option Nat
  | some a, some b => some (saturatingAdd a b)
  | _, _ => none

def deltaOf (event : String → ProviderStreamEvent) (text : Option String) : List ProviderStreamEvent :=
  match text with
  | some text => if text = "" then [] else [event text]
  | none => []

def usageEvents (usage : TokenUsage) : List ProviderStreamEvent :=
  if usage.isEmpty then [] else [.usage usage]

/-! ## OpenAI -/

structure OpenAiDecoder where
  usage : TokenUsage := {}
  terminal : Option ProviderRunOutcome := none
  responseIdSeen : Bool := false
  deriving DecidableEq

namespace OpenAiDecoder

def requiredDelta (value : Value) : Result String :=
  required (protocolError "INVALID_TEXT_DELTA" "OpenAI delta event did not contain text")
    (getStr value ["delta"])

def newerUsage (value : Value) : TokenUsage where
  inputTokens := valueU64 value ["response", "usage", "input_tokens"]
  outputTokens := valueU64 value ["response", "usage", "output_tokens"]
  reasoningTokens := valueU64 value ["response", "usage", "output_tokens_details", "reasoning_tokens"]
  cachedInputTokens := valueU64 value ["response", "usage", "input_tokens_details", "cached_tokens"]
  totalTokens := valueU64 value ["response", "usage", "total_tokens"]

def terminate (d : OpenAiDecoder) (value : Value) (reason : CompletionReason) :
    DecodedFrame × OpenAiDecoder :=
  let usage := d.usage.mergeFrom (newerUsage value)
  let terminal := completed (some reason) usage
  (⟨[], some terminal⟩, { d with usage, terminal := some terminal })

def created (d : OpenAiDecoder) (value : Value) : Result (DecodedFrame × OpenAiDecoder) :=
  match d.responseIdSeen, getStr value ["response", "id"] with
  | false, some id => do
    let event ← responseIdEvent id
    .ok (⟨[event], none⟩, { d with responseIdSeen := true })
  | _, _ => .ok ({}, d)

def delta (d : OpenAiDecoder) (value : Value) (event : String → ProviderStreamEvent) :
    Result (DecodedFrame × OpenAiDecoder) := do
  let text ← requiredDelta value
  .ok (⟨[event text], none⟩, d)

def handle (d : OpenAiDecoder) (value : Value) (eventType : String) :
    Result (DecodedFrame × OpenAiDecoder) :=
  if eventType = "response.created" then d.created value
  else if eventType = "response.output_text.delta" then d.delta value .textDelta
  else if eventType = "response.reasoning_summary_text.delta" then d.delta value .reasoningDelta
  else if eventType = "response.refusal.delta" then d.delta value .refusalDelta
  else if eventType = "response.completed" then .ok (d.terminate value .stop)
  else if eventType = "response.incomplete" then
    .ok (d.terminate value
      (((getStr value ["response", "incomplete_details", "reason"]).map mapCommonReason).getD .length))
  else if eventType = "response.failed" then
    .error (providerError ((getStr value ["response", "error", "code"]).getD "OPENAI_RESPONSE_FAILED"))
  else if eventType = "error" then
    .error (providerError ((getStr value ["code"]).getD "OPENAI_STREAM_ERROR"))
  else .ok ({}, d)

def decode (J : Json) (d : OpenAiDecoder) (frame : SseFrame) : Result (DecodedFrame × OpenAiDecoder) := do
  ensureNoTerminal d.terminal
  let value ← parseJson J frame.data
  let eventType ← required (protocolError "MISSING_EVENT_TYPE" "OpenAI event did not contain type")
    (getStr value ["type"])
  ensure (∀ name ∈ frame.event, name = "message" ∨ name = eventType)
    (protocolError "EVENT_TYPE_MISMATCH" "OpenAI SSE event name did not match its JSON type")
  ensure (¬ "_call".toList <:+: eventType.toList) unexpectedToolEvent
  d.handle value eventType

end OpenAiDecoder

/-! ## Anthropic -/

structure AnthropicDecoder where
  usage : TokenUsage := {}
  terminal : Option ProviderRunOutcome := none
  finishReason : Option String := none
  responseIdSeen : Bool := false
  deriving DecidableEq

namespace AnthropicDecoder

def startUsage (value : Value) : TokenUsage :=
  let input := valueU64 value ["message", "usage", "input_tokens"]
  let output := valueU64 value ["message", "usage", "output_tokens"]
  { inputTokens := input
    outputTokens := output
    cachedInputTokens := valueU64 value ["message", "usage", "cache_read_input_tokens"]
    totalTokens := totalOf input output }

def messageStart (d : AnthropicDecoder) (value : Value) : Result (DecodedFrame × AnthropicDecoder) :=
  let usage := d.usage.mergeFrom (startUsage value)
  match d.responseIdSeen, getStr value ["message", "id"] with
  | false, some id => do
    let event ← responseIdEvent id
    .ok (⟨[event], none⟩, { d with usage, responseIdSeen := true })
  | _, _ => .ok ({}, { d with usage })

def contentBlockStart (d : AnthropicDecoder) (value : Value) :
    Result (DecodedFrame × AnthropicDecoder) := do
  let kind ← required (protocolError "INVALID_CONTENT_BLOCK"
    "Anthropic content block did not contain a type") (getStr value ["content_block", "type"])
  ensure (kind ∈ ["text", "thinking", "redacted_thinking"]) unexpectedToolEvent
  .ok ({}, d)

def missingDeltaText : RuntimeError :=
  protocolError "INVALID_CONTENT_DELTA" "Anthropic content delta was missing text"

def delta (d : AnthropicDecoder) (value : Value) (field : String)
    (event : String → ProviderStreamEvent) : Result (DecodedFrame × AnthropicDecoder) := do
  let text ← required missingDeltaText (getStr value ["delta", field])
  .ok (⟨[event text], none⟩, d)

def contentBlockDelta (d : AnthropicDecoder) (value : Value) : Result (DecodedFrame × AnthropicDecoder) :=
  match getStr value ["delta", "type"] with
  | none => .error (protocolError "INVALID_CONTENT_DELTA"
      "Anthropic content delta did not contain a delta type")
  | some kind =>
    if kind = "text_delta" then d.delta value "text" .textDelta
    else if kind = "thinking_delta" then d.delta value "thinking" .reasoningDelta
    else if kind = "input_json_delta" then .error unexpectedToolEvent
    else .ok ({}, d)

def messageDelta (d : AnthropicDecoder) (value : Value) : DecodedFrame × AnthropicDecoder :=
  ({}, { d with
    finishReason := (getStr value ["delta", "stop_reason"]).or d.finishReason
    usage := d.usage.mergeFrom { outputTokens := valueU64 value ["usage", "output_tokens"] } })

def messageStop (d : AnthropicDecoder) : DecodedFrame × AnthropicDecoder :=
  let terminal := completed (d.finishReason.map mapCommonReason) d.usage
  (⟨[], some terminal⟩, { d with terminal := some terminal })

def handle (d : AnthropicDecoder) (value : Value) (eventType : String) :
    Result (DecodedFrame × AnthropicDecoder) :=
  if eventType = "message_start" then d.messageStart value
  else if eventType = "content_block_start" then d.contentBlockStart value
  else if eventType = "content_block_delta" then d.contentBlockDelta value
  else if eventType = "message_delta" then .ok (d.messageDelta value)
  else if eventType = "message_stop" then .ok d.messageStop
  else if eventType = "error" then
    .error (providerError ((getStr value ["error", "type"]).getD "ANTHROPIC_STREAM_ERROR"))
  else .ok ({}, d)

def decode (J : Json) (d : AnthropicDecoder) (frame : SseFrame) :
    Result (DecodedFrame × AnthropicDecoder) := do
  ensureNoTerminal d.terminal
  let value ← parseJson J frame.data
  let eventType ← required (protocolError "MISSING_EVENT_TYPE" "Anthropic event did not contain type")
    (getStr value ["type"])
  ensure (∀ name ∈ frame.event, name = eventType)
    (protocolError "EVENT_TYPE_MISMATCH" "Anthropic SSE event name did not match its JSON type")
  d.handle value eventType

end AnthropicDecoder

def pinResponseId (message : String) (current given : Option String) :
    Result (List ProviderStreamEvent × Option String) :=
  match given, current with
  | none, _ => .ok ([], current)
  | some id, some pinned => do
    ensure (pinned = id) (protocolError "RESPONSE_ID_CHANGED" message)
    .ok ([], current)
  | some id, none => do
    let event ← responseIdEvent id
    .ok ([event], some id)

/-! ## DeepSeek -/

structure DeepSeekDecoder where
  usage : TokenUsage := {}
  terminal : Option ProviderRunOutcome := none
  finishReason : Option String := none
  responseId : Option String := none
  deriving DecidableEq

/-- `str::trim`. -/
def trim (text : String) : String :=
  String.ofList ((text.toList.dropWhile isWhitespace).reverse.dropWhile isWhitespace).reverse

def hasToolCalls (value : Value) : Bool :=
  ((get value "tool_calls").bind Value.asArray).any fun calls => !calls.isEmpty

namespace DeepSeekDecoder

def newerUsage (value : Value) : TokenUsage where
  inputTokens := valueU64 value ["usage", "prompt_tokens"]
  outputTokens := valueU64 value ["usage", "completion_tokens"]
  reasoningTokens := valueU64 value ["usage", "completion_tokens_details", "reasoning_tokens"]
  cachedInputTokens := valueU64 value ["usage", "prompt_cache_hit_tokens"]
  totalTokens := valueU64 value ["usage", "total_tokens"]

def choice (value : Value) : Result (List ProviderStreamEvent × Option String) := do
  ensure (valueU64 value ["index"] = some 0)
    (protocolError "INVALID_CHOICE_INDEX" "DeepSeek streamed a nonzero choice index")
  let delta ← required (protocolError "INVALID_CHAT_CHUNK" "DeepSeek choice did not contain delta")
    (get value "delta")
  ensure (hasToolCalls delta = false) unexpectedToolEvent
  ensure (getStr value ["finish_reason"] ≠ some "tool_calls") unexpectedToolEvent
  .ok (deltaOf .reasoningDelta (getStr delta ["reasoning_content"]) ++
    deltaOf .textDelta (getStr delta ["content"]), getStr value ["finish_reason"])

def firstChoice : List Value → Result (List ProviderStreamEvent × Option String)
  | [] => .ok ([], none)
  | value :: _ => choice value

def done (d : DeepSeekDecoder) : DecodedFrame × DeepSeekDecoder :=
  let terminal := completed (d.finishReason.map mapCommonReason) d.usage
  (⟨[], some terminal⟩, { d with terminal := some terminal })

def chunk (d : DeepSeekDecoder) (value : Value) : Result (DecodedFrame × DeepSeekDecoder) := do
  let (idEvents, responseId) ← pinResponseId "DeepSeek response id changed during a stream"
    d.responseId (getStr value ["id"])
  let usage := d.usage.mergeFrom (newerUsage value)
  let choices ← required (protocolError "INVALID_CHAT_CHUNK" "DeepSeek chunk did not contain choices")
    ((get value "choices").bind Value.asArray)
  ensure (choices.length ≤ 1)
    (protocolError "MULTIPLE_CHOICES" "LorePia accepts exactly one streamed completion choice")
  let (events, reason) ← firstChoice choices
  .ok (⟨idEvents ++ events ++ usageEvents usage, none⟩,
    { d with usage, responseId, finishReason := reason.or d.finishReason })

def decode (J : Json) (d : DeepSeekDecoder) (frame : SseFrame) :
    Result (DecodedFrame × DeepSeekDecoder) := do
  ensureNoTerminal d.terminal
  if trim frame.data = "[DONE]" then .ok d.done
  else do
    let value ← parseJson J frame.data
    match get value "error" with
    | some error => .error (providerError ((getStr error ["code"]).getD "DEEPSEEK_STREAM_ERROR"))
    | none => d.chunk value

end DeepSeekDecoder

/-! ## Google -/

structure GoogleDecoder where
  usage : TokenUsage := {}
  terminal : Option ProviderRunOutcome := none
  responseId : Option String := none
  deriving DecidableEq

namespace GoogleDecoder

def newerUsage (value : Value) : TokenUsage where
  inputTokens := valueU64 value ["usageMetadata", "promptTokenCount"]
  outputTokens := valueU64 value ["usageMetadata", "candidatesTokenCount"]
  reasoningTokens := valueU64 value ["usageMetadata", "thoughtsTokenCount"]
  cachedInputTokens := valueU64 value ["usageMetadata", "cachedContentTokenCount"]
  totalTokens := valueU64 value ["usageMetadata", "totalTokenCount"]

def partEvents (part : Value) : List ProviderStreamEvent :=
  let thought := decide ((get part "thought").bind asBool = some true)
  deltaOf (if thought then .reasoningDelta else .textDelta) (getStr part ["text"])

def candidateParts : List Value → Result (List ProviderStreamEvent)
  | [] => .ok []
  | part :: rest => do
    ensure (get part "functionCall" = none ∧ get part "toolCall" = none ∧ get part "executableCode" = none)
      unexpectedToolEvent
    let events ← candidateParts rest
    .ok (partEvents part ++ events)

def candidate (value : Value) : Result (List ProviderStreamEvent × Option String) := do
  ensure ((valueU64 value ["index"]).getD 0 = 0)
    (protocolError "INVALID_CANDIDATE_INDEX" "Google streamed a nonzero candidate index")
  let events ← candidateParts (((pointer value ["content", "parts"]).bind Value.asArray).getD [])
  ensure (∀ reason ∈ getStr value ["finishReason"],
      reason ∉ ["UNEXPECTED_TOOL_CALL", "TOO_MANY_TOOL_CALLS", "MALFORMED_FUNCTION_CALL"])
    unexpectedToolEvent
  .ok (events, getStr value ["finishReason"])

def firstCandidate : List Value → Result (List ProviderStreamEvent × Option String)
  | [] => .ok ([], none)
  | value :: _ => candidate value

def candidates (value : Value) : List Value := ((get value "candidates").bind Value.asArray).getD []

def chunk (d : GoogleDecoder) (value : Value) : Result (DecodedFrame × GoogleDecoder) := do
  let (idEvents, responseId) ← pinResponseId "Google response id changed during a stream"
    d.responseId (getStr value ["responseId"])
  let usage := d.usage.mergeFrom (newerUsage value)
  ensure ((candidates value).length ≤ 1)
    (protocolError "MULTIPLE_CANDIDATES" "LorePia accepts exactly one streamed candidate")
  let (events, reason) ← firstCandidate (candidates value)
  let terminal := reason.map fun reason => completed (some (mapCommonReason reason)) usage
  .ok (⟨idEvents ++ events ++ usageEvents usage, terminal⟩, { d with usage, responseId, terminal })

def decode (J : Json) (d : GoogleDecoder) (frame : SseFrame) : Result (DecodedFrame × GoogleDecoder) := do
  ensureNoTerminal d.terminal
  let value ← parseJson J frame.data
  match get value "error" with
  | some error => .error (providerError ((getStr error ["status"]).getD "GOOGLE_STREAM_ERROR"))
  | none => do
    ensure (getStr value ["promptFeedback", "blockReason"] = none) (providerError "GOOGLE_PROMPT_BLOCKED")
    d.chunk value

end GoogleDecoder

/-! ## Ollama -/

structure OllamaDecoder where
  usage : TokenUsage := {}
  terminal : Option ProviderRunOutcome := none
  deriving DecidableEq

namespace OllamaDecoder

def messageEvents : Option Value → Result (List ProviderStreamEvent)
  | none => .ok []
  | some message => do
    ensure (hasToolCalls message = false) unexpectedToolEvent
    .ok (deltaOf .reasoningDelta (getStr message ["thinking"]) ++
      deltaOf .textDelta (getStr message ["content"]))

def doneUsage (value : Value) : TokenUsage :=
  let input := valueU64 value ["prompt_eval_count"]
  let output := valueU64 value ["eval_count"]
  { inputTokens := input, outputTokens := output, totalTokens := totalOf input output }

def isDone (value : Value) : Option Bool := (get value "done").bind asBool

def chunk (d : OllamaDecoder) (value : Value) : Result (DecodedFrame × OllamaDecoder) := do
  let events ← messageEvents (get value "message")
  match isDone value with
  | some true =>
    let usage := d.usage.mergeFrom (doneUsage value)
    let terminal := completed ((getStr value ["done_reason"]).map mapCommonReason) usage
    .ok (⟨events ++ usageEvents usage, some terminal⟩, { usage, terminal := some terminal })
  | some false => .ok (⟨events, none⟩, d)
  | none => .error (protocolError "INVALID_OLLAMA_CHUNK" "Ollama chunk did not contain a boolean done field")

def decode (J : Json) (d : OllamaDecoder) (frame : String) : Result (DecodedFrame × OllamaDecoder) := do
  ensureNoTerminal d.terminal
  let value ← parseJson J frame
  ensure (getStr value ["error"] = none) (providerError "OLLAMA_STREAM_ERROR")
  d.chunk value

end OllamaDecoder

/-! ## The decoder of a provider -/

inductive ProviderDecoder where
  | openAi (d : OpenAiDecoder)
  | anthropic (d : AnthropicDecoder)
  | deepSeek (d : DeepSeekDecoder)
  | ollama (d : OllamaDecoder)
  | google (d : GoogleDecoder)
  deriving DecidableEq

namespace ProviderDecoder

def new : ProviderId → ProviderDecoder
  | .openAi => .openAi {}
  | .anthropic => .anthropic {}
  | .deepSeek => .deepSeek {}
  | .ollamaCloud => .ollama {}
  | .googleGemini | .googleVertexAi => .google {}

def terminal : ProviderDecoder → Option ProviderRunOutcome
  | openAi d => d.terminal
  | anthropic d => d.terminal
  | deepSeek d => d.terminal
  | ollama d => d.terminal
  | google d => d.terminal

def step {δ : Type} (wrap : δ → ProviderDecoder) (result : Result (DecodedFrame × δ)) :
    Result (DecodedFrame × ProviderDecoder) := do
  let (decoded, d) ← result
  .ok (decoded, wrap d)

def decodeSse (J : Json) (decoder : ProviderDecoder) (frame : SseFrame) :
    Result (DecodedFrame × ProviderDecoder) :=
  match decoder with
  | openAi d => step openAi (d.decode J frame)
  | anthropic d => step anthropic (d.decode J frame)
  | deepSeek d => step deepSeek (d.decode J frame)
  | google d => step google (d.decode J frame)
  | ollama _ =>
    .error (protocolError "WRONG_STREAM_PROTOCOL" "Ollama Cloud responses must use NDJSON")

def decodeNdjson (J : Json) (decoder : ProviderDecoder) (frame : String) :
    Result (DecodedFrame × ProviderDecoder) :=
  match decoder with
  | ollama d => step ollama (d.decode J frame)
  | _ => .error (protocolError "WRONG_STREAM_PROTOCOL" "this provider response must use SSE")

def missingTerminal : ProviderDecoder → RuntimeError
  | openAi _ =>
    protocolError "MISSING_TERMINAL_EVENT" "OpenAI stream ended without a terminal response event"
  | anthropic _ => protocolError "MISSING_TERMINAL_EVENT" "Anthropic stream ended without message_stop"
  | deepSeek _ => protocolError "MISSING_DONE_MARKER" "DeepSeek stream ended without [DONE]"
  | ollama _ => protocolError "MISSING_TERMINAL_EVENT" "Ollama stream ended without done=true"
  | google _ =>
    protocolError "MISSING_TERMINAL_EVENT" "Google stream ended without candidate finishReason"

def finish (decoder : ProviderDecoder) : Result ProviderRunOutcome :=
  required decoder.missingTerminal decoder.terminal

end ProviderDecoder

end Lorepia.ProviderRuntime
