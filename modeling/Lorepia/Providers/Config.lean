import Lorepia.Lib.Tx
import Lorepia.Tools.Json

/-!
# Provider requests (`config.rs`, `capabilities.rs`, `error.rs`)

The request a chat turn hands to the providers crate: messages, generation options, options
of the one provider that is asked, and additional parameters that go into the body as they
are. An option that is an `f64` may be any float, so `Float64` has the two infinities and
NaN beside the finite ones.
-/

namespace Lorepia.Providers

open Tools (Value Number Double)

inductive ProviderId where
  | openAi
  | anthropic
  | deepSeek
  | ollamaCloud
  | googleGemini
  | googleVertexAi
  deriving DecidableEq

inductive MessageRole where
  | system
  | user
  | assistant
  deriving DecidableEq

structure ChatMessage where
  role : MessageRole
  content : String
  deriving DecidableEq

inductive RolePolicy where
  | preserve
  | mergeConsecutive
  deriving DecidableEq

inductive ResponseFormat where
  | text
  | jsonObject
  | jsonSchema (schema : Value)

/-- An `f64`. -/
inductive Float64 where
  | finite (d : Double)
  | infinite (negative : Bool)
  | nan
  deriving DecidableEq

def Float64.isFinite : Float64 → Bool
  | finite _ => true
  | _ => false

/-- The range check `(min..=max).contains(&value)` for whole bounds. -/
def Float64.within (value : Float64) (min max : Int) : Bool :=
  match value with
  | finite d => decide (min * 2 ^ 1074 ≤ d.units ∧ d.units ≤ max * 2 ^ 1074)
  | _ => false

structure GenerationOptions where
  temperature : Option Float64 := none
  maxOutputTokens : Option UInt32 := none
  topP : Option Float64 := none
  topK : Option UInt32 := none
  presencePenalty : Option Float64 := none
  frequencyPenalty : Option Float64 := none
  stopSequences : List String := []
  seed : Option Int64 := none
  responseFormat : ResponseFormat := .text
  rolePolicy : RolePolicy := .preserve

/-! ## OpenAI -/

inductive OpenAiReasoningEffort where
  | none | minimal | low | medium | high | xhigh | max
  deriving DecidableEq

def OpenAiReasoningEffort.asStr : OpenAiReasoningEffort → String
  | none => "none"
  | minimal => "minimal"
  | low => "low"
  | medium => "medium"
  | high => "high"
  | xhigh => "xhigh"
  | max => "max"

inductive OpenAiReasoningSummary where
  | auto | concise | detailed
  deriving DecidableEq

def OpenAiReasoningSummary.asStr : OpenAiReasoningSummary → String
  | auto => "auto"
  | concise => "concise"
  | detailed => "detailed"

inductive OpenAiServiceTier where
  | auto | default | flex | scale | priority
  deriving DecidableEq

def OpenAiServiceTier.asStr : OpenAiServiceTier → String
  | auto => "auto"
  | default => "default"
  | flex => "flex"
  | scale => "scale"
  | priority => "priority"

inductive OpenAiPromptCacheRetention where
  | inMemory | twentyFourHours
  deriving DecidableEq

def OpenAiPromptCacheRetention.asStr : OpenAiPromptCacheRetention → String
  | inMemory => "in-memory"
  | twentyFourHours => "24h"

structure OpenAiPromptCache where
  key : String
  retention : OpenAiPromptCacheRetention
  deriving DecidableEq

structure OpenAiReasoning where
  effort : OpenAiReasoningEffort
  summary : Option OpenAiReasoningSummary
  deriving DecidableEq

structure OpenAiOptions where
  reasoning : Option OpenAiReasoning := none
  promptCache : Option OpenAiPromptCache := none
  serviceTier : Option OpenAiServiceTier := none
  deriving DecidableEq

/-! ## Anthropic -/

inductive AnthropicThinkingDisplay where
  | summarized | omitted
  deriving DecidableEq

def AnthropicThinkingDisplay.asStr : AnthropicThinkingDisplay → String
  | summarized => "summarized"
  | omitted => "omitted"

inductive AnthropicThinking where
  | disabled
  | adaptive (display : AnthropicThinkingDisplay)
  | enabled (budgetTokens : UInt32) (display : AnthropicThinkingDisplay)
  deriving DecidableEq

inductive AnthropicReasoningEffort where
  | low | medium | high | xhigh | max
  deriving DecidableEq

def AnthropicReasoningEffort.asStr : AnthropicReasoningEffort → String
  | low => "low"
  | medium => "medium"
  | high => "high"
  | xhigh => "xhigh"
  | max => "max"

inductive AnthropicCacheTtl where
  | fiveMinutes | oneHour
  deriving DecidableEq

def AnthropicCacheTtl.asStr : AnthropicCacheTtl → String
  | fiveMinutes => "5m"
  | oneHour => "1h"

inductive AnthropicServiceTier where
  | auto | standardOnly
  deriving DecidableEq

def AnthropicServiceTier.asStr : AnthropicServiceTier → String
  | auto => "auto"
  | standardOnly => "standard_only"

structure AnthropicOptions where
  thinking : Option AnthropicThinking := none
  reasoningEffort : Option AnthropicReasoningEffort := none
  cacheTtl : Option AnthropicCacheTtl := none
  serviceTier : Option AnthropicServiceTier := none
  deriving DecidableEq

/-! ## DeepSeek and Ollama -/

inductive DeepSeekReasoningEffort where
  | high | max
  deriving DecidableEq

def DeepSeekReasoningEffort.asStr : DeepSeekReasoningEffort → String
  | high => "high"
  | max => "max"

structure DeepSeekOptions where
  thinkingEnabled : Option Bool := none
  reasoningEffort : Option DeepSeekReasoningEffort := none
  deriving DecidableEq

inductive OllamaThinking where
  | disabled | enabled | low | medium | high | max
  deriving DecidableEq

structure OllamaCloudOptions where
  thinking : Option OllamaThinking := none
  deriving DecidableEq

/-! ## Google -/

inductive GoogleThinkingLevel where
  | minimal | low | medium | high
  deriving DecidableEq

def GoogleThinkingLevel.asStr : GoogleThinkingLevel → String
  | minimal => "MINIMAL"
  | low => "LOW"
  | medium => "MEDIUM"
  | high => "HIGH"

structure GoogleThinking where
  level : Option GoogleThinkingLevel := none
  budgetTokens : Option Int32 := none
  includeThoughts : Bool := false
  deriving DecidableEq

inductive GoogleSafetyCategory where
  | hateSpeech | dangerousContent | harassment | sexuallyExplicit | civicIntegrity | jailbreak
  deriving DecidableEq

def GoogleSafetyCategory.asStr : GoogleSafetyCategory → String
  | hateSpeech => "HARM_CATEGORY_HATE_SPEECH"
  | dangerousContent => "HARM_CATEGORY_DANGEROUS_CONTENT"
  | harassment => "HARM_CATEGORY_HARASSMENT"
  | sexuallyExplicit => "HARM_CATEGORY_SEXUALLY_EXPLICIT"
  | civicIntegrity => "HARM_CATEGORY_CIVIC_INTEGRITY"
  | jailbreak => "HARM_CATEGORY_JAILBREAK"

inductive GoogleSafetyThreshold where
  | blockLowAndAbove | blockMediumAndAbove | blockOnlyHigh | blockNone | off
  deriving DecidableEq

def GoogleSafetyThreshold.asStr : GoogleSafetyThreshold → String
  | blockLowAndAbove => "BLOCK_LOW_AND_ABOVE"
  | blockMediumAndAbove => "BLOCK_MEDIUM_AND_ABOVE"
  | blockOnlyHigh => "BLOCK_ONLY_HIGH"
  | blockNone => "BLOCK_NONE"
  | off => "OFF"

inductive GoogleSafetyMethod where
  | severity | probability
  deriving DecidableEq

def GoogleSafetyMethod.asStr : GoogleSafetyMethod → String
  | severity => "SEVERITY"
  | probability => "PROBABILITY"

structure GoogleSafetySetting where
  category : GoogleSafetyCategory
  threshold : GoogleSafetyThreshold
  method : Option GoogleSafetyMethod
  deriving DecidableEq

inductive GoogleServiceTier where
  | standard | flex | priority
  deriving DecidableEq

def GoogleServiceTier.asStr : GoogleServiceTier → String
  | standard => "standard"
  | flex => "flex"
  | priority => "priority"

structure GoogleOptions where
  thinking : Option GoogleThinking := none
  cachedContent : Option String := none
  safetySettings : List GoogleSafetySetting := []
  serviceTier : Option GoogleServiceTier := none
  deriving DecidableEq

inductive VertexRequestType where
  | automatic | shared | dedicated
  deriving DecidableEq

structure VertexAiOptions where
  projectId : String
  location : String
  thinking : Option GoogleThinking := none
  cachedContent : Option String := none
  safetySettings : List GoogleSafetySetting := []
  requestType : VertexRequestType := .automatic
  deriving DecidableEq

/-! ## Requests -/

inductive ProviderOptions where
  | openAi (options : OpenAiOptions)
  | anthropic (options : AnthropicOptions)
  | deepSeek (options : DeepSeekOptions)
  | ollamaCloud (options : OllamaCloudOptions)
  | googleGemini (options : GoogleOptions)
  | googleVertexAi (options : VertexAiOptions)
  deriving DecidableEq

def ProviderOptions.providerId : ProviderOptions → ProviderId
  | openAi _ => .openAi
  | anthropic _ => .anthropic
  | deepSeek _ => .deepSeek
  | ollamaCloud _ => .ollamaCloud
  | googleGemini _ => .googleGemini
  | googleVertexAi _ => .googleVertexAi

structure TokenizerOverride where
  tokenizerId : String
  deriving DecidableEq

/-- The additional parameters are the entries of a map in the order of its keys. -/
structure ProviderRequest where
  provider : ProviderId
  modelId : String
  messages : List ChatMessage
  generation : GenerationOptions := {}
  providerOptions : ProviderOptions
  tokenizerOverride : Option TokenizerOverride := none
  additionalParameters : List (String × Value) := []

/-! ## Capabilities -/

inductive Capability where
  | temperature | maxOutputTokens | topP | topK | presencePenalty | frequencyPenalty
  | stopSequences | seed | reasoning | includeThoughts | jsonResponse | contextCaching
  | safetySettings | serviceTier | throughputRequestType | projectAndLocation
  | roleAlternation | tokenizerOverride | additionalParameters | mcpTools | endpointOverride
  deriving DecidableEq

inductive CapabilitySupport where
  | native | compatibilityOnly | automatic | localTransform | estimationOnly | restricted
  | separateSecurityBoundary | forbidden | unsupported
  deriving DecidableEq

def capabilitySupport (provider : ProviderId) (capability : Capability) : CapabilitySupport :=
  match capability with
  | .temperature | .topP =>
    match provider with
    | .anthropic => .compatibilityOnly
    | .openAi | .deepSeek | .ollamaCloud | .googleGemini | .googleVertexAi => .native
  | .maxOutputTokens => .native
  | .topK =>
    match provider with
    | .anthropic => .compatibilityOnly
    | .ollamaCloud | .googleGemini | .googleVertexAi => .native
    | .openAi | .deepSeek => .unsupported
  | .presencePenalty | .frequencyPenalty =>
    match provider with
    | .googleGemini | .googleVertexAi => .native
    | .openAi | .anthropic | .deepSeek | .ollamaCloud => .unsupported
  | .stopSequences =>
    match provider with
    | .anthropic | .deepSeek | .ollamaCloud | .googleGemini | .googleVertexAi => .native
    | .openAi => .unsupported
  | .seed =>
    match provider with
    | .ollamaCloud | .googleGemini | .googleVertexAi => .native
    | .openAi | .anthropic | .deepSeek => .unsupported
  | .reasoning => .native
  | .includeThoughts =>
    match provider with
    | .anthropic | .googleGemini | .googleVertexAi => .native
    | .deepSeek | .ollamaCloud => .automatic
    | .openAi => .unsupported
  | .jsonResponse =>
    match provider with
    | .openAi | .anthropic | .deepSeek | .googleGemini | .googleVertexAi => .native
    | .ollamaCloud => .unsupported
  | .contextCaching =>
    match provider with
    | .openAi | .anthropic | .googleGemini | .googleVertexAi => .native
    | .deepSeek => .automatic
    | .ollamaCloud => .unsupported
  | .safetySettings =>
    match provider with
    | .googleGemini | .googleVertexAi => .native
    | .openAi | .anthropic | .deepSeek | .ollamaCloud => .unsupported
  | .serviceTier =>
    match provider with
    | .openAi | .anthropic | .googleGemini => .native
    | .deepSeek | .ollamaCloud | .googleVertexAi => .unsupported
  | .throughputRequestType | .projectAndLocation =>
    match provider with
    | .googleVertexAi => .native
    | .openAi | .anthropic | .deepSeek | .ollamaCloud | .googleGemini => .unsupported
  | .roleAlternation => .localTransform
  | .tokenizerOverride => .estimationOnly
  | .additionalParameters => .restricted
  | .mcpTools => .separateSecurityBoundary
  | .endpointOverride => .forbidden

/-! ## Errors -/

/-- The bounds of `outOfRange` are whole numbers wherever the crate raises it. -/
inductive ProviderConfigError where
  | providerOptionsMismatch (requestProvider optionsProvider : ProviderId)
  | missingField (field : String)
  | emptyField (field : String)
  | fieldTooLong (field : String) (maxBytes : Nat)
  | invalidField (field reason : String)
  | outOfRange (field : String) (min max : Int)
  | unsupportedOption (provider : ProviderId) (capability : Capability)
  | tooManyItems (field : String) (max : Nat)
  | payloadTooLarge (field : String) (maxBytes : Nat)
  | unsafeExtraParameter (key : String)
  | extraParameterCollision (key : String)
  | extraParameterTooDeep (key : String) (maxDepth : Nat)
  | missingConversation
  deriving DecidableEq

abbrev Result := Except ProviderConfigError

end Lorepia.Providers
