import Lorepia.Providers.Config

/-!
# Validating a request (`compile.rs`:134–668, 1283–1385)

Every check the crate makes before it compiles a request, in the order it makes them.
-/

namespace Lorepia.Providers

open Tools (Value FloatText toVec)

def maxModelIdBytes : Nat := 256
def maxMessageCount : Nat := 10000
def maxMessageBytes : Nat := 4 * 1024 * 1024
def maxStopSequenceBytes : Nat := 256
def maxAdditionalParameters : Nat := 16
def maxAdditionalParametersBytes : Nat := 8 * 1024
def maxAdditionalParameterDepth : Nat := 4
def maxJsonSchemaBytes : Nat := 16 * 1024
def maxJsonSchemaDepth : Nat := 16
def maxTokenizerIdBytes : Nat := 128
def maxCacheResourceBytes : Nat := 512

/-! ## Texts -/

/-- `char::is_whitespace`. -/
def isWhitespace (c : Char) : Bool :=
  (0x09 ≤ c.val && c.val ≤ 0x0d) || c.val = 0x20 || c.val = 0x85 || c.val = 0xa0 || c.val = 0x1680 ||
    (0x2000 ≤ c.val && c.val ≤ 0x200a) || c.val = 0x2028 || c.val = 0x2029 || c.val = 0x202f ||
    c.val = 0x205f || c.val = 0x3000

/-- `trim().is_empty()`. -/
def isBlank (text : String) : Bool := text.toList.all isWhitespace

/-- `char::is_control`. -/
def isControl (c : Char) : Bool := c.val ≤ 0x1f || (0x7f ≤ c.val && c.val ≤ 0x9f)

def validateTextField (field value : String) (maxBytes : Nat) : Result Unit := do
  ensure (isBlank value = false) (.emptyField field)
  ensure (value.utf8ByteSize ≤ maxBytes) (.fieldTooLong field maxBytes)
  ensure (value.toList.any isControl = false) (.invalidField field "control characters are not allowed")

def isSafePathChar (lowercaseOnly : Bool) (c : Char) : Bool :=
  (if lowercaseOnly then c.isLower || c.isDigit else c.isAlphanum) || c = '-' || c = '_' || c = '.'

def validatePathSegment (field value : String) (lowercaseOnly : Bool) : Result Unit := do
  validateTextField field value maxModelIdBytes
  ensure (value.toList.all (isSafePathChar lowercaseOnly) = true ∧ value ≠ "." ∧ value ≠ "..")
    (.invalidField field "must be a single safe URL path segment")

/-- The segments of a text between slashes (`split('/')`). -/
def segments (value : String) : List String :=
  (value.toList.splitOn '/').map String.ofList

def validateCacheResource (field value : String) : Result Unit := do
  validateTextField field value maxCacheResourceBytes
  let chars := value.toList
  ensure (chars.head? ≠ some '/' ∧ ¬ ['/', '/'] <:+: chars ∧ '?' ∉ chars ∧ '#' ∉ chars ∧
      ".." ∉ segments value)
    (.invalidField field "cache resource must be a relative provider resource name")

def invalidNumber (field : String) : ProviderConfigError :=
  .invalidField field "must be a finite number"

def validateFloatRange (field : String) (value : Float64) (min max : Int) : Result Unit := do
  ensure (value.isFinite = true) (invalidNumber field)
  ensure (value.within min max = true) (.outOfRange field min max)

def requireCapability (provider : ProviderId) (capability : Capability) : Result Unit :=
  match capabilitySupport provider capability with
  | .native | .compatibilityOnly | .localTransform | .estimationOnly | .restricted => .ok ()
  | .automatic | .separateSecurityBoundary | .forbidden | .unsupported =>
    .error (.unsupportedOption provider capability)

mutual

def valueDepth : Value → Nat
  | .array items => 1 + itemsDepth items
  | .object entries => 1 + entriesDepth entries
  | _ => 0

def itemsDepth : List Value → Nat
  | [] => 0
  | item :: rest => max (valueDepth item) (itemsDepth rest)

def entriesDepth : List (String × Value) → Nat
  | [] => 0
  | (_, item) :: rest => max (valueDepth item) (entriesDepth rest)

end

/-! ## Messages -/

/-- What `validate_messages` has seen. -/
structure MessageScan where
  totalBytes : Nat
  conversationStarted : Bool

/-- The loop of `validate_messages`. The source's `has_conversation` is the same flag. -/
def scanMessages : List ChatMessage → MessageScan → Result MessageScan
  | [], scan => .ok scan
  | message :: rest, scan => do
    ensure (isBlank message.content = false) (.emptyField "message.content")
    ensure ('\x00' ∉ message.content.toList)
      (.invalidField "message.content" "NUL characters are not allowed")
    ensure (¬ (message.role = .system ∧ scan.conversationStarted = true))
      (.invalidField "messages.role" "system messages must precede the conversation")
    scanMessages rest
      ⟨scan.totalBytes + message.content.utf8ByteSize,
        scan.conversationStarted || decide (message.role ≠ .system)⟩

def validateMessages (messages : List ChatMessage) : Result Unit := do
  ensure (messages.length ≤ maxMessageCount) (.tooManyItems "messages" maxMessageCount)
  let scan ← scanMessages messages ⟨0, false⟩
  ensure (scan.totalBytes ≤ maxMessageBytes) (.payloadTooLarge "messages" maxMessageBytes)
  ensure (scan.conversationStarted = true) .missingConversation

/-! ## Generation options -/

def isObject : Value → Bool
  | .object _ => true
  | _ => false

/-- The bound on the temperature, which is `1.0`, `10.0` or `2.0`. -/
def maxTemperature : ProviderId → Int
  | .anthropic => 1
  | .ollamaCloud => 10
  | .openAi | .deepSeek | .googleGemini | .googleVertexAi => 2

/-- The bound on stop sequences. OpenAI has none, since it does not have the capability. -/
def maxStopSequences : ProviderId → Nat
  | .googleGemini => 5
  | .deepSeek => 16
  | .anthropic | .ollamaCloud | .googleVertexAi => 16
  | .openAi => 0

def validateEach {α : Type} (check : α → Result Unit) : List α → Result Unit
  | [] => .ok ()
  | a :: rest => do
    check a
    validateEach check rest

section
variable [FloatText]

def validateJsonSchema (schema : Value) : Result Unit := do
  ensure (isObject schema = true)
    (.invalidField "responseFormat.schema" "schema must be a JSON object")
  ensure ((toVec schema).length ≤ maxJsonSchemaBytes)
    (.payloadTooLarge "responseFormat.schema" maxJsonSchemaBytes)
  ensure (valueDepth schema ≤ maxJsonSchemaDepth)
    (.invalidField "responseFormat.schema" "schema nesting exceeds the local safety limit")

def validateResponseFormat (provider : ProviderId) : ResponseFormat → Result Unit
  | .text => .ok ()
  | .jsonObject => do
    requireCapability provider .jsonResponse
    ensure (provider ≠ .anthropic)
      (.invalidField "responseFormat" "Anthropic structured output requires a JSON schema")
  | .jsonSchema schema => do
    requireCapability provider .jsonResponse
    ensure (provider ≠ .deepSeek)
      (.invalidField "responseFormat" "DeepSeek supports json_object but not json_schema")
    validateJsonSchema schema

def validateGeneration (provider : ProviderId) (generation : GenerationOptions) : Result Unit := do
  checkSome (fun value => do
    requireCapability provider .temperature
    ensure (value.isFinite = true) (invalidNumber "temperature")
    validateFloatRange "temperature" value 0 (maxTemperature provider)) generation.temperature
  checkSome (fun maximum => do
    requireCapability provider .maxOutputTokens
    ensure (¬ (maximum = 0 ∧ provider ≠ .anthropic))
      (.invalidField "maxOutputTokens" "must be greater than zero")) generation.maxOutputTokens
  checkSome (fun value => do
    requireCapability provider .topP
    validateFloatRange "topP" value 0 1) generation.topP
  checkSome (fun _ => requireCapability provider .topK) generation.topK
  checkSome (fun value => do
    requireCapability provider .presencePenalty
    validateFloatRange "presencePenalty" value (-2) 2) generation.presencePenalty
  checkSome (fun value => do
    requireCapability provider .frequencyPenalty
    validateFloatRange "frequencyPenalty" value (-2) 2) generation.frequencyPenalty
  if generation.stopSequences ≠ [] then do
    requireCapability provider .stopSequences
    ensure (generation.stopSequences.length ≤ maxStopSequences provider)
      (.tooManyItems "stopSequences" (maxStopSequences provider))
    validateEach (validateTextField "stopSequences" · maxStopSequenceBytes) generation.stopSequences
  checkSome (fun _ => requireCapability provider .seed) generation.seed
  validateResponseFormat provider generation.responseFormat

end

/-- The loop of `validate_role_contract`. -/
def alternates : List MessageRole → Option MessageRole → Bool
  | [], _ => true
  | role :: rest, previous => decide (previous ≠ some role) && alternates rest (some role)

def validateRoleContract (request : ProviderRequest) : Result Unit :=
  if (request.provider ≠ .googleGemini ∧ request.provider ≠ .googleVertexAi) ∨
      request.generation.rolePolicy = .mergeConsecutive then .ok ()
  else
    ensure (alternates ((request.messages.map ChatMessage.role).filter (· ≠ .system)) none = true)
      (.invalidField "messages.role"
        "Gemini user and model roles must alternate; select merge_consecutive or normalize the history")

/-! ## Provider options -/

def validateOpenAiOptions (options : OpenAiOptions) : Result Unit :=
  checkSome (fun cache : OpenAiPromptCache => validateTextField "promptCache.key" cache.key 128)
    options.promptCache

def validateAnthropicOptions (options : AnthropicOptions) (maxOutputTokens : Option UInt32) :
    Result Unit :=
  match maxOutputTokens with
  | none => .error (.missingField "generation.maxOutputTokens")
  | some maximum =>
    match options.thinking with
    | some (.enabled budgetTokens _) => do
      ensure (1024 ≤ budgetTokens)
        (.invalidField "thinking.budgetTokens" "Anthropic thinking budget must be at least 1024")
      ensure (budgetTokens < maximum)
        (.invalidField "thinking.budgetTokens"
          "Anthropic thinking budget must be lower than maxOutputTokens")
    | _ => .ok ()

def validateDeepSeekOptions (options : DeepSeekOptions) (generation : GenerationOptions) :
    Result Unit := do
  ensure (¬ (options.thinkingEnabled ≠ some false ∧
      (generation.temperature.isSome = true ∨ generation.topP.isSome = true)))
    (.invalidField "thinkingEnabled" "DeepSeek ignores temperature and topP in thinking mode")
  ensure (¬ (options.thinkingEnabled = some false ∧ options.reasoningEffort.isSome = true))
    (.invalidField "reasoningEffort" "reasoning effort cannot be used when thinking is disabled")

def validateGoogleThinking (thinking : GoogleThinking) : Result Unit := do
  ensure (¬ (thinking.level.isSome = true ∧ thinking.budgetTokens.isSome = true))
    (.invalidField "thinking" "thinking level and token budget are mutually exclusive")
  ensure (¬ thinking.budgetTokens.any (· < -1) = true)
    (.invalidField "thinking.budgetTokens" "must be -1, 0, or a positive model-supported budget")
  ensure (¬ (thinking.level.isNone = true ∧ thinking.budgetTokens.isNone = true ∧
      thinking.includeThoughts = false))
    (.invalidField "thinking" "empty thinking configuration has no effect")

/-- The loop of `validate_safety_settings`. -/
def checkSafetySettings (vertex : Bool) :
    List GoogleSafetySetting → List GoogleSafetyCategory → Result Unit
  | [], _ => .ok ()
  | setting :: rest, categories => do
    ensure (setting.category ∉ categories)
      (.invalidField "safetySettings" "each harm category may appear only once")
    ensure (¬ (vertex = false ∧ setting.method.isSome = true))
      (.invalidField "safetySettings.method" "safety method is a Vertex AI option")
    ensure (¬ (vertex = false ∧ setting.category = .jailbreak))
      (.invalidField "safetySettings.category" "jailbreak is a Vertex AI safety category")
    checkSafetySettings vertex rest (setting.category :: categories)

def validateSafetySettings (settings : List GoogleSafetySetting) (vertex : Bool) : Result Unit := do
  let maximum := if vertex then 6 else 5
  ensure (settings.length ≤ maximum) (.tooManyItems "safetySettings" maximum)
  checkSafetySettings vertex settings []

def validateGoogleOptions (options : GoogleOptions) : Result Unit := do
  checkSome validateGoogleThinking options.thinking
  checkSome (validateCacheResource "cachedContent") options.cachedContent
  checkSome (fun resource =>
    match segments resource with
    | [collection, id] => do
      ensure (collection = "cachedContents" ∧ id ≠ "")
        (.invalidField "cachedContent" "Gemini cache resource must be exactly cachedContents/\x7bid\x7d")
      validatePathSegment "cachedContent.id" id false
    | _ => .error
        (.invalidField "cachedContent" "Gemini cache resource must be exactly cachedContents/\x7bid\x7d"))
    options.cachedContent
  validateSafetySettings options.safetySettings false

def validateVertexOptions (options : VertexAiOptions) : Result Unit := do
  validatePathSegment "projectId" options.projectId true
  validatePathSegment "location" options.location true
  checkSome validateGoogleThinking options.thinking
  checkSome (validateCacheResource "cachedContent") options.cachedContent
  checkSome (fun resource =>
    match segments resource with
    | [projects, projectId, locations, location, collection, id] => do
      ensure (projects = "projects" ∧ projectId = options.projectId ∧ locations = "locations" ∧
          location = options.location ∧ collection = "cachedContents" ∧ id ≠ "")
        (.invalidField "cachedContent"
          "Vertex cache resource must exactly match the selected project and location")
      validatePathSegment "cachedContent.id" id false
    | _ => .error (.invalidField "cachedContent"
        "Vertex cache resource must exactly match the selected project and location"))
    options.cachedContent
  validateSafetySettings options.safetySettings true

def validateProviderOptions (request : ProviderRequest) : Result Unit :=
  match request.providerOptions with
  | .openAi options => validateOpenAiOptions options
  | .anthropic options => validateAnthropicOptions options request.generation.maxOutputTokens
  | .deepSeek options => validateDeepSeekOptions options request.generation
  | .ollamaCloud _ => .ok ()
  | .googleGemini options => validateGoogleOptions options
  | .googleVertexAi options => validateVertexOptions options

def isTokenizerIdChar (c : Char) : Bool :=
  c.isAlphanum || c = '-' || c = '_' || c = '.' || c = ':' || c = '/'

def validateTokenizerOverride (override : TokenizerOverride) : Result Unit := do
  validateTextField "tokenizerOverride.tokenizerId" override.tokenizerId maxTokenizerIdBytes
  ensure (override.tokenizerId.toList.all isTokenizerIdChar = true)
    (.invalidField "tokenizerOverride.tokenizerId" "contains unsupported characters")

/-! ## Additional parameters -/

/-- `canonical_extra_parameter`: the letters and digits of a key, in lower case. -/
def canonicalExtraParameter (key : String) : String :=
  String.ofList ((key.toList.filter Char.isAlphanum).map Char.toLower)

def sensitiveParts : List String :=
  ["endpoint", "baseurl", "url", "host", "proxy", "header", "authorization", "apikey", "token",
    "secret", "password", "cookie", "credential", "serviceaccount", "tool", "mcp"]

def isSensitiveExtraParameter (key : String) : Bool :=
  sensitiveParts.any fun part => decide (part.toList <:+: (canonicalExtraParameter key).toList)

def reservedParameters : List String :=
  ["model", "input", "messages", "contents", "system", "instructions", "systeminstruction",
    "stream", "streamoptions", "store", "background", "conversation", "previousresponseid",
    "safetyidentifier", "user", "tools", "toolchoice", "paralleltoolcalls", "mcp", "temperature",
    "maxoutputtokens", "maxtokens", "numpredict", "topp", "topk", "presencepenalty",
    "frequencypenalty", "stop", "stopsequences", "seed", "responseformat", "responsemimetype",
    "responsejsonschema", "text", "reasoning", "reasoningeffort", "thinking", "safetysettings",
    "servicetier", "cachedcontent", "cachecontrol", "promptcachekey", "promptcacheretention",
    "generationconfig", "options", "format", "project", "projectid", "location"]

def isReservedExtraParameter (key : String) : Bool :=
  decide (canonicalExtraParameter key ∈ reservedParameters) || isSensitiveExtraParameter key

mutual

def findSensitiveNestedKey : Value → Option String
  | .object entries => findSensitiveEntry entries
  | .array items => findSensitiveItem items
  | _ => none

def findSensitiveEntry : List (String × Value) → Option String
  | [] => none
  | (key, value) :: rest =>
    if isSensitiveExtraParameter key then some key
    else (findSensitiveNestedKey value).or (findSensitiveEntry rest)

def findSensitiveItem : List Value → Option String
  | [] => none
  | value :: rest => (findSensitiveNestedKey value).or (findSensitiveItem rest)

end

def isParameterChar (c : Char) : Bool := c.isAlphanum || c = '_'

def validateParameter (key : String) (value : Value) : Result Unit := do
  ensure (key ≠ "" ∧ key.utf8ByteSize ≤ 64 ∧ key.toList.all isParameterChar = true)
    (.unsafeExtraParameter key)
  ensure (isReservedExtraParameter key = false) (.unsafeExtraParameter key)
  match findSensitiveNestedKey value with
  | some nested => .error (.unsafeExtraParameter (key ++ "." ++ nested))
  | none => .ok ()
  ensure (valueDepth value ≤ maxAdditionalParameterDepth)
    (.extraParameterTooDeep key maxAdditionalParameterDepth)

section
variable [FloatText]

def validateAdditionalParameters (parameters : List (String × Value)) : Result Unit := do
  ensure (parameters.length ≤ maxAdditionalParameters)
    (.tooManyItems "additionalParameters" maxAdditionalParameters)
  ensure ((toVec (.object parameters)).length ≤ maxAdditionalParametersBytes)
    (.payloadTooLarge "additionalParameters" maxAdditionalParametersBytes)
  validateEach (fun parameter => validateParameter parameter.1 parameter.2) parameters

/-! ## Requests -/

def validateRequest (request : ProviderRequest) : Result Unit := do
  ensure (request.provider = request.providerOptions.providerId)
    (.providerOptionsMismatch request.provider request.providerOptions.providerId)
  validateTextField "modelId" request.modelId maxModelIdBytes
  if request.provider = .googleGemini ∨ request.provider = .googleVertexAi then
    validatePathSegment "modelId" request.modelId false
  validateMessages request.messages
  validateGeneration request.provider request.generation
  validateRoleContract request
  validateProviderOptions request
  checkSome validateTokenizerOverride request.tokenizerOverride
  validateAdditionalParameters request.additionalParameters

end

end Lorepia.Providers
