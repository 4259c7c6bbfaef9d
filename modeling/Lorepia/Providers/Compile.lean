import Lorepia.Providers.Validate

/-!
# Compiling a request (`compile.rs`:108–132, 682–1281)

Each provider has a compiler from the typed options to the body of its request. A body is a
map, kept as the list of its entries. After it is compiled the additional parameters are
put in beside the typed members (`mergeAdditionalParameters`).

The check on additional parameters has a list of reserved names, so that a parameter cannot
stand for a typed option. `member_taken_iff` says for which names it fails to do so.
-/

namespace Lorepia.Providers

open Tools (Value Number FloatText)

/-! ## Values -/

abbrev Object := List (String × Value)

/-- `Map::insert`. -/
def Object.insert (body : Object) (key : String) (value : Value) : Object :=
  match body with
  | [] => [(key, value)]
  | (k, v) :: rest => if k = key then (k, value) :: rest else (k, v) :: Object.insert rest key value

def Object.insertSome {α : Type} (body : Object) (key : String) (value : Option α) (f : α → Value) :
    Object :=
  match value with
  | some a => body.insert key (f a)
  | none => body

/-- `if let (Some(name), Some(value))`. -/
def Object.insertNamed {α : Type} (body : Object) (name : Option String) (value : Option α)
    (f : α → Value) : Object :=
  match name with
  | some key => body.insertSome key value f
  | none => body

def jsonU32 (n : UInt32) : Value :=
  .number (.posInt ⟨n.toNat, Nat.lt_trans n.toNat_lt (by decide)⟩)

def jsonI64 (n : Int64) : Value :=
  if 0 ≤ n.toInt then .number (.posInt ⟨n.toInt.toNat, by have := n.toInt_lt; omega⟩)
  else .number (.negInt ⟨(-n.toInt - 1).toNat, by have := n.le_toInt; omega⟩)

/-- A float that is not finite becomes `null`. -/
def jsonF64 : Float64 → Value
  | .finite d => .number (.float d)
  | _ => .null

def jsonStrings (values : List String) : Value := .array (values.map Value.string)

/-! ## Conversations -/

/-- The system text, and the messages of the conversation, of which none is a system message. -/
structure NormalizedConversation where
  system : Option String
  messages : List ChatMessage
  conversational : ∀ message ∈ messages, message.role ≠ .system

/-- The loop of `normalize_conversation`: with the policy `merge_consecutive` a message is
added to the last one when they have one role. -/
def mergeMessages (policy : RolePolicy) : List ChatMessage → List ChatMessage → List ChatMessage
  | [], normalized => normalized
  | message :: rest, normalized =>
    match normalized.getLast? with
    | some previous =>
      if policy = .mergeConsecutive ∧ previous.role = message.role then
        mergeMessages policy rest (normalized.dropLast ++
          [{ previous with content := previous.content ++ "\n\n" ++ message.content }])
      else mergeMessages policy rest (normalized ++ [message])
    | none => mergeMessages policy rest (normalized ++ [message])

theorem mergeMessages_roles {policy : RolePolicy} {messages normalized : List ChatMessage}
    (h : ∀ message ∈ messages, message.role ≠ .system)
    (h' : ∀ message ∈ normalized, message.role ≠ .system) :
    ∀ message ∈ mergeMessages policy messages normalized, message.role ≠ .system := by
  induction messages generalizing normalized with
  | nil => exact h'
  | cons message rest ih =>
    have hrest : ∀ m ∈ rest, m.role ≠ .system := fun m hm => h m (List.mem_cons_of_mem _ hm)
    have hnext : ∀ m ∈ normalized ++ [message], m.role ≠ .system := by
      intro m hm
      obtain hm | hm := List.mem_append.mp hm
      · exact h' m hm
      · rw [List.mem_singleton.mp hm]
        exact h message List.mem_cons_self
    unfold mergeMessages
    split
    next previous hlast =>
      split
      · refine ih hrest fun m hm => ?_
        obtain hm | hm := List.mem_append.mp hm
        · exact h' m (List.mem_of_mem_dropLast hm)
        · rw [List.mem_singleton.mp hm]
          exact h' previous (List.mem_of_getLast? hlast)
      · exact ih hrest hnext
    next => exact ih hrest hnext

def normalizeConversation (messages : List ChatMessage) (policy : RolePolicy) :
    NormalizedConversation :=
  let system := "\n\n".intercalate ((messages.filter (·.role = .system)).map ChatMessage.content)
  { system := if system = "" then none else some system
    messages := mergeMessages policy (messages.filter (·.role ≠ .system)) []
    conversational := by
      refine mergeMessages_roles (fun message hmem => ?_) (fun message hmem => (nomatch hmem))
      simpa using (List.mem_filter.mp hmem).2 }

def roleText (assistantRole : String) : MessageRole → String
  | .user => "user"
  | .assistant => assistantRole
  | .system => "system"

def chatMessages (messages : List ChatMessage) (assistantRole : String) : List Value :=
  messages.map fun message => .object
    [("role", .string (roleText assistantRole message.role)), ("content", .string message.content)]

def messagesWithSystem (conversation : NormalizedConversation) (assistantRole : String) : List Value :=
  (match conversation.system with
    | some system => [.object [("role", .string "system"), ("content", .string system)]]
    | none => []) ++ chatMessages conversation.messages assistantRole

def googleMessages (messages : List ChatMessage) : List Value :=
  messages.map fun message => .object
    [("role", .string (roleText "model" message.role)),
     ("parts", .array [.object [("text", .string message.content)]])]

/-! ## Generation options -/

inductive GenerationDialect where
  | openAi | anthropic | deepSeek | ollama | google
  deriving DecidableEq

structure GenerationFieldNames where
  temperature : String
  maxOutputTokens : Option String
  topP : String
  topK : Option String
  presencePenalty : Option String
  frequencyPenalty : Option String
  stopSequences : Option String
  seed : Option String
  deriving DecidableEq

def GenerationDialect.names : GenerationDialect → GenerationFieldNames
  | openAi => ⟨"temperature", some "max_output_tokens", "top_p", none, none, none, none, none⟩
  | anthropic => ⟨"temperature", none, "top_p", some "top_k", none, none, some "stop_sequences", none⟩
  | deepSeek => ⟨"temperature", some "max_tokens", "top_p", none, none, none, some "stop", none⟩
  | ollama =>
    ⟨"temperature", some "num_predict", "top_p", some "top_k", none, none, some "stop", some "seed"⟩
  | google =>
    ⟨"temperature", some "maxOutputTokens", "topP", some "topK", some "presencePenalty",
      some "frequencyPenalty", some "stopSequences", some "seed"⟩

def insertGenerationScalarFields (body : Object) (generation : GenerationOptions)
    (dialect : GenerationDialect) : Object :=
  let names := dialect.names
  let stopSequences := if generation.stopSequences = [] then none else some generation.stopSequences
  body
    |>.insertSome names.temperature generation.temperature jsonF64
    |>.insertNamed names.maxOutputTokens generation.maxOutputTokens jsonU32
    |>.insertSome names.topP generation.topP jsonF64
    |>.insertNamed names.topK generation.topK jsonU32
    |>.insertNamed names.presencePenalty generation.presencePenalty jsonF64
    |>.insertNamed names.frequencyPenalty generation.frequencyPenalty jsonF64
    |>.insertNamed names.stopSequences stopSequences jsonStrings
    |>.insertNamed names.seed generation.seed jsonI64

/-! ## Compiled requests -/

inductive AuthScheme where
  | authorizationBearer | anthropicXApiKey | googleXGoogApiKey | googleOAuthBearer
  deriving DecidableEq

inductive StreamProtocol where
  | sse | ndjson
  deriving DecidableEq

structure CompiledProviderRequest where
  provider : ProviderId
  origin : String
  pathAndQuery : String
  authScheme : AuthScheme
  staticHeaders : List (String × String)
  streamProtocol : StreamProtocol
  body : Object
  tokenizerOverride : Option TokenizerOverride

def baseCompiled (provider : ProviderId) (origin pathAndQuery : String) (authScheme : AuthScheme)
    (streamProtocol : StreamProtocol) (body : Object) : CompiledProviderRequest :=
  ⟨provider, origin, pathAndQuery, authScheme, [("content-type", "application/json")],
    streamProtocol, body, none⟩

/-! ## Compilers -/

section
variable (request : ProviderRequest) (conversation : NormalizedConversation)

def openAiText : ResponseFormat → Option Value
  | .text => none
  | .jsonObject => some (.object [("format", .object [("type", .string "json_object")])])
  | .jsonSchema schema => some (.object [("format", .object
      [("type", .string "json_schema"), ("name", .string "lorepia_response"), ("schema", schema),
        ("strict", .bool true)])])

def openAiReasoning (reasoning : OpenAiReasoning) : Value :=
  .object (Object.insertSome [("effort", .string reasoning.effort.asStr)] "summary" reasoning.summary
    fun summary => .string summary.asStr)

def openAiBody (options : OpenAiOptions) : Object :=
  let body : Object :=
    [("model", .string request.modelId),
     ("input", .array (chatMessages conversation.messages "assistant")),
     ("stream", .bool true), ("store", .bool false)]
  let body := body.insertSome "instructions" conversation.system Value.string
  let body := insertGenerationScalarFields body request.generation .openAi
  body
    |>.insertSome "text" (openAiText request.generation.responseFormat) id
    |>.insertSome "reasoning" options.reasoning openAiReasoning
    |>.insertSome "prompt_cache_key" options.promptCache (fun cache => .string cache.key)
    |>.insertSome "prompt_cache_retention" options.promptCache (fun cache => .string cache.retention.asStr)
    |>.insertSome "service_tier" options.serviceTier (fun tier => .string tier.asStr)

def compileOpenAi (options : OpenAiOptions) : Result CompiledProviderRequest :=
  .ok (baseCompiled .openAi "https://api.openai.com" "/v1/responses" .authorizationBearer .sse
    (openAiBody request conversation options))

def anthropicThinking : AnthropicThinking → Value
  | .disabled => .object [("type", .string "disabled")]
  | .adaptive display => .object [("type", .string "adaptive"), ("display", .string display.asStr)]
  | .enabled budgetTokens display => .object
      [("type", .string "enabled"), ("budget_tokens", jsonU32 budgetTokens),
        ("display", .string display.asStr)]

def ResponseFormat.schema : ResponseFormat → Option Value
  | jsonSchema schema => some schema
  | _ => none

def anthropicOutputConfig (options : AnthropicOptions) (format : ResponseFormat) : Object :=
  Object.insertSome [] "effort" options.reasoningEffort (fun effort => .string effort.asStr)
    |>.insertSome "format" format.schema
      (fun schema => .object [("type", .string "json_schema"), ("schema", schema)])

def anthropicBody (options : AnthropicOptions) (maxOutputTokens : UInt32) : Object :=
  let body : Object :=
    [("model", .string request.modelId), ("max_tokens", jsonU32 maxOutputTokens),
     ("messages", .array (chatMessages conversation.messages "assistant")), ("stream", .bool true)]
  let body := body.insertSome "system" conversation.system Value.string
  let body := insertGenerationScalarFields body request.generation .anthropic
  let body := body.insertSome "thinking" options.thinking anthropicThinking
  let outputConfig := anthropicOutputConfig options request.generation.responseFormat
  let body := if outputConfig = [] then body else body.insert "output_config" (.object outputConfig)
  body
    |>.insertSome "cache_control" options.cacheTtl
      (fun ttl => .object [("type", .string "ephemeral"), ("ttl", .string ttl.asStr)])
    |>.insertSome "service_tier" options.serviceTier (fun tier => .string tier.asStr)

def compileAnthropic (options : AnthropicOptions) : Result CompiledProviderRequest :=
  match request.generation.maxOutputTokens with
  | none => .error (.missingField "generation.maxOutputTokens")
  | some maxOutputTokens =>
    let compiled := baseCompiled .anthropic "https://api.anthropic.com" "/v1/messages"
      .anthropicXApiKey .sse (anthropicBody request conversation options maxOutputTokens)
    .ok { compiled with
      staticHeaders := compiled.staticHeaders ++ [("anthropic-version", "2023-06-01")] }

def deepSeekBody (options : DeepSeekOptions) : Object :=
  let body : Object :=
    [("model", .string request.modelId),
     ("messages", .array (messagesWithSystem conversation "assistant")), ("stream", .bool true),
     ("stream_options", .object [("include_usage", .bool true)])]
  let body := insertGenerationScalarFields body request.generation .deepSeek
  let body :=
    match request.generation.responseFormat with
    | .jsonObject => body.insert "response_format" (.object [("type", .string "json_object")])
    | _ => body
  body
    |>.insertSome "thinking" options.thinkingEnabled
      (fun enabled => .object [("type", .string (if enabled then "enabled" else "disabled"))])
    |>.insertSome "reasoning_effort" options.reasoningEffort (fun effort => .string effort.asStr)

def compileDeepSeek (options : DeepSeekOptions) : Result CompiledProviderRequest :=
  .ok (baseCompiled .deepSeek "https://api.deepseek.com" "/chat/completions" .authorizationBearer .sse
    (deepSeekBody request conversation options))

def ollamaThinking : OllamaThinking → Value
  | .disabled => .bool false
  | .enabled => .bool true
  | .low => .string "low"
  | .medium => .string "medium"
  | .high => .string "high"
  | .max => .string "max"

def ollamaCloudBody (options : OllamaCloudOptions) : Object :=
  let body : Object :=
    [("model", .string request.modelId),
     ("messages", .array (messagesWithSystem conversation "assistant")), ("stream", .bool true)]
  let generationOptions := insertGenerationScalarFields [] request.generation .ollama
  let body := if generationOptions = [] then body else body.insert "options" (.object generationOptions)
  body.insertSome "think" options.thinking ollamaThinking

def compileOllamaCloud (options : OllamaCloudOptions) : Result CompiledProviderRequest :=
  .ok (baseCompiled .ollamaCloud "https://ollama.com" "/api/chat" .authorizationBearer .ndjson
    (ollamaCloudBody request conversation options))

def googleThinkingConfig (thinking : GoogleThinking) : Value :=
  .object (Object.insertSome [] "thinkingLevel" thinking.level (fun level => .string level.asStr)
    |>.insertSome "thinkingBudget" thinking.budgetTokens (fun budget => jsonI64 budget.toInt64)
    |>.insert "includeThoughts" (.bool thinking.includeThoughts))

def responseMimeType : ResponseFormat → String
  | .text => "text/plain"
  | .jsonObject | .jsonSchema _ => "application/json"

def googleGenerationConfig (thinking : Option GoogleThinking) : Object :=
  let config := insertGenerationScalarFields [] request.generation .google
  config.insert "responseMimeType" (.string (responseMimeType request.generation.responseFormat))
    |>.insertSome "responseJsonSchema" request.generation.responseFormat.schema id
    |>.insertSome "thinkingConfig" thinking googleThinkingConfig

def googleSafetySetting (vertex : Bool) (setting : GoogleSafetySetting) : Value :=
  .object (Object.insertSome
    [("category", .string setting.category.asStr), ("threshold", .string setting.threshold.asStr)]
    "method" (if vertex then setting.method else none) fun method => .string method.asStr)

def compileGoogleBody (thinking : Option GoogleThinking) (safetySettings : List GoogleSafetySetting)
    (cachedContent serviceTier : Option String) (vertex : Bool) : Object :=
  let body : Object := [("contents", .array (googleMessages conversation.messages))]
  let body := body.insertSome "systemInstruction" conversation.system
    (fun system => .object [("parts", .array [.object [("text", .string system)]])])
  let body := body.insert "generationConfig" (.object (googleGenerationConfig request thinking))
  let body := body.insertSome "cachedContent" cachedContent Value.string
  let body := if safetySettings = [] then body
    else body.insert "safetySettings" (.array (safetySettings.map (googleSafetySetting vertex)))
  let body := body.insertSome "serviceTier" serviceTier Value.string
  if vertex then body else body.insert "store" (.bool false)

def compileGoogleGemini (options : GoogleOptions) : Result CompiledProviderRequest :=
  .ok (baseCompiled .googleGemini "https://generativelanguage.googleapis.com"
    ("/v1beta/models/" ++ request.modelId ++ ":streamGenerateContent?alt=sse") .googleXGoogApiKey .sse
    (compileGoogleBody request conversation options.thinking options.safetySettings
      options.cachedContent (options.serviceTier.map GoogleServiceTier.asStr) false))

def vertexOrigin (location : String) : String :=
  if location = "global" then "https://aiplatform.googleapis.com"
  else "https://" ++ location ++ "-aiplatform.googleapis.com"

def VertexRequestType.header : VertexRequestType → List (String × String)
  | automatic => []
  | shared => [("X-Vertex-AI-LLM-Request-Type", "shared")]
  | dedicated => [("X-Vertex-AI-LLM-Request-Type", "dedicated")]

def compileGoogleVertex (options : VertexAiOptions) : Result CompiledProviderRequest :=
  let compiled := baseCompiled .googleVertexAi (vertexOrigin options.location)
    ("/v1/projects/" ++ options.projectId ++ "/locations/" ++ options.location ++
      "/publishers/google/models/" ++ request.modelId ++ ":streamGenerateContent?alt=sse")
    .googleOAuthBearer .sse
    (compileGoogleBody request conversation options.thinking options.safetySettings
      options.cachedContent none true)
  .ok { compiled with staticHeaders := compiled.staticHeaders ++ options.requestType.header }

def compileTyped : Result CompiledProviderRequest :=
  match request.providerOptions with
  | .openAi options => compileOpenAi request conversation options
  | .anthropic options => compileAnthropic request conversation options
  | .deepSeek options => compileDeepSeek request conversation options
  | .ollamaCloud options => compileOllamaCloud request conversation options
  | .googleGemini options => compileGoogleGemini request conversation options
  | .googleVertexAi options => compileGoogleVertex request conversation options

end

def mergeAdditionalParameters : List (String × Value) → Object → Result Object
  | [], body => .ok body
  | (key, value) :: rest, body => do
    ensure (key ∉ body.map Prod.fst) (.extraParameterCollision key)
    mergeAdditionalParameters rest (body.insert key value)

def compileRequest [FloatText] (request : ProviderRequest) : Result CompiledProviderRequest := do
  validateRequest request
  let conversation := normalizeConversation request.messages request.generation.rolePolicy
  let compiled ← compileTyped request conversation
  let body ← mergeAdditionalParameters request.additionalParameters compiled.body
  .ok { compiled with body, tokenizerOverride := request.tokenizerOverride }

/-! ## Members of a body -/

def Object.Within (names : List String) (body : Object) : Prop := ∀ entry ∈ body, entry.1 ∈ names

namespace Object.Within

variable {names : List String} {body : Object} {α : Type}

theorem insert (h : body.Within names) {key : String} (hkey : key ∈ names) (value : Value) :
    (body.insert key value).Within names := by
  induction body with
  | nil =>
    intro entry hentry
    rw [List.mem_singleton.mp hentry]
    exact hkey
  | cons first rest ih =>
    obtain ⟨k, v⟩ := first
    have hrest : Object.Within names rest := fun entry hentry => h entry (List.mem_cons_of_mem _ hentry)
    unfold Object.insert
    split
    next hk =>
      intro entry hentry
      obtain rfl | hentry := List.mem_cons.mp hentry
      · exact h (k, v) List.mem_cons_self
      · exact hrest entry hentry
    next =>
      intro entry hentry
      obtain rfl | hentry := List.mem_cons.mp hentry
      · exact h _ List.mem_cons_self
      · exact ih hrest entry hentry

theorem insertSome (h : body.Within names) {key : String} (hkey : key ∈ names) (value : Option α)
    (f : α → Value) : (body.insertSome key value f).Within names := by
  cases value with
  | none => exact h
  | some a => exact h.insert hkey (f a)

theorem insertNamed (h : body.Within names) {name : Option String} (hname : ∀ key ∈ name, key ∈ names)
    (value : Option α) (f : α → Value) : (body.insertNamed name value f).Within names := by
  cases name with
  | none => exact h
  | some key => exact h.insertSome (hname key rfl) value f

theorem insertUnless (h : body.Within names) {c : Prop} [Decidable c] {key : String}
    (hkey : key ∈ names) (value : Value) :
    Object.Within names (if c then body else body.insert key value) := by
  split
  · exact h
  · exact h.insert hkey value

end Object.Within

def GenerationFieldNames.all (names : GenerationFieldNames) : List String :=
  [names.temperature, names.topP] ++ ([names.maxOutputTokens, names.topK, names.presencePenalty,
    names.frequencyPenalty, names.stopSequences, names.seed].filterMap id)

theorem generation_within {names : List String} {body : Object} {dialect : GenerationDialect}
    (h : body.Within names) (hdialect : ∀ name ∈ dialect.names.all, name ∈ names)
    (generation : GenerationOptions) :
    (insertGenerationScalarFields body generation dialect).Within names := by
  have hopt : ∀ {name : Option String}, name ∈ [dialect.names.maxOutputTokens, dialect.names.topK,
      dialect.names.presencePenalty, dialect.names.frequencyPenalty, dialect.names.stopSequences,
      dialect.names.seed] → ∀ key ∈ name, key ∈ names := by
    intro name hname key hkey
    exact hdialect key (List.mem_append_right _ (List.mem_filterMap.mpr ⟨name, hname, hkey⟩))
  unfold insertGenerationScalarFields
  refine (((((((h.insertSome (hdialect _ ?_) _ _).insertNamed (hopt ?_) _ _).insertSome
    (hdialect _ ?_) _ _).insertNamed (hopt ?_) _ _).insertNamed (hopt ?_) _ _).insertNamed
    (hopt ?_) _ _).insertNamed (hopt ?_) _ _).insertNamed (hopt ?_) _ _
  all_goals simp [GenerationFieldNames.all]

/-- The typed compilers emit only these top-level members. -/
def typedMembers : ProviderId → List String
  | .openAi =>
    ["model", "input", "stream", "store", "instructions", "temperature", "max_output_tokens", "top_p",
      "text", "reasoning", "prompt_cache_key", "prompt_cache_retention", "service_tier"]
  | .anthropic =>
    ["model", "max_tokens", "messages", "stream", "system", "temperature", "top_p", "top_k",
      "stop_sequences", "thinking", "output_config", "cache_control", "service_tier"]
  | .deepSeek =>
    ["model", "messages", "stream", "stream_options", "temperature", "max_tokens", "top_p", "stop",
      "response_format", "thinking", "reasoning_effort"]
  | .ollamaCloud => ["model", "messages", "stream", "options", "think"]
  | .googleGemini | .googleVertexAi =>
    ["contents", "systemInstruction", "generationConfig", "cachedContent", "safetySettings",
      "serviceTier", "store"]

section
variable (request : ProviderRequest) (conversation : NormalizedConversation)

theorem openAiBody_within (options : OpenAiOptions) :
    (openAiBody request conversation options).Within (typedMembers .openAi) := by
  unfold openAiBody
  refine .insertSome (.insertSome (.insertSome (.insertSome (.insertSome ?_ (by decide) _ _)
    (by decide) _ _) (by decide) _ _) (by decide) _ _) (by decide) _ _
  refine generation_within (.insertSome ?_ (by decide) _ _) (by decide) _
  simp [Object.Within, typedMembers]

theorem anthropicBody_within (options : AnthropicOptions) (maxOutputTokens : UInt32) :
    (anthropicBody request conversation options maxOutputTokens).Within (typedMembers .anthropic) := by
  unfold anthropicBody
  refine .insertSome (.insertSome (.insertUnless (.insertSome ?_ (by decide) _ _)
    (by decide) _) (by decide) _ _) (by decide) _ _
  refine generation_within (.insertSome ?_ (by decide) _ _) (by decide) _
  simp [Object.Within, typedMembers]

theorem deepSeekBody_within (options : DeepSeekOptions) :
    (deepSeekBody request conversation options).Within (typedMembers .deepSeek) := by
  have hgeneration : Object.Within (typedMembers .deepSeek) (insertGenerationScalarFields
      [("model", .string request.modelId),
        ("messages", .array (messagesWithSystem conversation "assistant")), ("stream", .bool true),
        ("stream_options", .object [("include_usage", .bool true)])] request.generation .deepSeek) := by
    refine generation_within ?_ (by decide) _
    simp [Object.Within, typedMembers]
  unfold deepSeekBody
  refine .insertSome (.insertSome ?_ (by decide) _ _) (by decide) _ _
  split
  · exact hgeneration.insert (by decide) _
  · exact hgeneration

theorem ollamaCloudBody_within (options : OllamaCloudOptions) :
    (ollamaCloudBody request conversation options).Within (typedMembers .ollamaCloud) := by
  unfold ollamaCloudBody
  refine .insertSome (.insertUnless ?_ (by decide) _) (by decide) _ _
  simp [Object.Within, typedMembers]

theorem googleBody_within (thinking : Option GoogleThinking) (safetySettings : List GoogleSafetySetting)
    (cachedContent serviceTier : Option String) (vertex : Bool) :
    (compileGoogleBody request conversation thinking safetySettings cachedContent serviceTier
      vertex).Within (typedMembers .googleGemini) := by
  unfold compileGoogleBody
  refine .insertUnless (.insertSome (.insertUnless (.insertSome (.insert (.insertSome ?_
    (by decide) _ _) (by decide) _) (by decide) _ _) (by decide) _) (by decide) _ _) (by decide) _
  simp [Object.Within, typedMembers]

theorem compileTyped_within {compiled : CompiledProviderRequest}
    (h : compileTyped request conversation = .ok compiled) :
    compiled.body.Within (typedMembers request.providerOptions.providerId) := by
  unfold compileTyped at h
  cases hoptions : request.providerOptions with
  | openAi options =>
    rw [hoptions] at h
    cases h
    exact openAiBody_within request conversation options
  | anthropic options =>
    rw [hoptions] at h
    unfold compileAnthropic at h
    cases htokens : request.generation.maxOutputTokens with
    | none =>
      simp only [htokens] at h
      cases h
    | some maxOutputTokens =>
      simp only [htokens] at h
      cases h
      exact anthropicBody_within request conversation options maxOutputTokens
  | deepSeek options =>
    rw [hoptions] at h
    cases h
    exact deepSeekBody_within request conversation options
  | ollamaCloud options =>
    rw [hoptions] at h
    cases h
    exact ollamaCloudBody_within request conversation options
  | googleGemini options =>
    rw [hoptions] at h
    cases h
    exact googleBody_within request conversation options.thinking options.safetySettings
      options.cachedContent (options.serviceTier.map GoogleServiceTier.asStr) false
  | googleVertexAi options =>
    rw [hoptions] at h
    cases h
    exact googleBody_within request conversation options.thinking options.safetySettings
      options.cachedContent none true

end

/-! ## Reserved names -/

theorem validateEach_ok {α : Type} {check : α → Result Unit} {l : List α}
    (h : validateEach check l = .ok ()) : ∀ a ∈ l, check a = .ok () := by
  induction l with
  | nil => exact fun _ ha => (nomatch ha)
  | cons b rest ih =>
    obtain ⟨⟨⟩, hfirst, hrest⟩ := except_bind_ok.mp h
    intro a ha
    obtain rfl | ha := List.mem_cons.mp ha
    · exact hfirst
    · exact ih hrest a ha

theorem isReservedExtraParameter_congr {key other : String}
    (h : canonicalExtraParameter key = canonicalExtraParameter other) :
    isReservedExtraParameter key = isReservedExtraParameter other := by
  simp only [isReservedExtraParameter, isSensitiveExtraParameter, h]

def unreserved : ProviderId → List String
  | .anthropic => ["outputconfig"]
  | .ollamaCloud => ["think"]
  | _ => []

theorem typedMembers_reserved (provider : ProviderId) : ∀ member ∈ typedMembers provider,
    isReservedExtraParameter member = true ∨
      canonicalExtraParameter member ∈ unreserved provider := by
  cases provider <;> decide

section
variable [FloatText]

def AcceptedParameter (key : String) : Prop :=
  ∃ parameters, validateAdditionalParameters parameters = .ok () ∧ key ∈ parameters.map Prod.fst

/-- Some valid request of the provider is compiled to a body with this member. -/
def Emits (provider : ProviderId) (member : String) : Prop :=
  ∃ request compiled, request.provider = provider ∧ validateRequest request = .ok () ∧
    compileTyped request (normalizeConversation request.messages request.generation.rolePolicy) =
      .ok compiled ∧
    member ∈ compiled.body.map Prod.fst

theorem AcceptedParameter.not_reserved {key : String} (h : AcceptedParameter key) :
    isReservedExtraParameter key = false := by
  obtain ⟨parameters, hvalid, hkey⟩ := h
  obtain ⟨⟨key, value⟩, hmem, rfl⟩ := List.mem_map.mp hkey
  obtain ⟨-, -, hvalid⟩ := except_bind_ok.mp hvalid
  obtain ⟨-, -, hvalid⟩ := except_bind_ok.mp hvalid
  have hparameter := validateEach_ok hvalid _ hmem
  obtain ⟨-, -, hparameter⟩ := except_bind_ok.mp hparameter
  obtain ⟨_, hreserved, _⟩ := except_bind_ok.mp hparameter
  exact ensure_ok.mp hreserved

/-- A request with an option that Anthropic compiles to `output_config`. -/
def effortRequest : ProviderRequest where
  provider := .anthropic
  modelId := "m"
  messages := [⟨.user, "Hello"⟩]
  generation := { maxOutputTokens := some 1 }
  providerOptions := .anthropic { reasoningEffort := some .low }

/-- A request with an option that Ollama compiles to `think`. -/
def thinkRequest : ProviderRequest where
  provider := .ollamaCloud
  modelId := "m"
  messages := [⟨.user, "Hello"⟩]
  providerOptions := .ollamaCloud { thinking := some .enabled }

omit [FloatText] in
theorem greeting_valid : validateTextField "modelId" "m" maxModelIdBytes = .ok () ∧
    validateMessages [⟨.user, "Hello"⟩] = .ok () := by decide

theorem effortRequest_valid : validateRequest effortRequest = .ok () := by
  obtain ⟨hmodel, hmessages⟩ := greeting_valid
  refine except_bind_ok.mpr ⟨(), rfl, except_bind_ok.mpr ⟨(), hmodel, ?_⟩⟩
  exact except_bind_ok.mpr ⟨(), hmessages, rfl⟩

theorem thinkRequest_valid : validateRequest thinkRequest = .ok () := by
  obtain ⟨hmodel, hmessages⟩ := greeting_valid
  refine except_bind_ok.mpr ⟨(), rfl, except_bind_ok.mpr ⟨(), hmodel, ?_⟩⟩
  exact except_bind_ok.mpr ⟨(), hmessages, rfl⟩

theorem emits_outputConfig : Emits .anthropic "output_config" :=
  ⟨effortRequest, _, rfl, effortRequest_valid, rfl, by decide⟩

theorem emits_think : Emits .ollamaCloud "think" :=
  ⟨thinkRequest, _, rfl, thinkRequest_valid, rfl, by decide⟩

/-- A parameter can be named like a typed member in two cases: `output_config` of Anthropic and
`think` of Ollama. -/
theorem member_taken_iff (provider : ProviderId) {key : String} (h : AcceptedParameter key) :
    (∀ member, Emits provider member →
      canonicalExtraParameter member ≠ canonicalExtraParameter key) ↔
    ¬ (provider = .anthropic ∧ canonicalExtraParameter key = "outputconfig" ∨
      provider = .ollamaCloud ∧ canonicalExtraParameter key = "think") := by
  constructor
  · rintro hfree (⟨rfl, hkey⟩ | ⟨rfl, hkey⟩)
    · refine hfree "output_config" emits_outputConfig ?_
      rw [hkey]
      decide
    · refine hfree "think" emits_think ?_
      rw [hkey]
      decide
  · rintro hkey member ⟨request, compiled, rfl, hvalid, hcompiled, hmember⟩ hsame
    obtain ⟨entry, hentry, rfl⟩ := List.mem_map.mp hmember
    obtain ⟨_, hprovider, _⟩ := except_bind_ok.mp hvalid
    have htyped := compileTyped_within _ _ hcompiled entry hentry
    rw [← ensure_ok.mp hprovider] at htyped
    obtain hreserved | hmissed := typedMembers_reserved _ _ htyped
    · rw [isReservedExtraParameter_congr hsame, h.not_reserved] at hreserved
      cases hreserved
    · rw [hsame] at hmissed
      refine hkey ?_
      generalize request.provider = provider at hmissed ⊢
      cases provider <;> simp_all [unreserved]

theorem accepted_flag {key : String} (h : validateParameter key (.bool true) = .ok ())
    (hsize : (Tools.quote key ++ 0x3a :: Tools.utf8 "true").length + 2 ≤ maxAdditionalParametersBytes) :
    AcceptedParameter key := by
  have htext : Tools.toVec (.object [(key, .bool true)]) =
      0x7b :: ((Tools.quote key ++ 0x3a :: Tools.utf8 "true") ++ [] ++ [0x7d]) := rfl
  refine ⟨[(key, .bool true)], ?_, List.mem_singleton_self key⟩
  refine except_bind_ok.mpr ⟨(), rfl, except_bind_ok.mpr ⟨(), ensure_ok.mpr ?_, ?_⟩⟩
  · rw [htext]
    simp only [List.length_cons, List.length_append, List.length_nil] at hsize ⊢
    omega
  · exact except_bind_ok.mpr ⟨(), h, rfl⟩

end

theorem member_taken_iff_logprobs :
    @AcceptedParameter Tools.unitsText "logprobs" ∧
      ∀ member, @Emits Tools.unitsText .openAi member →
        canonicalExtraParameter member ≠ canonicalExtraParameter "logprobs" := by
  have haccepted : @AcceptedParameter Tools.unitsText "logprobs" :=
    @accepted_flag Tools.unitsText "logprobs" (by decide) (by decide)
  exact ⟨haccepted, (@member_taken_iff Tools.unitsText .openAi "logprobs" haccepted).mpr (by decide)⟩

/-- Ollama's `think` and Anthropic's `output_config` are accepted as additional parameters. -/
theorem typed_member_accepted :
    (@AcceptedParameter Tools.unitsText "think" ∧ @Emits Tools.unitsText .ollamaCloud "think") ∧
      (@AcceptedParameter Tools.unitsText "output_config" ∧
        @Emits Tools.unitsText .anthropic "output_config") := by
  have hflags : validateParameter "think" (.bool true) = .ok () ∧
      validateParameter "output_config" (.bool true) = .ok () := by decide
  exact ⟨⟨@accepted_flag Tools.unitsText _ hflags.1 (by decide), @emits_think Tools.unitsText⟩,
    @accepted_flag Tools.unitsText _ hflags.2 (by decide), @emits_outputConfig Tools.unitsText⟩

end Lorepia.Providers
