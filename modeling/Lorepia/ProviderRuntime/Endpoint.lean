import Lorepia.Lib.Url
import Lorepia.Providers.Accepted
import Lorepia.ProviderRuntime.Addresses

/-!
# Endpoints of requests (`endpoint.rs`)

A request goes to the official URL of its provider or to an override. The official URL is built
here a second time and compared with the compiled one; then the name of the host is looked up,
and the addresses are pinned.

`official_endpoint_fixed` is about the URL: whatever ids a request has, they are segments of the
path, or the first labels of a Vertex host. `resolveEndpoint_guarded_iff` is about the addresses.
-/

namespace Lorepia.ProviderRuntime

open Https (Url Host Parser labels isEncodedLabel queryKeys)
open Providers (ProviderId ProviderRequest CompiledProviderRequest AuthScheme StreamProtocol
  VertexRequestType ProviderOptions)

def invalidEndpoint (message : String) : RuntimeError := ⟨.invalidEndpoint, "INVALID_ENDPOINT", message⟩

def invalidCompiled (message : String) : RuntimeError :=
  ⟨.invalidRequest, "INVALID_COMPILED_REQUEST", message⟩

/-! ## Checks on URLs -/

def endsWith (text ending : String) : Bool := ending.toList.isSuffixOf text.toList

def isLocalName (domain : String) : Bool :=
  domain = "" || domain = "localhost" || endsWith domain ".localhost" || endsWith domain ".local" ||
    endsWith domain ".internal" || endsWith domain ".home.arpa"

def validateDomain (domain : String) : Result Unit := do
  ensure (endsWith domain "." = false)
    (invalidEndpoint "endpoint host must use its canonical form without a trailing dot")
  ensure (isLocalName domain.toLower = false) (invalidEndpoint "local endpoint host names are forbidden")

def validateCommonUrl (url : Url) : Result Unit := do
  ensure (url.scheme = "https") (invalidEndpoint "endpoint scheme must be https")
  ensure (url.username = "" ∧ url.password = none) (invalidEndpoint "endpoint userinfo is forbidden")
  ensure (url.fragment = none) (invalidEndpoint "endpoint fragments are forbidden")
  ensure (∀ port ∈ url.port, port = 443) (invalidEndpoint "endpoint ports other than 443 are forbidden")
  match url.host with
  | none => .error (invalidEndpoint "endpoint must contain a host")
  | some (.address _) => .error (invalidEndpoint "IP-literal endpoints are forbidden")
  | some (.domain domain) => validateDomain domain

def maxEndpointBytes : Nat := 2048
def maxPathBytes : Nat := 1024
def maxQueryBytes : Nat := 512

def sensitiveQueryNames : List String := ["key", "token", "secret", "password", "authorization", "apikey"]

def canonicalKey (key : List UInt8) : List Char :=
  ((key.map fun b => Char.ofNat b.toNat).filter Char.isAlphanum).map Char.toLower

def isSensitiveKey (key : List UInt8) : Bool :=
  sensitiveQueryNames.any fun name => decide (name.toList <:+: canonicalKey key)

def validateOverrideUrl (P : Parser) (value : String) : Result Url := do
  ensure (value ≠ "" ∧ value.utf8ByteSize ≤ maxEndpointBytes)
    (invalidEndpoint "override must be a complete HTTPS endpoint URL of at most 2048 bytes")
  let url ← required (invalidEndpoint "override must be a valid absolute endpoint URL") (P.parse value)
  validateCommonUrl url
  ensure (url.path ≠ "" ∧ url.path ≠ "/" ∧ url.path.utf8ByteSize ≤ maxPathBytes)
    (invalidEndpoint "override must name an exact non-root endpoint path of at most 1024 bytes")
  ensure (∀ query ∈ url.query, query.utf8ByteSize ≤ maxQueryBytes)
    (invalidEndpoint "override endpoint query must be at most 512 bytes")
  ensure ((queryKeys ((url.query.getD "").toList)).any isSensitiveKey = false)
    (invalidEndpoint "credentials must not be embedded in an override URL query")
  .ok url

/-- A text that was checked when it was made. -/
structure OverrideEndpoint (P : Parser) where
  text : String
  valid : ∃ url, validateOverrideUrl P text = .ok url

inductive EndpointSelection (P : Parser) where
  | official
  | override (endpoint : OverrideEndpoint P)

/-! ## The official URL -/

/-- The URL that `official_url` expects. -/
def expectedUrl (request : ProviderRequest) : Result String :=
  match request.provider with
  | .openAi => .ok "https://api.openai.com/v1/responses"
  | .anthropic => .ok "https://api.anthropic.com/v1/messages"
  | .deepSeek => .ok "https://api.deepseek.com/chat/completions"
  | .ollamaCloud => .ok "https://ollama.com/api/chat"
  | .googleGemini => .ok ("https://generativelanguage.googleapis.com/v1beta/models/" ++ request.modelId ++
      ":streamGenerateContent?alt=sse")
  | .googleVertexAi =>
    match request.providerOptions with
    | .googleVertexAi options =>
      let origin :=
        if options.location = "global" then "https://aiplatform.googleapis.com"
        else "https://" ++ options.location ++ "-aiplatform.googleapis.com"
      .ok (origin ++ "/v1/projects/" ++ options.projectId ++ "/locations/" ++ options.location ++
        "/publishers/google/models/" ++ request.modelId ++ ":streamGenerateContent?alt=sse")
    | _ => .error (invalidCompiled "Vertex options changed after compilation")

def officialUrl (P : Parser) (request : ProviderRequest) (compiled : CompiledProviderRequest) :
    Result Url := do
  let expected ← expectedUrl request
  ensure (compiled.origin ++ compiled.pathAndQuery = expected)
    (invalidCompiled "compiled official endpoint did not match the provider allowlist")
  let url ← required (invalidCompiled "compiled official endpoint was not a valid URL") (P.parse expected)
  validateCommonUrl url
  .ok url

def expectedAuth : ProviderId → AuthScheme
  | .openAi | .deepSeek | .ollamaCloud => .authorizationBearer
  | .anthropic => .anthropicXApiKey
  | .googleGemini => .googleXGoogApiKey
  | .googleVertexAi => .googleOAuthBearer

def expectedProtocol : ProviderId → StreamProtocol
  | .ollamaCloud => .ndjson
  | _ => .sse

def expectedHeaders (request : ProviderRequest) : List (String × String) :=
  [("content-type", "application/json")]
    ++ (if request.provider = .anthropic then [("anthropic-version", "2023-06-01")] else [])
    ++ (match request.providerOptions with
      | .googleVertexAi options =>
        match options.requestType with
        | .automatic => []
        | .shared => [("X-Vertex-AI-LLM-Request-Type", "shared")]
        | .dedicated => [("X-Vertex-AI-LLM-Request-Type", "dedicated")]
      | _ => [])

/-- `validate_compiled_wire_contract`; headers are a map, so their order does not count. -/
def validateCompiledWireContract (request : ProviderRequest) (compiled : CompiledProviderRequest) :
    Result Unit := do
  ensure (compiled.provider = request.provider) (invalidCompiled "compiled provider identity mismatch")
  ensure (compiled.authScheme = expectedAuth request.provider ∧
      compiled.streamProtocol = expectedProtocol request.provider)
    (invalidCompiled "compiled authentication or stream protocol mismatch")
  ensure (compiled.staticHeaders.Perm (expectedHeaders request))
    (invalidCompiled "compiled static headers did not match the provider allowlist")

/-! ## Resolution -/

/-- What the lookup of a name comes to. -/
inductive Lookup where
  | timeout
  | failed
  | answers (addresses : List IpAddr)
  deriving DecidableEq

def resolveAddresses : Lookup → Result (List IpAddr)
  | .timeout => .error ⟨.timeout, "DNS_TIMEOUT", "endpoint DNS resolution timed out"⟩
  | .failed => .error ⟨.dnsResolution, "DNS_RESOLUTION_FAILED", "endpoint DNS resolution failed"⟩
  | .answers addresses => .ok addresses

structure ResolvedEndpoint where
  url : Url
  host : String
  pinnedAddresses : List SocketAddr
  isOverride : Bool
  deriving DecidableEq

def selectUrl (P : Parser) (request : ProviderRequest) (compiled : CompiledProviderRequest) :
    EndpointSelection P → Result (Url × Bool)
  | .official => do
    let url ← officialUrl P request compiled
    .ok (url, false)
  | .override endpoint => do
    let url ← validateOverrideUrl P endpoint.text
    .ok (url, true)

def resolveEndpoint (P : Parser) (lookupHost : String → Nat → Lookup) (request : ProviderRequest)
    (compiled : CompiledProviderRequest) (selection : EndpointSelection P) : Result ResolvedEndpoint := do
  validateCompiledWireContract request compiled
  let (url, isOverride) ← selectUrl P request compiled selection
  let host ← required (invalidEndpoint "endpoint must contain a DNS host") url.host
  let host := host.text.toLower
  let port ← required (invalidEndpoint "endpoint must use the HTTPS default port") url.portOrKnownDefault
  let resolved ← resolveAddresses (lookupHost host port)
  let addresses ← pinAddresses port resolved []
  ensure (addresses ≠ [])
    ⟨.dnsResolution, "DNS_NO_ADDRESSES", "endpoint DNS resolution returned no addresses"⟩
  .ok ⟨url, host, addresses, isOverride⟩

theorem resolveEndpoint_ok {P : Parser} {lookupHost : String → Nat → Lookup} {request : ProviderRequest}
    {compiled : CompiledProviderRequest} {selection : EndpointSelection P} {endpoint : ResolvedEndpoint}
    (h : resolveEndpoint P lookupHost request compiled selection = .ok endpoint) :
    ∃ port answers, lookupHost endpoint.host port = .answers answers ∧
      pinAddresses port answers [] = .ok endpoint.pinnedAddresses := by
  obtain ⟨_, _, h⟩ := except_bind_ok.mp h
  obtain ⟨⟨url, isOverride⟩, _, h⟩ := except_bind_ok.mp h
  obtain ⟨host, _, h⟩ := except_bind_ok.mp h
  obtain ⟨port, _, h⟩ := except_bind_ok.mp h
  obtain ⟨answers, hanswers, h⟩ := except_bind_ok.mp h
  obtain ⟨addresses, hpinned, h⟩ := except_bind_ok.mp h
  obtain ⟨_, _, h⟩ := except_bind_ok.mp h
  cases h
  refine ⟨port, answers, ?_, hpinned⟩
  cases hlookup : lookupHost host.text.toLower port with
  | timeout =>
    rw [hlookup] at hanswers
    cases hanswers
  | failed =>
    rw [hlookup] at hanswers
    cases hanswers
  | answers addresses =>
    rw [hlookup] at hanswers
    cases hanswers
    rfl

/-- The addresses of a resolved endpoint are guarded exactly if no answer is a 6to4 address of a
refused IPv4 address, and all globally routed exactly if no answer is a mapped address. -/
theorem resolveEndpoint_guarded_iff (P : Parser) (lookupHost : String → Nat → Lookup)
    (request : ProviderRequest) (compiled : CompiledProviderRequest) (selection : EndpointSelection P)
    (endpoint : ResolvedEndpoint)
    (h : resolveEndpoint P lookupHost request compiled selection = .ok endpoint) :
    ∃ port answers, lookupHost endpoint.host port = .answers answers ∧
      (Guarded endpoint.pinnedAddresses ↔ ∀ answer ∈ answers, ¬ answer.HoldsRefused) ∧
      ((∀ address p, ⟨.v6 address, p⟩ ∈ endpoint.pinnedAddresses →
          address.GloballyRouted ∧ ¬ address.Documentation ∧ ¬ address.Benchmarking) ↔
        ∀ answer ∈ answers, ¬ answer.IsMapped) := by
  obtain ⟨port, answers, hanswers, hpinned⟩ := resolveEndpoint_ok h
  exact ⟨port, answers, hanswers, guarded_iff hpinned, routed_iff hpinned⟩

/-! ## The parts of an official URL -/

def officialHost (request : ProviderRequest) : String :=
  match request.providerOptions with
  | .openAi _ => "api.openai.com"
  | .anthropic _ => "api.anthropic.com"
  | .deepSeek _ => "api.deepseek.com"
  | .ollamaCloud _ => "ollama.com"
  | .googleGemini _ => "generativelanguage.googleapis.com"
  | .googleVertexAi options =>
    if options.location = "global" then "aiplatform.googleapis.com"
    else options.location ++ "-aiplatform.googleapis.com"

def officialSegments (request : ProviderRequest) : List String :=
  match request.providerOptions with
  | .openAi _ => ["v1", "responses"]
  | .anthropic _ => ["v1", "messages"]
  | .deepSeek _ => ["chat", "completions"]
  | .ollamaCloud _ => ["api", "chat"]
  | .googleGemini _ => ["v1beta", "models", request.modelId ++ ":streamGenerateContent"]
  | .googleVertexAi options =>
    ["v1", "projects", options.projectId, "locations", options.location, "publishers", "google", "models",
      request.modelId ++ ":streamGenerateContent"]

def officialQuery (request : ProviderRequest) : Option String :=
  match request.providerOptions with
  | .googleGemini _ | .googleVertexAi _ => some "alt=sse"
  | _ => none

/-- A URL that is made of these parts and of no others. -/
structure Official (request : ProviderRequest) (url : Url) : Prop where
  scheme : url.scheme = "https"
  username : url.username = ""
  password : url.password = none
  host : url.host = some (.domain (officialHost request))
  port : url.port = none
  path : url.path.toList.tail.splitOnP Https.isSlash = (officialSegments request).map String.toList
  query : url.query = officialQuery request
  fragment : url.fragment = none

def officialText (request : ProviderRequest) : String :=
  Https.urlText "https://" (officialHost request) (officialSegments request) (officialQuery request)

section

variable {request : ProviderRequest} {compiled : CompiledProviderRequest}
  {conversation : Providers.NormalizedConversation}

theorem expectedUrl_eq (h : request.provider = request.providerOptions.providerId) :
    expectedUrl request = .ok (officialText request) := by
  rw [expectedUrl, h, officialText, officialHost, officialSegments, officialQuery]
  cases hoptions : request.providerOptions with
  | openAi options => rfl
  | anthropic options => rfl
  | deepSeek options => rfl
  | ollamaCloud options => rfl
  | googleGemini options =>
    refine congrArg Except.ok (String.toList_injective ?_)
    simp [Https.toList_urlText, Https.pathText, Https.queryText]
  | googleVertexAi options =>
    refine congrArg Except.ok (String.toList_injective ?_)
    by_cases hglobal : options.location = "global"
    · simp [Https.toList_urlText, Https.pathText, Https.queryText, hglobal]
    · simp [Https.toList_urlText, Https.pathText, Https.queryText, hglobal]

theorem compileTyped_url (h : Providers.compileTyped request conversation = .ok compiled) :
    compiled.origin ++ compiled.pathAndQuery = officialText request := by
  rw [officialText, officialHost, officialSegments, officialQuery]
  unfold Providers.compileTyped at h
  cases hoptions : request.providerOptions with
  | openAi options =>
    rw [hoptions] at h
    cases h
    rfl
  | anthropic options =>
    rw [hoptions] at h
    simp only [Providers.compileAnthropic] at h
    split at h
    · cases h
    · cases h
      rfl
  | deepSeek options =>
    rw [hoptions] at h
    cases h
    rfl
  | ollamaCloud options =>
    rw [hoptions] at h
    cases h
    rfl
  | googleGemini options =>
    rw [hoptions] at h
    cases h
    refine String.toList_injective ?_
    simp [Providers.baseCompiled, Https.toList_urlText, Https.pathText, Https.queryText]
  | googleVertexAi options =>
    rw [hoptions] at h
    cases h
    refine String.toList_injective ?_
    by_cases hglobal : options.location = "global"
    · simp [Providers.baseCompiled, Providers.vertexOrigin, hglobal, Https.toList_urlText, Https.pathText,
        Https.queryText]
    · simp [Providers.baseCompiled, Providers.vertexOrigin, hglobal, Https.toList_urlText, Https.pathText,
        Https.queryText]

theorem compileTyped_contract (h : Providers.compileTyped request conversation = .ok compiled) :
    compiled.provider = request.providerOptions.providerId ∧
      compiled.authScheme = expectedAuth request.providerOptions.providerId ∧
      compiled.streamProtocol = expectedProtocol request.providerOptions.providerId ∧
      (request.provider = request.providerOptions.providerId →
        compiled.staticHeaders = expectedHeaders request) := by
  rw [expectedHeaders]
  unfold Providers.compileTyped at h
  cases hoptions : request.providerOptions with
  | openAi options | deepSeek options | ollamaCloud options | googleGemini options =>
    rw [hoptions] at h
    cases h
    exact ⟨rfl, rfl, rfl, fun hprovider => by rw [hprovider]; rfl⟩
  | anthropic options =>
    rw [hoptions] at h
    simp only [Providers.compileAnthropic] at h
    split at h
    · cases h
    · cases h
      exact ⟨rfl, rfl, rfl, fun hprovider => by rw [hprovider]; rfl⟩
  | googleVertexAi options =>
    rw [hoptions] at h
    cases h
    refine ⟨rfl, rfl, rfl, fun hprovider => ?_⟩
    rw [hprovider]
    cases htype : options.requestType <;> simp only [htype] <;> rfl

/-! The ids in a URL are made of plain characters. -/

variable {lowercaseOnly : Bool} {field value : String}

theorem plain_of_safe {c : Char} (h : Providers.isSafePathChar lowercaseOnly c = true) :
    Https.isTextChar c = true := by
  cases lowercaseOnly with
  | true => exact Https.isTextChar_of_isPlainLower h
  | false =>
    show (Providers.isSafePathChar false c || _ || _) = true
    rw [h]
    rfl

theorem validatePathSegment_ok
    (h : Providers.validatePathSegment field value lowercaseOnly = .ok ()) :
    (∀ c ∈ value.toList, Providers.isSafePathChar lowercaseOnly c = true) ∧ value ≠ "." ∧ value ≠ ".." := by
  obtain ⟨_, _, h⟩ := except_bind_ok.mp h
  obtain ⟨hsafe, hdots⟩ := ensure_ok.mp h
  exact ⟨List.all_eq_true.mp hsafe, hdots⟩

theorem isSegment_of_valid
    (h : Providers.validatePathSegment field value lowercaseOnly = .ok ()) : Https.IsSegment value.toList := by
  obtain ⟨hsafe, hsingle, hdouble⟩ := validatePathSegment_ok h
  exact ⟨fun c hc => plain_of_safe (hsafe c hc), fun heq => hsingle (String.toList_injective heq),
    fun heq => hdouble (String.toList_injective heq)⟩

theorem isSegment_method (h : Providers.validatePathSegment field value lowercaseOnly = .ok ()) :
    Https.IsSegment (value ++ ":streamGenerateContent").toList := by
  obtain ⟨hsafe, -⟩ := validatePathSegment_ok h
  have hlength : 2 < (value ++ ":streamGenerateContent").toList.length := by
    rw [String.toList_append, List.length_append]
    exact Nat.lt_add_left _ (by decide)
  refine ⟨fun c hc => ?_, fun heq => ?_, fun heq => ?_⟩
  · rw [String.toList_append] at hc
    rcases List.mem_append.mp hc with hc | hc
    · exact plain_of_safe (hsafe c hc)
    · have hall : ":streamGenerateContent".toList.all Https.isTextChar = true := rfl
      exact List.all_eq_true.mp hall c hc
  · rw [heq] at hlength
    exact absurd hlength (by decide)
  · rw [heq] at hlength
    exact absurd hlength (by decide)

theorem vertex_segments {options : Providers.VertexAiOptions}
    (h : Providers.validateVertexOptions options = .ok ()) :
    Providers.validatePathSegment "projectId" options.projectId true = .ok () ∧
      Providers.validatePathSegment "location" options.location true = .ok () := by
  obtain ⟨_, hproject, h⟩ := except_bind_ok.mp h
  obtain ⟨_, hlocation, _⟩ := except_bind_ok.mp h
  exact ⟨hproject, hlocation⟩

theorem fixedSegments_isSegment : ∀ s ∈ ["v1", "responses", "messages", "chat", "completions", "api",
    "v1beta", "models", "projects", "locations", "publishers", "google"], Https.IsSegment s.toList := by
  decide

theorem officialSegments_isSegment [Tools.FloatText] (h : Providers.validateRequest request = .ok ()) :
    ∀ s ∈ officialSegments request, Https.IsSegment s.toList := by
  obtain ⟨hprovider, _, hmodel, _, _, _, hvalid, _⟩ := Providers.validateRequest_ok.mp h
  have hfixed := fixedSegments_isSegment
  rw [hprovider] at hmodel
  rw [Providers.validateProviderOptions] at hvalid
  rw [officialSegments]
  simp only [List.forall_mem_cons] at hfixed
  obtain ⟨hv1, hresponses, hmessages, hchat, hcompletions, hapi, hv1beta, hmodels, hprojects, hlocations,
    hpublishers, hgoogle, hnil⟩ := hfixed
  cases hoptions : request.providerOptions with
  | openAi options => simpa only [List.forall_mem_cons] using ⟨hv1, hresponses, hnil⟩
  | anthropic options => simpa only [List.forall_mem_cons] using ⟨hv1, hmessages, hnil⟩
  | deepSeek options => simpa only [List.forall_mem_cons] using ⟨hchat, hcompletions, hnil⟩
  | ollamaCloud options => simpa only [List.forall_mem_cons] using ⟨hapi, hchat, hnil⟩
  | googleGemini options =>
    rw [hoptions] at hmodel
    have hid := isSegment_method (hmodel (.inl rfl))
    simpa only [List.forall_mem_cons] using ⟨hv1beta, hmodels, hid, hnil⟩
  | googleVertexAi options =>
    rw [hoptions] at hmodel hvalid
    obtain ⟨hproject, hlocation⟩ := vertex_segments hvalid
    have hid := isSegment_method (hmodel (.inr rfl))
    simpa only [List.forall_mem_cons] using ⟨hv1, hprojects, isSegment_of_valid hproject, hlocations,
      isSegment_of_valid hlocation, hpublishers, hgoogle, hmodels, hid, hnil⟩

def fixedHosts : List String :=
  ["api.openai.com", "api.anthropic.com", "api.deepseek.com", "ollama.com",
    "generativelanguage.googleapis.com", "aiplatform.googleapis.com"]

theorem fixedHosts_com : ∀ host ∈ fixedHosts,
    Https.IsName host.toList ∧ ".com".toList <:+ host.toList := by
  decide

theorem officialHost_cases (request : ProviderRequest) : officialHost request ∈ fixedHosts ∨
    ∃ options, request.providerOptions = .googleVertexAi options ∧
      (officialHost request).toList =
        (options.location.toList ++ "-aiplatform.googleapis".toList) ++ '.' :: "com".toList := by
  rw [officialHost]
  cases request.providerOptions with
  | openAi options | anthropic options | deepSeek options | ollamaCloud options | googleGemini options =>
    exact .inl (by simp [fixedHosts])
  | googleVertexAi options =>
    simp only
    split
    · exact .inl (by simp [fixedHosts])
    · refine .inr ⟨options, rfl, ?_⟩
      rw [String.toList_append, List.append_assoc]
      rfl

theorem officialHost_isName [Tools.FloatText] (h : Providers.validateRequest request = .ok ()) :
    Https.IsName (officialHost request).toList := by
  obtain ⟨_, _, _, _, _, _, hvalid, _⟩ := Providers.validateRequest_ok.mp h
  rcases officialHost_cases request with hfixed | ⟨options, hoptions, hhost⟩
  · exact (fixedHosts_com _ hfixed).1
  · -- the location is in front of fixed labels, of which the last is a name
    rw [Providers.validateProviderOptions, hoptions] at hvalid
    have hfixed : ("-aiplatform.googleapis".toList ++ '.' :: "com".toList).all Https.isPlainLower = true := rfl
    rw [hhost]
    refine Https.isName_append (fun c hc => ?_) (by decide) rfl
    rw [List.append_assoc] at hc
    rcases List.mem_append.mp hc with hc | hc
    · exact (validatePathSegment_ok (vertex_segments hvalid).2).1 c hc
    · exact List.all_eq_true.mp hfixed c hc

theorem officialSegments_ne_nil (request : ProviderRequest) : officialSegments request ≠ [] := by
  unfold officialSegments
  cases request.providerOptions <;> simp

theorem officialQuery_text (request : ProviderRequest) :
    ∀ q ∈ officialQuery request, ∀ c ∈ q.toList, Https.isTextChar c = true := by
  have hquery : "alt=sse".toList.all Https.isTextChar = true := rfl
  intro q hq
  have hq : q = "alt=sse" := by
    unfold officialQuery at hq
    cases hoptions : request.providerOptions <;> simp_all
  rw [hq]
  exact List.all_eq_true.mp hquery

theorem official_path (h : ∀ s ∈ officialSegments request, Https.IsSegment s.toList) :
    (String.ofList (Https.pathText ((officialSegments request).map String.toList))).toList.tail.splitOnP
      Https.isSlash = (officialSegments request).map String.toList := by
  rw [String.toList_ofList]
  cases hsegments : officialSegments request with
  | nil => exact absurd hsegments (officialSegments_ne_nil request)
  | cons segment rest =>
    rw [hsegments] at h
    exact Https.splitOnP_pathText (List.forall_mem_map.mpr h)

/-- Every official host is under `.com`. -/
theorem officialHost_com (request : ProviderRequest) : ".com".toList <:+ (officialHost request).toList := by
  rcases officialHost_cases request with hfixed | ⟨options, _, hhost⟩
  · exact (fixedHosts_com _ hfixed).2
  · rw [hhost]
    exact List.suffix_append _ _

theorem refused_endings : ∀ ending ∈ [".", ".localhost", ".local", ".internal", ".home.arpa"],
    ¬ ending.toList <:+ ".com".toList ∧ ¬ ".com".toList <:+ ending.toList := by
  decide

/-- A name under `.com` is neither local nor does it end in a dot. -/
theorem validateDomain_com {domain : String} (h : ".com".toList <:+ domain.toList) :
    validateDomain domain = .ok () := by
  -- of two endings of one text the shorter is an ending of the longer
  have hother : ∀ text ending : String, ".com".toList <:+ text.toList →
      ending ∈ [".", ".localhost", ".local", ".internal", ".home.arpa"] → endsWith text ending = false := by
    intro text ending htext hmem
    obtain ⟨hshort, hlong⟩ := refused_endings ending hmem
    rw [endsWith, Bool.eq_false_iff]
    intro hending
    rcases List.suffix_or_suffix_of_suffix (List.isSuffixOf_iff_suffix.mp hending) htext with hs | hs
    · exact hshort hs
    · exact hlong hs
  have hlower : ".com".toList <:+ domain.toLower.toList := by
    rw [String.toLower, String.toList_map]
    exact h.map Char.toLower
  have hempty : domain.toLower ≠ "" := fun heq => absurd (heq ▸ hlower) (by decide)
  have hlocal : domain.toLower ≠ "localhost" := fun heq => absurd (heq ▸ hlower) (by decide)
  rw [validateDomain, except_bind_ok]
  refine ⟨(), ensure_ok.mpr (hother _ _ h (by simp)), ensure_ok.mpr ?_⟩
  simp only [isLocalName, Bool.or_eq_false_iff, decide_eq_false_iff_not]
  exact ⟨⟨⟨⟨⟨hempty, hlocal⟩, hother _ _ hlower (by simp)⟩, hother _ _ hlower (by simp)⟩,
    hother _ _ hlower (by simp)⟩, hother _ _ hlower (by simp)⟩

theorem Official.validateCommonUrl {url : Url} (h : Official request url) :
    validateCommonUrl url = .ok () := by
  refine except_bind_ok.mpr ⟨(), ensure_ok.mpr h.scheme, ?_⟩
  refine except_bind_ok.mpr ⟨(), ensure_ok.mpr ⟨h.username, h.password⟩, ?_⟩
  refine except_bind_ok.mpr ⟨(), ensure_ok.mpr h.fragment, ?_⟩
  refine except_bind_ok.mpr ⟨(), ensure_ok.mpr (by simp [h.port]), ?_⟩
  rw [h.host]
  exact validateDomain_com (officialHost_com request)

/-- What is left to `official_url` if the texts agree and the URL is fit. -/
theorem officialUrl_eq {P : Parser} {text : String} (hexpected : expectedUrl request = .ok text)
    (hsame : compiled.origin ++ compiled.pathAndQuery = text)
    (hcommon : ∀ url, P.parse text = some url → ProviderRuntime.validateCommonUrl url = .ok ()) :
    officialUrl P request compiled =
      required (invalidCompiled "compiled official endpoint was not a valid URL") (P.parse text) := by
  have hensure : ensure (compiled.origin ++ compiled.pathAndQuery = text)
      (invalidCompiled "compiled official endpoint did not match the provider allowlist") = .ok () :=
    ensure_ok.mpr hsame
  rw [officialUrl, hexpected]
  show (ensure _ _ >>= fun _ => _) = _
  rw [hensure]
  show (required _ _ >>= fun url => _) = _
  cases hparsed : P.parse text with
  | none => rfl
  | some url =>
    show (ProviderRuntime.validateCommonUrl url >>= fun _ => _) = _
    rw [hcommon url hparsed]
    rfl

theorem officialHost_vertex (h : request.providerOptions.providerId = .googleVertexAi) :
    endsWith (officialHost request) "aiplatform.googleapis.com" = true := by
  rw [endsWith, List.isSuffixOf_iff_suffix, officialHost]
  cases hoptions : request.providerOptions with
  | openAi options | anthropic options | deepSeek options | ollamaCloud options | googleGemini options =>
    rw [hoptions] at h
    cases h
  | googleVertexAi options =>
    simp only
    split
    · exact List.suffix_refl _
    · rw [String.toList_append]
      exact List.IsSuffix.trans ⟨['-'], rfl⟩ (List.suffix_append _ _)

end

/-- Whatever ids an accepted request has, its URL is the official one: the runtime's checks pass,
the two URLs are one text, and as a URL it has the parts of `Official`. -/
theorem official_endpoint_fixed [Tools.FloatText] (P : Parser) (request : ProviderRequest)
    (compiled : CompiledProviderRequest) (h : Providers.compileRequest request = .ok compiled) :
    validateCompiledWireContract request compiled = .ok () ∧
      expectedUrl request = .ok (compiled.origin ++ compiled.pathAndQuery) ∧
      officialUrl P request compiled =
        required (invalidCompiled "compiled official endpoint was not a valid URL")
          (P.parse (compiled.origin ++ compiled.pathAndQuery)) ∧
      ((∀ label ∈ labels (officialHost request).toList, isEncodedLabel label = false) →
        ∃ url, officialUrl P request compiled = .ok url) ∧
      (∀ url, P.parse (compiled.origin ++ compiled.pathAndQuery) = some url → Official request url) ∧
      (∀ s ∈ officialSegments request, Https.IsSegment s.toList) ∧
      (request.provider = .googleVertexAi →
        endsWith (officialHost request) "aiplatform.googleapis.com" = true) := by
  obtain ⟨hvalid, typed, body, htyped, -, rfl⟩ := Providers.compileRequest_ok.mp h
  have hprovider := (Providers.validateRequest_ok.mp hvalid).1
  have hurl := compileTyped_url htyped
  have hexpected := expectedUrl_eq hprovider
  obtain ⟨hid, hauth, hprotocol, hheaders⟩ := compileTyped_contract htyped
  have hsegments := officialSegments_isSegment hvalid
  have hname := officialHost_isName hvalid
  have hparse := P.parse_urlText hname hsegments (officialSegments_ne_nil request) (officialQuery_text request)
  have hofficial : ∀ url, P.parse (officialText request) = some url → Official request url := by
    intro url hurl
    rw [officialText, hparse, Option.map_eq_some_iff] at hurl
    obtain ⟨host, hhost, rfl⟩ := hurl
    have hkept := P.host_kept _ _ hname hhost
    rw [String.ofList_toList] at hkept
    exact ⟨rfl, rfl, rfl, congrArg some hkept, rfl, official_path hsegments, rfl, rfl⟩
  have hrun : officialUrl P request { typed with body, tokenizerOverride := request.tokenizerOverride } =
      required (invalidCompiled "compiled official endpoint was not a valid URL")
        (P.parse (officialText request)) := by
    exact officialUrl_eq hexpected hurl fun url hparsed => (hofficial url hparsed).validateCommonUrl
  refine ⟨?_, ?_, ?_, ?_, ?_, hsegments, ?_⟩
  · refine except_bind_ok.mpr ⟨(), ensure_ok.mpr (hid.trans hprovider.symm), ?_⟩
    refine except_bind_ok.mpr ⟨(), ensure_ok.mpr ?_, ensure_ok.mpr ?_⟩
    · rw [hprovider]
      exact ⟨hauth, hprotocol⟩
    · exact List.Perm.of_eq (hheaders hprovider)
  · rw [hexpected, hurl]
  · rw [hrun, hurl]
  · intro hlabels
    rw [hrun, officialText, hparse, P.host_accepted _ hname hlabels]
    exact ⟨_, rfl⟩
  · intro url
    rw [hurl]
    exact hofficial url
  · intro hvertex
    exact officialHost_vertex (hprovider ▸ hvertex)

def vertexRequest : ProviderRequest where
  provider := .googleVertexAi
  modelId := "gemini-2.5"
  messages := [⟨.user, "Hello"⟩]
  providerOptions := .googleVertexAi { projectId := "lore", location := "eu-west1" }

theorem vertexRequest_valid : @Providers.validateRequest Tools.unitsText vertexRequest = .ok () := by
  decide

theorem official_endpoint_fixed_vertex : ∃ compiled url,
    @Providers.compileRequest Tools.unitsText vertexRequest = .ok compiled ∧
      officialUrl Https.plainParser vertexRequest compiled = .ok url := by
  have hcompiled := (@Providers.compileRequest_ok Tools.unitsText vertexRequest _).mpr
    ⟨vertexRequest_valid, _, _, rfl, rfl, rfl⟩
  obtain ⟨_, _, _, hlabels, _⟩ :=
    @official_endpoint_fixed Tools.unitsText Https.plainParser vertexRequest _ hcompiled
  obtain ⟨url, hurl⟩ := hlabels (by decide)
  exact ⟨_, url, hcompiled, hurl⟩

/-! ## A loopback address in a 6to4 address -/

namespace EndpointSample

def request : ProviderRequest where
  provider := .openAi
  modelId := "m"
  messages := [⟨.user, "Hello"⟩]
  providerOptions := .openAi {}

def compiled : CompiledProviderRequest :=
  Providers.baseCompiled .openAi "https://api.openai.com" "/v1/responses" .authorizationBearer .sse []

def loopback : Ipv6Addr := ⟨0x20027f00000100000000000000000000#128⟩

/-- 2606:4700:4700::1111. -/
def resolver : Ipv6Addr := ⟨0x26064700470000000000000000001111#128⟩

def endpoint (address : Ipv6Addr) : ResolvedEndpoint where
  url :=
    { scheme := "https", username := "", password := none, host := some (.domain "api.openai.com"),
      port := none, path := "/v1/responses", query := none, fragment := none }
  host := "api.openai.com"
  pinnedAddresses := [⟨.v6 address, 443⟩]
  isOverride := false

theorem resolve_loopback : resolveEndpoint Https.plainParser (fun _ _ => .answers [.v6 loopback]) request
    compiled .official = .ok (endpoint loopback) := by
  decide +kernel

theorem resolve_resolver : resolveEndpoint Https.plainParser (fun _ _ => .answers [.v6 resolver]) request
    compiled .official = .ok (endpoint resolver) := by
  decide +kernel

end EndpointSample

open EndpointSample

/-- The 6to4 address of the loopback address is pinned. -/
theorem sixToFour_loopback_pinned :
    resolveEndpoint Https.plainParser (fun _ _ => .answers [.v6 loopback]) request compiled .official =
        .ok (endpoint loopback) ∧
      loopback.SixToFour ∧ loopback.inner 2 = ⟨127, 0, 0, 1⟩ ∧
      isPublicIp (.v4 ⟨127, 0, 0, 1⟩) = false ∧ ¬ Guarded (endpoint loopback).pinnedAddresses := by
  have hinner : loopback.inner 2 = ⟨127, 0, 0, 1⟩ := by decide
  have hsix : loopback.SixToFour := by decide
  refine ⟨resolve_loopback, hsix, hinner, by decide, fun hguarded => ?_⟩
  have hpublic := hguarded.sixToFour loopback 443 (by simp [endpoint]) hsix
  rw [hinner] at hpublic
  exact absurd hpublic (by decide)

theorem resolveEndpoint_guarded_iff_resolver : Guarded (endpoint resolver).pinnedAddresses := by
  obtain ⟨port, answers, hanswers, hguarded, _⟩ := resolveEndpoint_guarded_iff Https.plainParser
    (fun _ _ => .answers [.v6 resolver]) request compiled .official (endpoint resolver) resolve_resolver
  cases hanswers
  refine hguarded.mpr fun answer hanswer hholds => ?_
  obtain rfl := List.mem_singleton.mp hanswer
  exact absurd hholds.1 (by decide)

end Lorepia.ProviderRuntime
