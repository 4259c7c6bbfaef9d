import Lorepia.Lib.Memo
import Lorepia.Prompt.Validate

/-!
# Compiling a prompt (`compile.rs`)

The messages of a prompt are the preamble, what the enabled blocks contribute in their
order, and the epilogue. Each is pushed with the same checks; then the request transforms
rewrite all of them, and each is checked once more.
-/

namespace Lorepia.Prompt

open Providers (ChatMessage MessageRole isBlank)

def maxCompiledMessages : Nat := 10000
def maxCompiledMessageBytes : Nat := 4 * 1024 * 1024
def maxAvailableReferences : Nat := 256
def maxPersonaInputBytes : Nat := 64 * 1024
def maxLongTermMemoryInputBytes : Nat := 1024 * 1024

variable {ρ : Type}

inductive PromptBindingMode where
  | classic
  | modelPreset (usePromptParameters : Bool)
  deriving DecidableEq

structure PromptCompileInput where
  history : List ChatMessage := []
  persona : String := ""
  characterDescription : String := ""
  authorNote : Option String := none
  lorebook : String := ""
  longTermMemory : String := ""
  finalInsertion : String := ""
  vars : List (String × String) := []
  availableToolIds : List String := []
  availableModules : List ModuleReference := []
  bindingMode : PromptBindingMode := .classic

inductive MessageSource where
  | preamble
  | block (blockIndex : Nat) (kind : PromptBlockKind)
  | history (blockIndex historyIndex : Nat)
  | epilogue
  deriving DecidableEq

structure CachePoint where
  blockIndex : Nat
  messageIndex : Nat
  depth : Nat
  role : PromptRole
  deriving DecidableEq

structure PendingCachePoint where
  blockIndex : Nat
  depth : Nat
  role : PromptRole
  deriving DecidableEq

structure TokenCount where
  approximate : Nat
  exact : Option Nat
  deriving DecidableEq

structure CompiledPrompt where
  messages : List ChatMessage
  sourceMap : List MessageSource
  cachePoints : List CachePoint
  activeTools : List ToolReference
  activeModules : List ModuleReference
  sampling : Option PromptSampling
  tokenCount : TokenCount
  deriving DecidableEq

structure CompileState where
  messages : List ChatMessage := []
  sourceMap : List MessageSource := []
  pendingCachePoints : List PendingCachePoint := []
  messageBytes : Nat := 0
  conversationStarted : Bool := false
  /-- The specials of the raw blocks compiled so far. -/
  specials : List RawPromptSpecial := []

/-! ## The runtime input -/

def validateRuntimeVariables : List (String × String) → Nat → Result Unit
  | [], _ => .ok ()
  | entry :: rest, bytes => do
    validateVariable "runtime variables" entry
    ensure (bytes + entry.2.utf8ByteSize ≤ maxAuthoredTextBytes)
      (.payloadTooLarge "runtime variables" maxAuthoredTextBytes)
    validateRuntimeVariables rest (bytes + entry.2.utf8ByteSize)

def validateRuntimeInput (input : PromptCompileInput) : Result Unit := do
  ensure (input.persona.utf8ByteSize ≤ maxPersonaInputBytes)
    (.payloadTooLarge "persona" maxPersonaInputBytes)
  ensure ('\x00' ∉ input.persona.toList) (.invalidField "persona" "must contain no NUL")
  ensure (input.longTermMemory.utf8ByteSize ≤ maxLongTermMemoryInputBytes)
    (.payloadTooLarge "longTermMemory" maxLongTermMemoryInputBytes)
  ensure ('\x00' ∉ input.longTermMemory.toList) (.invalidField "longTermMemory" "must contain no NUL")
  ensure (input.vars.length ≤ maxVariables) (.tooManyItems "runtime variables" maxVariables)
  validateRuntimeVariables input.vars 0
  ensure (input.availableToolIds.length ≤ maxAvailableReferences)
    (.tooManyItems "available tool references" maxAvailableReferences)
  ensure (input.availableModules.length ≤ maxAvailableReferences)
    (.tooManyItems "available module references" maxAvailableReferences)

def checkActiveTools (available : List String) : List ToolReference → Result Unit
  | [] => .ok ()
  | reference :: rest => do
    ensure (reference.toolId ∈ available)
      (.invalidField "advanced.tools" ("active tool is unavailable: " ++ reference.toolId))
    checkActiveTools available rest

def checkActiveModules (available : List ModuleReference) : List ModuleReference → Result Unit
  | [] => .ok ()
  | reference :: rest => do
    ensure ({ reference with enabled := true } ∈ available)
      (.invalidField "advanced.modules"
        ("active pinned module is unavailable: " ++ reference.moduleId ++ "@" ++ reference.version))
    checkActiveModules available rest

def activeTools (preset : PromptPreset) : List ToolReference :=
  preset.advanced.tools.filter (·.enabled)

def activeModules (preset : PromptPreset) : List ModuleReference :=
  preset.advanced.modules.filter (·.enabled)

def validateRuntimeReferences (preset : PromptPreset) (input : PromptCompileInput) : Result Unit := do
  checkActiveTools input.availableToolIds (activeTools preset)
  checkActiveModules input.availableModules (activeModules preset)

/-- `BTreeMap::extend`. -/
def extendVariables (vars more : List (String × String)) : List (String × String) :=
  more.foldl (fun vars entry => Memo.insert (fun a b => decide (a < b)) entry.1 entry.2 vars) vars

def mergedVariables (preset : PromptPreset) (input : PromptCompileInput) :
    Result (List (String × String)) := do
  let vars := extendVariables preset.advanced.template.defaultVariables input.vars
  ensure (vars.length ≤ maxVariables) (.tooManyItems "merged variables" maxVariables)
  ensure (variableBytes vars ≤ maxAuthoredTextBytes)
    (.payloadTooLarge "merged variables" maxAuthoredTextBytes)
  .ok vars

/-! ## Messages -/

def validateMessageContent (content : String) : Result Unit := do
  ensure (isBlank content = false) (.invalidField "compiled message.content" "must not be empty")
  ensure ('\x00' ∉ content.toList) (.invalidField "compiled message.content" "must not contain NUL")
  ensure (content.utf8ByteSize ≤ maxCompiledMessageBytes)
    (.payloadTooLarge "compiled message.content" maxCompiledMessageBytes)

def CompileState.push (state : CompileState) (message : ChatMessage) (source : MessageSource) :
    Result CompileState := do
  validateMessageContent message.content
  ensure (state.messages.length < maxCompiledMessages)
    (.tooManyItems "compiled messages" maxCompiledMessages)
  ensure (¬ (message.role = .system ∧ state.conversationStarted = true))
    (.invalidField "compiled messages.role" "system messages must precede the conversation")
  ensure (state.messageBytes + message.content.utf8ByteSize ≤ maxCompiledMessageBytes)
    (.payloadTooLarge "compiled messages" maxCompiledMessageBytes)
  .ok
    { state with
      messages := state.messages ++ [message]
      sourceMap := state.sourceMap ++ [source]
      messageBytes := state.messageBytes + message.content.utf8ByteSize
      conversationStarted := state.conversationStarted || decide (message.role ≠ .system) }

def CompileState.pushTemplate (state : CompileState) (role : PromptRole) (template : String)
    (vars : List (String × String)) (source : MessageSource) : Result CompileState := do
  let content ← renderTemplate template vars
  state.push ⟨role.toMessageRole, content⟩ source

/-- `push_dynamic_content`: runtime content that is empty is left out. -/
def CompileState.pushDynamicContent (state : CompileState) (role : PromptRole) (format : ContentFormat)
    (value : String) (vars : List (String × String)) (source : MessageSource) : Result CompileState :=
  if value = "" then .ok state
  else do
    let content ← renderContent format value vars
    state.push ⟨role.toMessageRole, content⟩ source

def CompileState.pushSynthetic (state : CompileState) (message : Option SyntheticMessage)
    (vars : List (String × String)) (source : MessageSource) : Result CompileState :=
  match message with
  | some message => state.pushTemplate message.role message.template vars source
  | none => .ok state

def CompileState.pushHistory (state : CompileState) (blockIndex : Nat) :
    List ChatMessage → Nat → Result CompileState
  | [], _ => .ok state
  | message :: rest, historyIndex => do
    let state ← state.push message (.history blockIndex historyIndex)
    state.pushHistory blockIndex rest (historyIndex + 1)

def CompileState.markSpecial (state : CompileState) (blockIndex : Nat) (role : PromptRole) :
    Option RawPromptSpecial → Result CompileState
  | none => .ok state
  | some special => do
    ensure (role = .system)
      (.invalidField (blockField blockIndex "role") "special raw prompts must use the system role")
    ensure (special ∉ state.specials)
      (.invalidField (blockField blockIndex "special") "an enabled raw special may appear only once")
    .ok { state with specials := special :: state.specials }

def authorNoteValue (note defaultPrompt : Option String) (vars : List (String × String)) : Result String :=
  match note, defaultPrompt with
  | some note, _ => .ok note
  | none, some prompt => renderTemplate prompt vars
  | none, none => .ok ""

def compileBlock (input : PromptCompileInput) (vars : List (String × String)) (blockIndex : Nat)
    (block : PromptBlock) (state : CompileState) : Result CompileState :=
  let source := MessageSource.block blockIndex block.kind
  match block with
  | .raw _ _ role special prompt => do
    let state ← state.markSpecial blockIndex role special
    state.pushTemplate role prompt vars source
  | .chat _ _ selection => do
    let stop := match selection.stop with
      | .index stop => stop
      | .endOfChat => input.history.length
    ensure (selection.start < stop ∧ stop ≤ input.history.length)
      (.invalidField (blockField blockIndex "selection")
        ("history range must be a non-empty half-open interval within 0.." ++
          toString input.history.length))
    state.pushHistory blockIndex ((input.history.drop selection.start).take (stop - selection.start))
      selection.start
  | .persona _ _ role format => state.pushDynamicContent role format input.persona vars source
  | .characterDescription _ _ role format =>
    state.pushDynamicContent role format input.characterDescription vars source
  | .authorNote _ _ role defaultPrompt format => do
    let value ← authorNoteValue input.authorNote defaultPrompt vars
    state.pushDynamicContent role format value vars source
  | .lorebook _ _ role format => state.pushDynamicContent role format input.lorebook vars source
  | .longTermMemory _ _ role format =>
    state.pushDynamicContent role format input.longTermMemory vars source
  -- runtime content is data, never a template
  | .finalInsertion _ _ role prompt =>
    if input.finalInsertion = "" then state.pushTemplate role prompt vars source
    else state.push ⟨role.toMessageRole, input.finalInsertion⟩ source
  | .chatMl _ _ role prompt => state.pushTemplate role prompt vars source
  | .cachePoint _ _ depth role =>
    .ok { state with pendingCachePoints := state.pendingCachePoints ++ [⟨blockIndex, depth, role⟩] }

def compileBlocks (input : PromptCompileInput) (vars : List (String × String)) :
    List PromptBlock → Nat → CompileState → Result CompileState
  | [], _, state => .ok state
  | block :: rest, blockIndex, state =>
    if block.enabled then do
      let state ← compileBlock input vars blockIndex block state
      compileBlocks input vars rest (blockIndex + 1) state
    else compileBlocks input vars rest (blockIndex + 1) state

def compileMessages (preset : PromptPreset) (input : PromptCompileInput)
    (vars : List (String × String)) : Result CompileState := do
  let state ← ({} : CompileState).pushSynthetic preset.advanced.template.preamble vars .preamble
  let state ← compileBlocks input vars preset.blocks 0 state
  let state ← state.pushSynthetic preset.advanced.template.epilogue vars .epilogue
  ensure (state.messages ≠ []) (.invalidField "compiled messages" "at least one message is required")
  .ok state

/-- `resolve_cache_points`, with the messages addressed so far. -/
def resolveCachePoints (messages : List ChatMessage) :
    List PendingCachePoint → List Nat → Result (List CachePoint)
  | [], _ => .ok []
  | pending :: rest, targets => do
    ensure (¬ (pending.depth = 0 ∨ 16 < pending.depth ∨ messages.length < pending.depth))
      (.invalidField (blockField pending.blockIndex "depth")
        ("cache depth must be in 1..=16 and address one of the " ++ toString messages.length ++
          " final messages"))
    let messageIndex := messages.length - pending.depth
    ensure (messageIndex ∉ targets)
      (.invalidField (blockField pending.blockIndex "depth")
        "multiple cache points must not address the same final message")
    ensure (messages[messageIndex]?.map (·.role) = some pending.role.toMessageRole)
      (.invalidField (blockField pending.blockIndex "role")
        "cache-point role must match the addressed final message")
    let points ← resolveCachePoints messages rest (messageIndex :: targets)
    .ok (⟨pending.blockIndex, messageIndex, pending.depth, pending.role⟩ :: points)

/-- The loop that transforms the messages, with the bytes of those before. -/
def transformMessages (R : RegexEngine ρ) :
    List ChatMessage → CompiledTransformPipeline ρ → Nat → Result (List ChatMessage)
  | [], _, _ => .ok []
  | message :: rest, pipeline, transformedBytes => do
    let (content, pipeline) ← pipeline.apply R message.content
    validateMessageContent content
    ensure (transformedBytes + content.utf8ByteSize ≤ maxCompiledMessageBytes)
      (.payloadTooLarge "compiled messages" maxCompiledMessageBytes)
    let others ← transformMessages R rest pipeline (transformedBytes + content.utf8ByteSize)
    .ok ({ message with content } :: others)

def approximateTokens (messages : List ChatMessage) : TokenCount :=
  ⟨((messages.map fun message => message.content.toList.length).sum + 3) / 4, none⟩

def sampling (preset : PromptPreset) : PromptBindingMode → Option PromptSampling
  | .classic | .modelPreset true => some preset.sampling
  | .modelPreset false => none

def compilePrompt (R : RegexEngine ρ) (preset : PromptPreset) (input : PromptCompileInput) :
    Result CompiledPrompt := do
  validatePreset R preset
  validateRuntimeInput input
  validateRuntimeReferences preset input
  let vars ← mergedVariables preset input
  let state ← compileMessages preset input vars
  let cachePoints ← resolveCachePoints state.messages state.pendingCachePoints []
  let pipeline ← CompiledTransformPipeline.new R preset.advanced.regex .request
  let messages ← transformMessages R state.messages pipeline 0
  .ok
    { messages
      sourceMap := state.sourceMap
      cachePoints
      activeTools := activeTools preset
      activeModules := activeModules preset
      sampling := sampling preset input.bindingMode
      tokenCount := approximateTokens messages }

end Lorepia.Prompt
