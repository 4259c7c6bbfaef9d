import Lorepia.Prompt.Compile

/-!
# A compiled prompt can be sent

`compile_prompt` and the providers crate's `validate_messages` are written apart, with their own
limits. The order of the roles is kept by every push (`Ready`) and is all that the transforms
leave alone; contents and sizes are checked again after them.
-/

namespace Lorepia.Prompt

open Providers (ChatMessage MessageRole isBlank scanMessages validateMessages)

variable {ρ : Type}

/-! ## The order of roles -/

def SystemFirst : List MessageRole → Bool → Prop
  | [], _ => True
  | role :: rest, started =>
    ¬ (role = .system ∧ started = true) ∧ SystemFirst rest (started || decide (role ≠ .system))

def startedBy (roles : List MessageRole) : Bool := roles.any fun role => decide (role ≠ .system)

theorem systemFirst_append {roles : List MessageRole} {role : MessageRole} {started : Bool}
    (h : SystemFirst roles started) (hrole : ¬ (role = .system ∧ (started || startedBy roles) = true)) :
    SystemFirst (roles ++ [role]) started := by
  induction roles generalizing started with
  | nil =>
    refine ⟨?_, trivial⟩
    simpa [startedBy] using hrole
  | cons first rest ih =>
    refine ⟨h.1, ih h.2 ?_⟩
    simpa [startedBy, Bool.or_assoc] using hrole

variable {messages : List ChatMessage}

theorem SystemFirst.split (h : SystemFirst (messages.map (·.role)) false) :
    ∃ systems conversation, messages = systems ++ conversation ∧
      (∀ message ∈ systems, message.role = .system) ∧
      ∀ message ∈ conversation, message.role ≠ .system := by
  have hstarted : ∀ messages : List ChatMessage, SystemFirst (messages.map (·.role)) true →
      ∀ message ∈ messages, message.role ≠ .system := by
    intro messages
    induction messages with
    | nil =>
      intro _ message hmem
      cases hmem
    | cons first rest ih =>
      intro h message hmem
      obtain rfl | hmem := List.mem_cons.mp hmem
      · exact fun hsystem => h.1 ⟨hsystem, rfl⟩
      · exact ih h.2 message hmem
  induction messages with
  | nil => exact ⟨[], [], rfl, fun _ hmem => (nomatch hmem), fun _ hmem => (nomatch hmem)⟩
  | cons first rest ih =>
    by_cases hfirst : first.role = .system
    · -- still before the conversation
      have hrest : SystemFirst (rest.map (·.role)) false := by
        simpa [hfirst] using h.2
      obtain ⟨systems, conversation, rfl, hsystems, hconversation⟩ := ih hrest
      refine ⟨first :: systems, conversation, rfl, fun message hmem => ?_, hconversation⟩
      obtain rfl | hmem := List.mem_cons.mp hmem
      · exact hfirst
      · exact hsystems message hmem
    · have hrest : SystemFirst (rest.map (·.role)) true := by
        simpa [hfirst] using h.2
      refine ⟨[], first :: rest, rfl, fun _ hmem => (nomatch hmem), fun message hmem => ?_⟩
      obtain rfl | hmem := List.mem_cons.mp hmem
      · exact hfirst
      · exact hstarted rest hrest message hmem

/-! ## Pushing messages -/

/-- What holds of a state whatever has been pushed. -/
structure Ready (state : CompileState) : Prop where
  count : state.messages.length ≤ maxCompiledMessages
  ordered : SystemFirst (state.messages.map (·.role)) false
  started : state.conversationStarted = startedBy (state.messages.map (·.role))

namespace Ready

variable {state state' : CompileState} {source : MessageSource} {vars : List (String × String)}

theorem initial : Ready {} := ⟨Nat.zero_le _, trivial, rfl⟩

theorem push (h : Ready state) {message : ChatMessage} (hpush : state.push message source = .ok state') :
    Ready state' := by
  obtain ⟨_, _, hpush⟩ := except_bind_ok.mp hpush
  obtain ⟨_, hcount, hpush⟩ := except_bind_ok.mp hpush
  obtain ⟨_, hrole, hpush⟩ := except_bind_ok.mp hpush
  obtain ⟨_, _, hpush⟩ := except_bind_ok.mp hpush
  cases hpush
  have hrole := ensure_ok.mp hrole
  constructor
  case count =>
    have hcount := ensure_ok.mp hcount
    show (state.messages ++ [message]).length ≤ maxCompiledMessages
    rw [List.length_append, List.length_singleton]
    omega
  case ordered =>
    show SystemFirst ((state.messages ++ [message]).map (·.role)) false
    rw [List.map_append]
    refine systemFirst_append h.ordered ?_
    rw [Bool.false_or, ← h.started]
    exact hrole
  case started =>
    show (state.conversationStarted || decide (message.role ≠ .system)) =
      startedBy ((state.messages ++ [message]).map (·.role))
    simp [h.started, startedBy]

variable {role : PromptRole} {blockIndex : Nat} {input : PromptCompileInput}

theorem pushTemplate (h : Ready state) {template : String}
    (hpush : state.pushTemplate role template vars source = .ok state') : Ready state' := by
  obtain ⟨content, _, hpush⟩ := except_bind_ok.mp hpush
  exact h.push hpush

theorem pushDynamicContent (h : Ready state) {format : ContentFormat} {value : String}
    (hpush : state.pushDynamicContent role format value vars source = .ok state') : Ready state' := by
  unfold CompileState.pushDynamicContent at hpush
  split at hpush
  · cases hpush
    exact h
  · obtain ⟨content, _, hpush⟩ := except_bind_ok.mp hpush
    exact h.push hpush

theorem pushSynthetic (h : Ready state) {message : Option SyntheticMessage}
    (hpush : state.pushSynthetic message vars source = .ok state') : Ready state' := by
  cases message with
  | none =>
    cases hpush
    exact h
  | some message => exact h.pushTemplate hpush

theorem pushHistory {messages : List ChatMessage} {historyIndex : Nat}
    (h : Ready state) (hpush : state.pushHistory blockIndex messages historyIndex = .ok state') :
    Ready state' := by
  induction messages generalizing state historyIndex with
  | nil =>
    cases hpush
    exact h
  | cons message rest ih =>
    obtain ⟨next, hnext, hpush⟩ := except_bind_ok.mp hpush
    exact ih (h.push hnext) hpush

theorem markSpecial (h : Ready state)
    {special : Option RawPromptSpecial} (hmark : state.markSpecial blockIndex role special = .ok state') :
    Ready state' := by
  cases special with
  | none =>
    cases hmark
    exact h
  | some special =>
    obtain ⟨_, _, hmark⟩ := except_bind_ok.mp hmark
    obtain ⟨_, _, hmark⟩ := except_bind_ok.mp hmark
    cases hmark
    exact ⟨h.count, h.ordered, h.started⟩

theorem compileBlock (h : Ready state) {block : PromptBlock}
    (hblock : compileBlock input vars blockIndex block state = .ok state') : Ready state' := by
  cases block with
  | raw name enabled role special prompt =>
    obtain ⟨marked, hmark, hblock⟩ := except_bind_ok.mp hblock
    exact (h.markSpecial hmark).pushTemplate hblock
  | chat name enabled selection =>
    obtain ⟨_, _, hblock⟩ := except_bind_ok.mp hblock
    exact h.pushHistory hblock
  | persona name enabled role format => exact h.pushDynamicContent hblock
  | characterDescription name enabled role format => exact h.pushDynamicContent hblock
  | authorNote name enabled role defaultPrompt format =>
    obtain ⟨value, _, hblock⟩ := except_bind_ok.mp hblock
    exact h.pushDynamicContent hblock
  | lorebook name enabled role format => exact h.pushDynamicContent hblock
  | longTermMemory name enabled role format => exact h.pushDynamicContent hblock
  | finalInsertion name enabled role prompt =>
    unfold Prompt.compileBlock at hblock
    simp only at hblock
    split at hblock
    · exact h.pushTemplate hblock
    · exact h.push hblock
  | chatMl name enabled role prompt => exact h.pushTemplate hblock
  | cachePoint name enabled depth role =>
    cases hblock
    exact ⟨h.count, h.ordered, h.started⟩

theorem compileBlocks {blocks : List PromptBlock}
    (h : Ready state) (hblocks : compileBlocks input vars blocks blockIndex state = .ok state') :
    Ready state' := by
  induction blocks generalizing state blockIndex with
  | nil =>
    cases hblocks
    exact h
  | cons block rest ih =>
    unfold Prompt.compileBlocks at hblocks
    split at hblocks
    · obtain ⟨next, hnext, hblocks⟩ := except_bind_ok.mp hblocks
      exact ih (h.compileBlock hnext) hblocks
    · exact ih h hblocks

theorem compileMessages {preset : PromptPreset}
    (hmessages : compileMessages preset input vars = .ok state') : Ready state' := by
  obtain ⟨_, hpreamble, hmessages⟩ := except_bind_ok.mp hmessages
  obtain ⟨_, hblocks, hmessages⟩ := except_bind_ok.mp hmessages
  obtain ⟨_, hepilogue, hmessages⟩ := except_bind_ok.mp hmessages
  obtain ⟨_, _, hmessages⟩ := except_bind_ok.mp hmessages
  cases hmessages
  exact ((initial.pushSynthetic hpreamble).compileBlocks hblocks).pushSynthetic hepilogue

end Ready

/-! ## After the transforms -/

def Sendable (message : ChatMessage) : Prop :=
  isBlank message.content = false ∧ '\x00' ∉ message.content.toList

def contentBytes (messages : List ChatMessage) : Nat :=
  (messages.map fun message => message.content.utf8ByteSize).sum

theorem transformMessages_spec {R : RegexEngine ρ} {transformed : List ChatMessage}
    {pipeline : CompiledTransformPipeline ρ} {bytes : Nat}
    (h : transformMessages R messages pipeline bytes = .ok transformed)
    (hbytes : bytes ≤ maxCompiledMessageBytes) :
    transformed.map (·.role) = messages.map (·.role) ∧ (∀ message ∈ transformed, Sendable message) ∧
      bytes + contentBytes transformed ≤ maxCompiledMessageBytes := by
  induction messages generalizing pipeline bytes transformed with
  | nil =>
    cases h
    exact ⟨rfl, fun _ hmem => (nomatch hmem), hbytes⟩
  | cons message rest ih =>
    obtain ⟨⟨content, next⟩, _, h⟩ := except_bind_ok.mp h
    obtain ⟨_, hcontent, h⟩ := except_bind_ok.mp h
    obtain ⟨_, hsize, h⟩ := except_bind_ok.mp h
    obtain ⟨others, hothers, h⟩ := except_bind_ok.mp h
    cases h
    obtain ⟨hroles, hsendable, htotal⟩ := ih hothers (ensure_ok.mp hsize)
    obtain ⟨_, hblank, hcontent⟩ := except_bind_ok.mp hcontent
    obtain ⟨_, hnul, _⟩ := except_bind_ok.mp hcontent
    refine ⟨by rw [List.map_cons, List.map_cons, hroles], fun other hmem => ?_, ?_⟩
    · obtain rfl | hmem := List.mem_cons.mp hmem
      · exact ⟨ensure_ok.mp hblank, ensure_ok.mp hnul⟩
      · exact hsendable other hmem
    · simp only [contentBytes, List.map_cons, List.sum_cons] at htotal ⊢
      omega

theorem scanMessages_eq {bytes : Nat} {started : Bool}
    (hsendable : ∀ message ∈ messages, Sendable message)
    (hordered : SystemFirst (messages.map (·.role)) started) :
    scanMessages messages ⟨bytes, started⟩ =
      .ok ⟨bytes + contentBytes messages, started || startedBy (messages.map (·.role))⟩ := by
  induction messages generalizing bytes started with
  | nil => simp [scanMessages, contentBytes, startedBy]
  | cons message rest ih =>
    obtain ⟨hblank, hnul⟩ := hsendable message List.mem_cons_self
    have hrest : ∀ other ∈ rest, Sendable other := fun other hmem =>
      hsendable other (List.mem_cons_of_mem _ hmem)
    refine except_bind_ok.mpr ⟨⟨⟩, ensure_ok.mpr hblank, ?_⟩
    refine except_bind_ok.mpr ⟨⟨⟩, ensure_ok.mpr hnul, ?_⟩
    refine except_bind_ok.mpr ⟨⟨⟩, ensure_ok.mpr hordered.1, ?_⟩
    rw [ih hrest hordered.2]
    simp only [contentBytes, startedBy, List.map_cons, List.sum_cons, List.any_cons, Bool.or_assoc,
      Nat.add_assoc]

/-- What `compile_prompt` returns. -/
theorem compilePrompt_messages {R : RegexEngine ρ} {preset : PromptPreset} {input : PromptCompileInput}
    {prompt : CompiledPrompt} (h : compilePrompt R preset input = .ok prompt) :
    SystemFirst (prompt.messages.map (·.role)) false ∧ (∀ message ∈ prompt.messages, Sendable message) ∧
      prompt.messages.length ≤ maxCompiledMessages ∧
      contentBytes prompt.messages ≤ maxCompiledMessageBytes := by
  obtain ⟨_, _, h⟩ := except_bind_ok.mp h
  obtain ⟨_, _, h⟩ := except_bind_ok.mp h
  obtain ⟨_, _, h⟩ := except_bind_ok.mp h
  obtain ⟨vars, _, h⟩ := except_bind_ok.mp h
  obtain ⟨state, hstate, h⟩ := except_bind_ok.mp h
  obtain ⟨_, _, h⟩ := except_bind_ok.mp h
  obtain ⟨pipeline, _, h⟩ := except_bind_ok.mp h
  obtain ⟨messages, hmessages, h⟩ := except_bind_ok.mp h
  cases h
  have hready := Ready.compileMessages hstate
  obtain ⟨hroles, hsendable, hbytes⟩ := transformMessages_spec hmessages (Nat.zero_le _)
  refine ⟨?_, hsendable, ?_, ?_⟩
  · show SystemFirst (messages.map (·.role)) false
    rw [hroles]
    exact hready.ordered
  · have hlength := congrArg List.length hroles
    rw [List.length_map, List.length_map] at hlength
    show messages.length ≤ maxCompiledMessages
    rw [hlength]
    exact hready.count
  · rw [Nat.zero_add] at hbytes
    exact hbytes

/-- A compiled prompt with a conversation is accepted by the providers crate. -/
theorem compiled_prompt_accepted (R : RegexEngine ρ) (preset : PromptPreset) (input : PromptCompileInput)
    (prompt : CompiledPrompt) (h : compilePrompt R preset input = .ok prompt)
    (hconversation : ∃ message ∈ prompt.messages, message.role ≠ .system) :
    validateMessages prompt.messages = .ok () ∧
      (∃ systems conversation, prompt.messages = systems ++ conversation ∧
        (∀ message ∈ systems, message.role = .system) ∧
        ∀ message ∈ conversation, message.role ≠ .system) ∧
      (∀ message ∈ prompt.messages, isBlank message.content = false ∧ '\x00' ∉ message.content.toList) ∧
      prompt.messages.length ≤ Providers.maxMessageCount ∧
      (prompt.messages.map fun message => message.content.utf8ByteSize).sum ≤ Providers.maxMessageBytes := by
  obtain ⟨hordered, hsendable, hcount, hbytes⟩ := compilePrompt_messages h
  refine ⟨?_, hordered.split, hsendable, hcount, hbytes⟩
  have hstarted : startedBy (prompt.messages.map (·.role)) = true := by
    obtain ⟨message, hmem, hrole⟩ := hconversation
    exact List.any_eq_true.mpr ⟨message.role, List.mem_map_of_mem hmem, decide_eq_true hrole⟩
  unfold validateMessages
  refine except_bind_ok.mpr ⟨⟨⟩, ensure_ok.mpr hcount, ?_⟩
  refine except_bind_ok.mpr ⟨_, scanMessages_eq hsendable hordered, ?_⟩
  refine except_bind_ok.mpr ⟨⟨⟩, ensure_ok.mpr ?_, ensure_ok.mpr hstarted⟩
  show 0 + contentBytes prompt.messages ≤ Providers.maxMessageBytes
  rw [Nat.zero_add]
  exact hbytes

/-! A preset whose request rule puts every message into brackets. -/

def wholeText : RegexEngine Unit where
  build _ _ := some ()
  capturesLen _ := 1
  capturesIter _ text := [[some ⟨0, text.toList.length⟩]]

def bracketPreset : PromptPreset where
  name := "brackets"
  blocks := [.raw "main" true .system (some .main) "You are $\x7bname\x7d.",
    .chat "chat" true ⟨0, .endOfChat⟩]
  advanced.template.defaultVariables := [("name", "Ada")]
  advanced.regex := [⟨"brackets", true, .request, ".*", "[$\x7b0\x7d]", {}⟩]

def bracketInput : PromptCompileInput where
  history := [⟨.user, "Hello"⟩, ⟨.assistant, "Hi"⟩]

def bracketPrompt : CompiledPrompt where
  messages := [⟨.system, "[You are Ada.]"⟩, ⟨.user, "[Hello]"⟩, ⟨.assistant, "[Hi]"⟩]
  sourceMap := [.block 0 .raw, .history 1 0, .history 1 1]
  cachePoints := []
  activeTools := []
  activeModules := []
  sampling := some {}
  tokenCount := ⟨7, none⟩

theorem compiled_prompt_accepted_brackets :
    compilePrompt wholeText bracketPreset bracketInput = .ok bracketPrompt ∧
      validateMessages bracketPrompt.messages = .ok () := by
  have h : compilePrompt wholeText bracketPreset bracketInput = .ok bracketPrompt := by decide
  exact ⟨h, (compiled_prompt_accepted wholeText bracketPreset bracketInput bracketPrompt h
    ⟨⟨.user, "[Hello]"⟩, by decide, by decide⟩).1⟩

end Lorepia.Prompt
