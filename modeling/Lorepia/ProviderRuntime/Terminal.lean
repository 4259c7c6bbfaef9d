import Lorepia.ProviderRuntime.Decode

/-!
# What a frame is decoded to

Each provider ends a stream with a frame of its own (`sseTerminal`, `ndjsonTerminal`). DeepSeek,
Google and Ollama decoders pass a text on only if it is not empty; those of OpenAI and Anthropic
pass on what a delta frame carries, also the empty text (`emptyDelta`). One walk through each
decoder (`decode_sees`) shows that it ends exactly at a terminal frame, passes on an empty delta
exactly for such a frame, and that its errors are never those of a framer.
-/

namespace Lorepia.ProviderRuntime

open Providers (ProviderId)
open Tools (Value)

def sseTerminal (J : Json) (provider : ProviderId) (frame : SseFrame) : Bool :=
  match provider with
  | .openAi =>
    (J.fromStr frame.data).any fun value =>
      decide (getStr value ["type"] = some "response.completed" ∨
        getStr value ["type"] = some "response.incomplete")
  | .anthropic => (J.fromStr frame.data).any fun value => decide (getStr value ["type"] = some "message_stop")
  | .deepSeek => decide (trim frame.data = "[DONE]")
  | .googleGemini | .googleVertexAi =>
    (J.fromStr frame.data).any fun value =>
      (GoogleDecoder.candidates value).head?.any fun candidate =>
        (getStr candidate ["finishReason"]).isSome
  | .ollamaCloud => false

def ndjsonTerminal (J : Json) (provider : ProviderId) (frame : String) : Bool :=
  match provider with
  | .ollamaCloud => (J.fromStr frame).any fun value => decide (OllamaDecoder.isDone value = some true)
  | _ => false

def Serves (provider : ProviderId) (decoder : ProviderDecoder) : Prop :=
  match provider, decoder with
  | .openAi, .openAi _ | .anthropic, .anthropic _ | .deepSeek, .deepSeek _ | .ollamaCloud, .ollama _
  | .googleGemini, .google _ | .googleVertexAi, .google _ => True
  | _, _ => False

theorem serves_new (provider : ProviderId) :
    Serves provider (.new provider) ∧ (ProviderDecoder.new provider).terminal = none := by
  cases provider <;> exact ⟨trivial, rfl⟩

def ProviderStreamEvent.isEmptyDelta : ProviderStreamEvent → Bool
  | .textDelta text | .reasoningDelta text | .refusalDelta text => decide (text = "")
  | .providerResponseId _ | .usage _ => false

/-- The text that a frame of OpenAI or Anthropic carries as a delta. -/
def deltaText (provider : ProviderId) (value : Value) : Option String :=
  match provider with
  | .openAi =>
    if getStr value ["type"] ∈ [some "response.output_text.delta",
        some "response.reasoning_summary_text.delta", some "response.refusal.delta"] then
      getStr value ["delta"]
    else none
  | .anthropic =>
    if getStr value ["type"] = some "content_block_delta" then
      if getStr value ["delta", "type"] = some "text_delta" then getStr value ["delta", "text"]
      else if getStr value ["delta", "type"] = some "thinking_delta" then
        getStr value ["delta", "thinking"]
      else none
    else none
  | .deepSeek | .ollamaCloud | .googleGemini | .googleVertexAi => none

def emptyDelta (J : Json) (provider : ProviderId) (frame : SseFrame) : Bool :=
  (J.fromStr frame.data).any fun value => decide (deltaText provider value = some "")

/-! ## Errors -/

instance : DecidablePred FramingError := fun e => by
  unfold FramingError
  infer_instance

abbrev DecodingError (e : RuntimeError) : Prop := ¬ FramingError e

theorem decodingError_of {δ : Type} {P : δ → Prop} {e : RuntimeError} (h : DecodingError e) :
    Yields P DecodingError (.error e) := h

theorem providerError_decoding (code : String) : DecodingError (providerError code) := by
  unfold providerError
  split
  · decide
  · split <;> decide

theorem unexpectedToolEvent_decoding : DecodingError unexpectedToolEvent := providerError_decoding _

/-! ## Events that are not empty deltas -/

def Filled (events : List ProviderStreamEvent) : Prop := ∀ event ∈ events, event.isEmptyDelta = false

theorem Filled.nil : Filled [] := fun _ h => absurd h List.not_mem_nil

theorem Filled.append {first second : List ProviderStreamEvent} (hfirst : Filled first)
    (hsecond : Filled second) : Filled (first ++ second) := by
  intro event h
  obtain h | h := List.mem_append.mp h
  · exact hfirst event h
  · exact hsecond event h

theorem filled_deltaOf {event : String → ProviderStreamEvent}
    (hevent : ∀ text, (event text).isEmptyDelta = decide (text = "")) (text : Option String) :
    Filled (deltaOf event text) := by
  intro found h
  unfold deltaOf at h
  cases text with
  | none => exact absurd h List.not_mem_nil
  | some text =>
    dsimp only at h
    split at h
    · exact absurd h List.not_mem_nil
    · next hsome =>
      rw [List.mem_singleton.mp h, hevent, decide_eq_false_iff_not]
      exact hsome

theorem filled_usageEvents (usage : TokenUsage) : Filled (usageEvents usage) := by
  intro event h
  unfold usageEvents at h
  split at h
  · exact absurd h List.not_mem_nil
  · rw [List.mem_singleton.mp h]
    rfl

/-- What a frame says of deltas: an empty one is among the events exactly if `empty`. -/
def Deltas (empty : Bool) (events : List ProviderStreamEvent) : Prop :=
  events.any ProviderStreamEvent.isEmptyDelta = empty

theorem Filled.deltas {events : List ProviderStreamEvent} (h : Filled events) : Deltas false events :=
  List.any_eq_false.mpr fun event hevent => by simp [h event hevent]

theorem Filled.of_deltas {events : List ProviderStreamEvent} (h : Deltas false events) : Filled events :=
  fun event hevent => by simpa using List.any_eq_false.mp h event hevent

/-! ## The end of a stream -/

/-- What a decoded frame says about the end of the stream. -/
structure Ends (isTerminal : Bool) (decoded : DecodedFrame) (after : Option ProviderRunOutcome) : Prop where
  kept : after = decoded.terminal
  iff : decoded.terminal.isSome = isTerminal
  completed : ∀ outcome ∈ decoded.terminal, outcome ≠ .cancelled

theorem Ends.open {isTerminal : Bool} {events : List ProviderStreamEvent}
    {after : Option ProviderRunOutcome} (hterminal : isTerminal = false) (hafter : after = none) :
    Ends isTerminal ⟨events, none⟩ after :=
  ⟨hafter, hterminal.symm, fun _ h => nomatch h⟩

theorem Ends.closed {isTerminal : Bool} {events : List ProviderStreamEvent}
    {reason : Option CompletionReason} {usage : TokenUsage} (hterminal : isTerminal = true) :
    Ends isTerminal ⟨events, some (ProviderRuntime.completed reason usage)⟩
      (some (ProviderRuntime.completed reason usage)) := by
  refine ⟨rfl, hterminal.symm, fun outcome h => ?_⟩
  cases h
  exact fun hcancelled => nomatch hcancelled

/-- What a decoder makes of a frame, where `state` is the end it has noted. -/
def Sees {δ : Type} (state : δ → Option ProviderRunOutcome) (isTerminal empty : Bool)
    (result : Result (DecodedFrame × δ)) : Prop :=
  Yields (fun found => Ends isTerminal found.1 (state found.2) ∧ Deltas empty found.1.events)
    DecodingError result

section Sees

variable {δ : Type} {state : δ → Option ProviderRunOutcome} {d : δ} {isTerminal empty : Bool}
  {events : List ProviderStreamEvent}

theorem Sees.plain (hstate : state d = none) (hevents : Filled events) (hterminal : isTerminal = false)
    (hempty : empty = false) : Sees state isTerminal empty (.ok (⟨events, none⟩, d)) :=
  ⟨.open hterminal hstate, hempty ▸ hevents.deltas⟩

theorem Sees.text {event : String → ProviderStreamEvent} {text : String} (hstate : state d = none)
    (hevent : ∀ text, (event text).isEmptyDelta = decide (text = "")) (hterminal : isTerminal = false)
    (hempty : empty = decide (some text = some "")) :
    Sees state isTerminal empty (.ok (⟨[event text], none⟩, d)) :=
  ⟨.open hterminal hstate, by simp [Deltas, hevent, hempty]⟩

end Sees

theorem responseIdEvent_yields (id : String) :
    Yields (fun event => Filled [event]) DecodingError (responseIdEvent id) :=
  (Yields.ensure (by decide)).bind fun _ _ found hfound => by
    rw [List.mem_singleton.mp hfound]
    rfl

theorem parseJson_yields (J : Json) (data : String) :
    Yields (fun value => J.fromStr data = some value) DecodingError (parseJson J data) :=
  .required (by decide)

theorem ensureNoTerminal_yields (terminal : Option ProviderRunOutcome) :
    Yields (fun _ => terminal = none) DecodingError (ensureNoTerminal terminal) := .ensure (by decide)

theorem pinResponseId_yields (message : String)
    (hmessage : DecodingError (protocolError "RESPONSE_ID_CHANGED" message)) (current given : Option String) :
    Yields (fun found => Filled found.1) DecodingError (pinResponseId message current given) := by
  unfold pinResponseId
  split
  · exact .nil
  · exact (Yields.ensure hmessage).bind fun _ _ => .nil
  · exact (responseIdEvent_yields _).bind fun _ hevent => hevent

namespace OpenAiDecoder

theorem handle_sees {d : OpenAiDecoder} (hopen : d.terminal = none) {value : Value} {eventType : String}
    (htype : getStr value ["type"] = some eventType) :
    Sees terminal (decide (eventType = "response.completed" ∨ eventType = "response.incomplete"))
      (decide (deltaText .openAi value = some "")) (d.handle value eventType) := by
  have hdelta : ∀ event, (∀ text, (event text).isEmptyDelta = decide (text = "")) →
      deltaText .openAi value = getStr value ["delta"] →
      Sees terminal false (decide (deltaText .openAi value = some "")) (d.delta value event) :=
    fun event hevent hdelta => (Yields.required (by decide)).bind fun text htext =>
      Sees.text hopen hevent rfl (by rw [hdelta, htext])
  have hother : some eventType ∉ [some "response.output_text.delta",
      some "response.reasoning_summary_text.delta", some "response.refusal.delta"] →
      decide (deltaText .openAi value = some "") = false := fun h => by
    rw [deltaText, htype, if_neg h]
    rfl
  unfold handle
  split
  · next h =>
    subst h
    unfold created
    split
    · exact (responseIdEvent_yields _).bind fun _ hevent =>
        Sees.plain hopen hevent rfl (hother (by decide))
    · exact Sees.plain hopen .nil rfl (hother (by decide))
  iterate 3
    split
    · next h =>
      subst h
      exact hdelta _ (fun _ => rfl) (by simp [deltaText, htype])
  iterate 2
    split
    · next h =>
      subst h
      exact ⟨.closed rfl, (hother (by decide)).symm⟩
  next hcreated htext hreasoning hrefusal hcompleted hincomplete =>
    have hplain := hother (by simp [htext, hreasoning, hrefusal])
    iterate 2
      split
      · exact providerError_decoding _
    exact Sees.plain hopen .nil (by simp [hcompleted, hincomplete]) hplain

theorem decode_sees (J : Json) (d : OpenAiDecoder) (frame : SseFrame) :
    Sees terminal (sseTerminal J .openAi frame) (emptyDelta J .openAi frame) (d.decode J frame) := by
  refine (ensureNoTerminal_yields _).bind fun _ hopen => ?_
  refine (parseJson_yields J _).bind fun value hvalue => ?_
  refine (Yields.required (by decide)).bind fun eventType htype => ?_
  refine (Yields.ensure (by decide)).bind fun _ _ => ?_
  refine (Yields.ensure unexpectedToolEvent_decoding).bind fun _ _ => ?_
  simp only [sseTerminal, emptyDelta, hvalue, htype, Option.any_some, Option.some.injEq]
  exact handle_sees hopen htype

end OpenAiDecoder

namespace AnthropicDecoder

theorem contentBlockDelta_sees {d : AnthropicDecoder} (hopen : d.terminal = none) {value : Value}
    (htype : getStr value ["type"] = some "content_block_delta") :
    Sees terminal false (decide (deltaText .anthropic value = some "")) (d.contentBlockDelta value) := by
  have hdelta : ∀ {field event}, (∀ text, (event text).isEmptyDelta = decide (text = "")) →
      Sees terminal false (decide (getStr value ["delta", field] = some "")) (d.delta value field event) :=
    fun hevent => (Yields.required (by decide)).bind fun text htext =>
      Sees.text hopen hevent rfl (by rw [htext])
  unfold contentBlockDelta
  split
  · exact decodingError_of (by decide)
  next kind hkind =>
    simp only [deltaText, htype, hkind, if_true, Option.some.injEq]
    split
    · exact hdelta fun _ => rfl
    split
    · exact hdelta fun _ => rfl
    split
    · exact unexpectedToolEvent_decoding
    · exact Sees.plain hopen .nil rfl rfl

theorem handle_sees {d : AnthropicDecoder} (hopen : d.terminal = none) {value : Value} {eventType : String}
    (htype : getStr value ["type"] = some eventType) :
    Sees terminal (decide (eventType = "message_stop")) (decide (deltaText .anthropic value = some ""))
      (d.handle value eventType) := by
  have hother : eventType ≠ "content_block_delta" → decide (deltaText .anthropic value = some "") = false :=
    fun h => by simp [deltaText, htype, h]
  unfold handle
  split
  · next h =>
    subst h
    unfold messageStart
    simp only
    split
    · exact (responseIdEvent_yields _).bind fun _ hevent => Sees.plain hopen hevent rfl (hother (by decide))
    · exact Sees.plain hopen .nil rfl (hother (by decide))
  split
  · next h =>
    subst h
    refine (Yields.required (by decide)).bind fun kind _ => ?_
    exact (Yields.ensure unexpectedToolEvent_decoding).bind fun _ _ =>
      Sees.plain hopen .nil rfl (hother (by decide))
  split
  · next h =>
    subst h
    exact contentBlockDelta_sees hopen htype
  next hdelta =>
    split
    · next h =>
      subst h
      exact Sees.plain hopen .nil rfl (hother hdelta)
    split
    · next h =>
      exact ⟨.closed (by rw [h]; rfl), by rw [hother hdelta]; rfl⟩
    next hstop =>
      split
      · exact providerError_decoding _
      · exact Sees.plain hopen .nil (by simp [hstop]) (hother hdelta)

theorem decode_sees (J : Json) (d : AnthropicDecoder) (frame : SseFrame) :
    Sees terminal (sseTerminal J .anthropic frame) (emptyDelta J .anthropic frame) (d.decode J frame) := by
  refine (ensureNoTerminal_yields _).bind fun _ hopen => ?_
  refine (parseJson_yields J _).bind fun value hvalue => ?_
  refine (Yields.required (by decide)).bind fun eventType htype => ?_
  refine (Yields.ensure (by decide)).bind fun _ _ => ?_
  simp only [sseTerminal, emptyDelta, hvalue, htype, Option.any_some, Option.some.injEq]
  exact handle_sees hopen htype

end AnthropicDecoder

variable {provider : ProviderId} {decoder : ProviderDecoder}

theorem emptyDelta_eq_false (J : Json) (frame : SseFrame)
    (h : ∀ value, deltaText provider value = none) : emptyDelta J provider frame = false := by
  simp [emptyDelta, h]

namespace DeepSeekDecoder

theorem firstChoice_yields (choices : List Value) :
    Yields (fun found => Filled found.1) DecodingError (firstChoice choices) := by
  cases choices with
  | nil => exact .nil
  | cons value rest =>
    refine (Yields.ensure (by decide)).bind fun _ _ => ?_
    refine (Yields.required (by decide)).bind fun delta _ => ?_
    refine (Yields.ensure unexpectedToolEvent_decoding).bind fun _ _ => ?_
    refine (Yields.ensure unexpectedToolEvent_decoding).bind fun _ _ => ?_
    exact (filled_deltaOf (fun _ => rfl) _).append (filled_deltaOf (fun _ => rfl) _)

theorem decode_sees (J : Json) (d : DeepSeekDecoder) (frame : SseFrame) :
    Sees terminal (sseTerminal J .deepSeek frame) (emptyDelta J .deepSeek frame) (d.decode J frame) := by
  have hempty : emptyDelta J .deepSeek frame = false := emptyDelta_eq_false J frame fun _ => rfl
  refine (ensureNoTerminal_yields _).bind fun _ hopen => ?_
  split
  · next hdone => exact ⟨.closed (decide_eq_true hdone), by rw [hempty]; rfl⟩
  next hdone =>
    refine (parseJson_yields J _).bind fun value _ => ?_
    split
    · exact providerError_decoding _
    refine (pinResponseId_yields _ (by decide) _ _).bind fun pinned hpinned => ?_
    refine (Yields.required (by decide)).bind fun choices _ => ?_
    refine (Yields.ensure (by decide)).bind fun _ _ => ?_
    refine (firstChoice_yields choices).bind fun found hfound => ?_
    exact Sees.plain hopen ((hpinned.append hfound).append (filled_usageEvents _)) (decide_eq_false hdone) hempty

end DeepSeekDecoder

namespace GoogleDecoder

theorem candidateParts_yields (parts : List Value) :
    Yields Filled DecodingError (candidateParts parts) := by
  induction parts with
  | nil => exact .nil
  | cons part rest ih =>
    refine (Yields.ensure unexpectedToolEvent_decoding).bind fun _ _ => ih.bind fun events hevents => ?_
    refine (filled_deltaOf (fun text => ?_) _).append hevents
    split <;> rfl

theorem firstCandidate_yields (candidates : List Value) :
    Yields (fun found => Filled found.1 ∧ found.2.isSome =
        candidates.head?.any fun candidate => (getStr candidate ["finishReason"]).isSome)
      DecodingError (firstCandidate candidates) := by
  cases candidates with
  | nil => exact ⟨.nil, rfl⟩
  | cons value rest =>
    refine (Yields.ensure (by decide)).bind fun _ _ => ?_
    refine (candidateParts_yields _).bind fun events hevents => ?_
    exact (Yields.ensure unexpectedToolEvent_decoding).bind fun _ _ => ⟨hevents, rfl⟩

theorem decode_sees (J : Json) (d : GoogleDecoder) (frame : SseFrame) :
    Sees terminal (sseTerminal J .googleGemini frame) (emptyDelta J .googleGemini frame)
      (d.decode J frame) := by
  rw [emptyDelta_eq_false J frame fun _ => rfl]
  refine (ensureNoTerminal_yields _).bind fun _ hopen => ?_
  refine (parseJson_yields J _).bind fun value hvalue => ?_
  split
  · exact providerError_decoding _
  refine (Yields.ensure (providerError_decoding _)).bind fun _ _ => ?_
  refine (pinResponseId_yields _ (by decide) _ _).bind fun pinned hpinned => ?_
  refine (Yields.ensure (by decide)).bind fun _ _ => ?_
  refine (firstCandidate_yields _).bind fun found hfound => ?_
  have hfilled := (hpinned.append hfound.1).append (filled_usageEvents (d.usage.mergeFrom (newerUsage value)))
  have hterminal : sseTerminal J .googleGemini frame = found.2.isSome := by
    rw [hfound.2, sseTerminal, hvalue, Option.any_some]
  rw [hterminal]
  obtain ⟨events, reason⟩ := found
  cases reason with
  | none => exact Sees.plain rfl hfilled rfl rfl
  | some reason => exact ⟨.closed rfl, hfilled.deltas⟩

end GoogleDecoder

namespace OllamaDecoder

theorem decode_sees (J : Json) (d : OllamaDecoder) (frame : String) :
    Sees terminal (ndjsonTerminal J .ollamaCloud frame) false (d.decode J frame) := by
  refine (ensureNoTerminal_yields _).bind fun _ hopen => ?_
  refine (parseJson_yields J _).bind fun value hvalue => ?_
  refine (Yields.ensure (providerError_decoding _)).bind fun _ _ => ?_
  have hevents : Yields Filled DecodingError (messageEvents (get value "message")) := by
    unfold messageEvents
    split
    · exact .nil
    · refine (Yields.ensure unexpectedToolEvent_decoding).bind fun _ _ => ?_
      exact (filled_deltaOf (fun _ => rfl) _).append (filled_deltaOf (fun _ => rfl) _)
  refine hevents.bind fun events hfilled => ?_
  have hterminal : ndjsonTerminal J .ollamaCloud frame = decide (isDone value = some true) := by
    rw [ndjsonTerminal, hvalue, Option.any_some]
  rw [hterminal]
  split
  · next hdone => exact ⟨.closed (decide_eq_true hdone), (hfilled.append (filled_usageEvents _)).deltas⟩
  · next hdone => exact Sees.plain hopen hfilled (by rw [hdone]; rfl) rfl
  · exact decodingError_of (by decide)

end OllamaDecoder

/-! ## The decoder of a provider -/

theorem step_sees {δ : Type} {wrap : δ → ProviderDecoder}
    {state : δ → Option ProviderRunOutcome} {result : Result (DecodedFrame × δ)} {isTerminal empty : Bool}
    (h : Sees state isTerminal empty result) (hserves : ∀ d, Serves provider (wrap d))
    (hstate : ∀ d, (wrap d).terminal = state d) :
    Yields (fun found => Serves provider found.2 ∧ Ends isTerminal found.1 found.2.terminal ∧
      Deltas empty found.1.events) DecodingError (ProviderDecoder.step wrap result) :=
  h.bind fun found hfound => ⟨hserves _, hstate found.2 ▸ hfound.1, hfound.2⟩

theorem decodeSse_sees (J : Json) (frame : SseFrame) (hserves : Serves provider decoder) :
    Yields (fun found => Serves provider found.2 ∧ Ends (sseTerminal J provider frame) found.1 found.2.terminal ∧
      Deltas (emptyDelta J provider frame) found.1.events) DecodingError (decoder.decodeSse J frame) := by
  cases decoder with
  | openAi d =>
    cases provider <;> first
      | exact False.elim hserves
      | exact step_sees (OpenAiDecoder.decode_sees J d frame) (fun _ => trivial) fun _ => rfl
  | anthropic d =>
    cases provider <;> first
      | exact False.elim hserves
      | exact step_sees (AnthropicDecoder.decode_sees J d frame) (fun _ => trivial) fun _ => rfl
  | deepSeek d =>
    cases provider <;> first
      | exact False.elim hserves
      | exact step_sees (DeepSeekDecoder.decode_sees J d frame) (fun _ => trivial) fun _ => rfl
  | google d =>
    cases provider <;> first
      | exact False.elim hserves
      | exact step_sees (GoogleDecoder.decode_sees J d frame) (fun _ => trivial) fun _ => rfl
  | ollama d => exact decodingError_of (by decide)

theorem decodeNdjson_sees (J : Json) (frame : String) (hserves : Serves provider decoder) :
    Yields (fun found => Serves provider found.2 ∧
      Ends (ndjsonTerminal J provider frame) found.1 found.2.terminal ∧ Deltas false found.1.events)
      DecodingError (decoder.decodeNdjson J frame) := by
  cases decoder with
  | ollama d =>
    cases provider <;> first
      | exact False.elim hserves
      | exact step_sees (OllamaDecoder.decode_sees J d frame) (fun _ => trivial) fun _ => rfl
  | _ => exact decodingError_of (by decide)

theorem exists_serves (decoder : ProviderDecoder) : ∃ provider, Serves provider decoder := by
  cases decoder with
  | openAi d => exact ⟨.openAi, trivial⟩
  | anthropic d => exact ⟨.anthropic, trivial⟩
  | deepSeek d => exact ⟨.deepSeek, trivial⟩
  | ollama d => exact ⟨.ollamaCloud, trivial⟩
  | google d => exact ⟨.googleGemini, trivial⟩

theorem decodeSse_ended {J : Json} {frame : SseFrame}
    (h : decoder.terminal ≠ none) : ∃ e, decoder.decodeSse J frame = .error e := by
  cases hdecode : decoder.decodeSse J frame with
  | error e => exact ⟨e, rfl⟩
  | ok result =>
    exfalso
    cases decoder with
    | ollama d => cases hdecode
    | _ d =>
      obtain ⟨_, hinner, _⟩ := except_bind_ok.mp hdecode
      obtain ⟨_, hopen, _⟩ := except_bind_ok.mp hinner
      exact h (ensure_ok.mp hopen)

theorem decodeNdjson_ended {J : Json} {frame : String}
    (h : decoder.terminal ≠ none) : ∃ e, decoder.decodeNdjson J frame = .error e := by
  cases hdecode : decoder.decodeNdjson J frame with
  | error e => exact ⟨e, rfl⟩
  | ok result =>
    exfalso
    cases decoder with
    | ollama d =>
      obtain ⟨_, hinner, _⟩ := except_bind_ok.mp hdecode
      obtain ⟨_, hopen, _⟩ := except_bind_ok.mp hinner
      exact h (ensure_ok.mp hopen)
    | _ => cases hdecode

end Lorepia.ProviderRuntime
