import Lorepia.ProviderRuntime.Deltas
import Lorepia.Stream.Fragments
import Lorepia.Stream.Tasks

/-!
# Events that can be forwarded

`forward_runtime_event` refuses a delta without text as an invalid stream event, which fails the
turn. The decoders of OpenAI and Anthropic pass such deltas on (`events_forwardable_iff`).
-/

namespace Lorepia.Stream

open ProviderRuntime (Json ProviderStreamEvent SseFrame emptyDelta ndjsonWire sseWire)
open Providers (ProviderId)

def invalidStreamEvent : ProviderCommandError :=
  .new "INVALID_STREAM_EVENT" "provider stream text delta was empty"

def TokenUsage.ofRuntime (usage : ProviderRuntime.TokenUsage) : TokenUsage where
  inputTokens := usage.inputTokens
  outputTokens := usage.outputTokens
  reasoningTokens := usage.reasoningTokens
  cachedInputTokens := usage.cachedInputTokens
  totalTokens := usage.totalTokens

def RuntimeEvent.ofDecoded : ProviderStreamEvent → RuntimeEvent
  | .providerResponseId id => .providerResponseId id
  | .textDelta text => .textDelta text
  | .reasoningDelta text => .reasoningDelta text
  | .refusalDelta text => .refusalDelta text
  | .usage counts => .usage (.ofRuntime counts)

/-- The event is refused as invalid: forwarding it fails with this error before it does anything. -/
def Refused (event : ProviderStreamEvent) : Prop :=
  forwardRuntimeEvent (.ofDecoded event) = Proc.fail invalidStreamEvent

/-! ## What is refused -/

theorem splitUtf8_ne_nil {text : String} (h : text ≠ "") (maxBytes : Nat) :
    splitUtf8 text maxBytes ≠ [] := by
  intro hnil
  have hjoin := (collectFragments_spec (max maxBytes 1) (Nat.le_refl text.toList.length)).1
  rw [String.ofList_toList] at hjoin
  unfold splitUtf8 at hnil
  rw [hnil] at hjoin
  exact h hjoin.symm

theorem forwardTextFragments_empty (kind : DeltaKind) :
    (forwardTextFragments kind "" >>= fun _ => flushIfRequestedOrPressured) =
      Proc.fail invalidStreamEvent := rfl

theorem forwardTextFragments_acts (kind : DeltaKind) {text : String} (h : text ≠ "") :
    (forwardTextFragments kind text >>= fun _ => flushIfRequestedOrPressured) ≠
      Proc.fail invalidStreamEvent := by
  unfold forwardTextFragments
  rw [if_neg (by simpa using h)]
  obtain ⟨fragment, rest, hsplit⟩ := List.exists_cons_of_ne_nil (splitUtf8_ne_nil h maxDeltaFragmentBytes)
  rw [hsplit]
  exact fun hfail => nomatch hfail

theorem refused_iff (event : ProviderStreamEvent) : Refused event ↔ event.isEmptyDelta = true := by
  have hdelta : ∀ (kind : DeltaKind) (text : String),
      (forwardTextFragments kind text >>= fun _ => flushIfRequestedOrPressured) =
        Proc.fail invalidStreamEvent ↔ decide (text = "") = true := by
    intro kind text
    rw [decide_eq_true_iff]
    refine ⟨fun hfail => ?_, fun hempty => ?_⟩
    · by_contra hsome
      exact forwardTextFragments_acts kind hsome hfail
    · rw [hempty]
      exact forwardTextFragments_empty kind
  cases event with
  | textDelta text => exact hdelta .text text
  | reasoningDelta text => exact hdelta .reasoning text
  | refusalDelta text => exact hdelta .refusal text
  | providerResponseId id =>
    refine ⟨fun hfail => ?_, fun h => nomatch h⟩
    unfold Refused RuntimeEvent.ofDecoded forwardRuntimeEvent at hfail
    dsimp only at hfail
    split at hfail
    · -- an id that is too long is refused, but not as an invalid event
      have herror : ProviderCommandError.new "PROVIDER_RESPONSE_ID_TOO_LARGE"
          "provider response identifier exceeded the runtime limit" = invalidStreamEvent :=
        Except.error.inj (Proc.done.inj hfail)
      exact absurd herror (by decide)
    · exact nomatch hfail
  | usage counts => exact ⟨fun hfail => (nomatch hfail), fun h => nomatch h⟩

/-! ## Streams -/

/-- The events of a stream can be forwarded unless OpenAI or Anthropic send an empty delta. -/
theorem events_forwardable_iff (J : Json) (maxStreamFrameBytes : Nat) (provider : ProviderId) :
    (∀ frames, (∀ event ∈ (sseWire J maxStreamFrameBytes).events (.new provider) frames, ¬ Refused event) ↔
      ∀ frame ∈ (sseWire J maxStreamFrameBytes).accepted (.new provider) frames,
        emptyDelta J provider frame = false) ∧
    ∀ lines, ∀ event ∈ (ndjsonWire J maxStreamFrameBytes).events (.new provider) lines,
      ¬ Refused event := by
  refine ⟨fun frames => ?_, fun lines event hevent => ?_⟩
  · have hdeltas := ProviderRuntime.sse_events_emptyDelta J maxStreamFrameBytes
      (ProviderRuntime.serves_new provider).1 frames
    have hevents : (∀ event ∈ (sseWire J maxStreamFrameBytes).events (.new provider) frames,
        ¬ Refused event) ↔ ((sseWire J maxStreamFrameBytes).events (.new provider) frames).any
          ProviderStreamEvent.isEmptyDelta = false := by
      simp only [refused_iff, List.any_eq_false]
    rw [hevents, hdeltas]
    simp only [List.any_eq_false, Bool.not_eq_true]
  · have hfilled := ProviderRuntime.ndjson_events_filled J maxStreamFrameBytes (.new provider) lines
    rw [refused_iff, hfilled event hevent]
    exact Bool.false_ne_true

def emptyDeltaJson : Json where
  fromStr _ := some (.object [("type", .string "response.output_text.delta"), ("delta", .string "")])

def emptyDeltaFrame : SseFrame where
  event := some "response.output_text.delta"
  data := "\x7b\"type\":\"response.output_text.delta\",\"delta\":\"\"\x7d"

/-- A frame of OpenAI with an empty delta is accepted, and its event is refused. -/
theorem empty_delta_refused :
    (sseWire emptyDeltaJson 1024).accepted (.new .openAi) [emptyDeltaFrame] = [emptyDeltaFrame] ∧
      (sseWire emptyDeltaJson 1024).events (.new .openAi) [emptyDeltaFrame] = [.textDelta ""] ∧
      Refused (.textDelta "") :=
  ⟨rfl, rfl, (refused_iff _).mpr rfl⟩

end Lorepia.Stream
