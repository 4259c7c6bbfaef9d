import Lorepia.ProviderRuntime.Consume

/-!
# Deltas without text

The events of a stream contain an empty delta exactly if the decoder accepts a frame that carries
one (`sse_events_emptyDelta`); those of JSON lines contain none (`ndjson_events_filled`).
-/

namespace Lorepia.ProviderRuntime

open Providers (ProviderId)

/-- The frames of a stream up to the first that the decoder refuses. -/
def Wire.accepted {τ φ : Type} (W : Wire τ φ) : ProviderDecoder → List φ → List φ
  | _, [] => []
  | decoder, frame :: rest =>
    match W.decode decoder frame with
    | .ok (_, decoder) => frame :: accepted W decoder rest
    | .error _ => []

theorem sse_events_emptyDelta (J : Json) (maxStreamFrameBytes : Nat) {provider : ProviderId}
    {decoder : ProviderDecoder} (hserves : Serves provider decoder) (frames : List SseFrame) :
    Deltas (((sseWire J maxStreamFrameBytes).accepted decoder frames).any (emptyDelta J provider))
      ((sseWire J maxStreamFrameBytes).events decoder frames) := by
  induction frames generalizing decoder with
  | nil => rfl
  | cons frame rest ih =>
    unfold Wire.accepted Wire.events
    cases hdecode : (sseWire J maxStreamFrameBytes).decode decoder frame with
    | error e => rfl
    | ok result =>
      obtain ⟨decoded, decoder'⟩ := result
      obtain ⟨hserves', -, hframe⟩ := (decodeSse_sees J frame hserves).of_ok hdecode
      have hrest := ih hserves'
      unfold Deltas at hframe hrest ⊢
      rw [List.any_cons, List.any_append, hframe, hrest]

theorem ndjson_events_filled (J : Json) (maxStreamFrameBytes : Nat) (decoder : ProviderDecoder)
    (lines : List String) : Filled ((ndjsonWire J maxStreamFrameBytes).events decoder lines) := by
  induction lines generalizing decoder with
  | nil => exact .nil
  | cons line rest ih =>
    unfold Wire.events
    cases hdecode : (ndjsonWire J maxStreamFrameBytes).decode decoder line with
    | error e => exact .nil
    | ok result =>
      obtain ⟨provider, hserves⟩ := exists_serves decoder
      have hline := (decodeNdjson_sees J line hserves).of_ok hdecode
      exact (Filled.of_deltas hline.2.2).append (ih result.2)

end Lorepia.ProviderRuntime
