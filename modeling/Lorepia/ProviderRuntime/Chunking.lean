import Lorepia.ProviderRuntime.Consume

/-!
# Where the network splits a body

A chunk that holds a line the framer refuses is dropped as a whole: the frames before that line
are lost, while in a chunk of their own they would have been delivered (`invisible_iff`).
-/

namespace Lorepia.ProviderRuntime

open Lines (Reader State)
open Providers (ProviderId)

def taking : Nat → Delivery := fun _ => .sent

namespace Wire

variable {τ φ : Type} (W : Wire τ φ)

/-- A body that arrives in chunks, without timeout or cancellation. -/
def consumeChunks (provider : ProviderId) (chunks : List (List UInt8)) : Run :=
  W.consume provider taking (chunks.map .chunk)

/-- Any two ways to split the body are the same to the caller. -/
def Invisible (provider : ProviderId) (body : List UInt8) : Prop :=
  ∀ chunks chunks' : List (List UInt8), chunks.flatten = body → chunks'.flatten = body →
    W.consumeChunks provider chunks = W.consumeChunks provider chunks'

def Silent : ProviderDecoder → List φ → Prop
  | _, [] => True
  | decoder, frame :: rest => ∃ decoder', W.decode decoder frame = .ok (⟨[], none⟩, decoder') ∧
      Silent decoder' rest

def Framed (body : List UInt8) : Prop :=
  ∃ framer, (W.framer.scan (W.framer.start W.fresh) body).2 = .ok framer

def framesBefore (body : List UInt8) : List φ := (W.framer.scan (W.framer.start W.fresh) body).1

def runScan (scanned : List φ × Result (State W.framer)) (decoder : ProviderDecoder)
    (sent : List ProviderStreamEvent) : Run :=
  match W.consumeFrames taking scanned.1 decoder sent with
  | .inl run => run
  | .inr (decoder, sent) =>
    match scanned.2 with
    | .ok framer => W.atEnd taking framer decoder sent
    | .error e => ⟨sent, .error e⟩

theorem consumeFrames_append (deliver : Nat → Delivery) (front back : List φ) (decoder : ProviderDecoder)
    (sent : List ProviderStreamEvent) :
    W.consumeFrames deliver (front ++ back) decoder sent =
      match W.consumeFrames deliver front decoder sent with
      | .inl run => .inl run
      | .inr (decoder, sent) => W.consumeFrames deliver back decoder sent := by
  induction front generalizing decoder sent with
  | nil => rfl
  | cons frame rest ih =>
    rw [List.cons_append, consumeFrames, consumeFrames]
    cases W.decode decoder frame with
    | error e => rfl
    | ok result =>
      obtain ⟨decoded, middle⟩ := result
      simp only
      rcases deliverDecoded deliver sent decoded with ⟨sent', _ | outcome⟩
      · exact ih middle sent'
      · rfl

theorem consumeFrom_framed (chunks : List (List UInt8)) (framer : State W.framer) {framer' : State W.framer}
    (hframed : (W.framer.scan framer chunks.flatten).2 = .ok framer') (decoder : ProviderDecoder)
    (sent : List ProviderStreamEvent) :
    W.consumeFrom taking (chunks.map .chunk) framer decoder sent =
      W.runScan (W.framer.scan framer chunks.flatten) decoder sent := by
  induction chunks generalizing framer decoder sent with
  | nil =>
    rw [List.flatten_nil, Reader.scan_nil]
    rfl
  | cons chunk rest ih =>
    rw [List.flatten_cons, Reader.scan_append] at hframed ⊢
    rw [List.map_cons]
    unfold consumeFrom
    rw [Reader.push_eq]
    rcases hscan : W.framer.scan framer chunk with ⟨frames, e | middle⟩
    · rw [hscan] at hframed
      cases hframed
    · rw [hscan] at hframed
      simp only [Reader.collect, Reader.andThen, runScan, consumeFrames_append]
      rcases W.consumeFrames taking frames decoder sent with run | ⟨decoder', sent'⟩
      · rfl
      · exact ih middle hframed decoder' sent'

/-! ## Runs in which every event is taken -/

theorem deliverDecoded_taking (sent : List ProviderStreamEvent) (decoded : DecodedFrame) :
    deliverDecoded taking sent decoded = (sent ++ decoded.events, decoded.terminal.map .ok) := by
  obtain h | ⟨part, outcome, _, _, hinterrupted⟩ := deliverDecoded_cases taking sent decoded
  · exact h
  · exact absurd hinterrupted (not_interrupted fun _ => rfl)

variable {decoder : ProviderDecoder} {frames : List φ} {e : RuntimeError}

theorem silent_append {front back : List φ}
    (h : W.Silent decoder (front ++ back)) (sent : List ProviderStreamEvent) :
    ∃ decoder', W.consumeFrames taking front decoder sent = .inr (decoder', sent) ∧ W.Silent decoder' back := by
  induction front generalizing decoder with
  | nil => exact ⟨decoder, rfl, h⟩
  | cons frame rest ih =>
    obtain ⟨decoder', hdecode, hrest⟩ := h
    unfold consumeFrames
    simp only [hdecode, deliverDecoded_taking, List.append_nil, Option.map_none]
    exact ih hrest

variable {W}

/-- Frames that are not silent are seen, and a decoder's error is never one of the framer's. -/
theorem consumeFrames_seen (hdecoding : ∀ decoder frame, FailsWith DecodingError (W.decode decoder frame))
    (frames : List φ) (decoder : ProviderDecoder) (sent : List ProviderStreamEvent) :
    match W.consumeFrames taking frames decoder sent with
    | .inl run => FailsWith DecodingError run.outcome
    | .inr (_, sent') => ∃ part, sent' = sent ++ part ∧ (part = [] → W.Silent decoder frames) := by
  induction frames generalizing decoder sent with
  | nil => exact ⟨[], (List.append_nil _).symm, fun _ => trivial⟩
  | cons frame rest ih =>
    unfold consumeFrames
    cases hdecode : W.decode decoder frame with
    | error e => exact .error (hdecoding decoder frame e hdecode)
    | ok result =>
      obtain ⟨⟨events, terminal⟩, decoder'⟩ := result
      simp only [deliverDecoded_taking]
      cases terminal with
      | some outcome => exact .ok outcome
      | none =>
        have hrest := ih decoder' (sent ++ events)
        simp only [Option.map_none]
        rcases hnext : W.consumeFrames taking rest decoder' (sent ++ events) with run | ⟨last, sent'⟩
        · rw [hnext] at hrest
          exact hrest
        · rw [hnext] at hrest
          obtain ⟨part, rfl, hsilent⟩ := hrest
          refine ⟨events ++ part, List.append_assoc _ _ _, fun hnil => ?_⟩
          obtain ⟨rfl, rfl⟩ := List.append_eq_nil_iff.mp hnil
          exact ⟨decoder', hdecode, hsilent rfl⟩

/-- A run over what a scan found ends in the scan's error with nothing delivered only if the
frames before it are silent. -/
theorem silent_of_runScan
    (hdecoding : ∀ decoder frame, FailsWith DecodingError (W.decode decoder frame))
    (hframing : FramingError e)
    (h : W.runScan (frames, .error e) decoder [] = ⟨[], .error e⟩) : W.Silent decoder frames := by
  have hseen := consumeFrames_seen hdecoding frames decoder []
  unfold runScan at h
  rcases hframes : W.consumeFrames taking frames decoder [] with run | ⟨decoder', sent'⟩
  · rw [hframes] at hseen h
    simp only at h hseen
    rw [h] at hseen
    exact absurd hframing (hseen e rfl)
  · rw [hframes] at hseen h
    obtain ⟨part, rfl, hsilent⟩ := hseen
    simp only [Run.mk.injEq] at h
    exact hsilent h.1

/-! ## Bodies with a refused line -/

theorem consumeChunks_single {provider : ProviderId} {body : List UInt8}
    (hscan : W.framer.scan (W.framer.start W.fresh) body = (frames, .error e)) :
    W.consumeChunks provider [body] = ⟨[], .error e⟩ := by
  unfold consumeChunks consume
  simp only [List.map_cons, consumeFrom, Reader.push_eq, hscan, Reader.collect]

theorem consumeChunks_split {provider : ProviderId} {front back : List UInt8}
    {framer : State W.framer}
    (hfront : W.framer.scan (W.framer.start W.fresh) front = (frames, .ok framer))
    (hback : W.framer.scan framer back = ([], .error e)) :
    W.consumeChunks provider [front, back] = W.runScan (frames, .error e) (.new provider) [] := by
  unfold consumeChunks consume runScan
  simp only [List.map_cons, consumeFrom, Reader.push_eq, hfront, Reader.collect]
  rcases W.consumeFrames taking frames (.new provider) [] with run | ⟨decoder', sent'⟩
  · rfl
  · simp only [hback]

theorem consumeFrom_silent (chunks : List (List UInt8)) (framer : State W.framer)
    (hscan : W.framer.scan framer chunks.flatten = (frames, .error e))
    (hsilent : W.Silent decoder frames) (sent : List ProviderStreamEvent) :
    W.consumeFrom taking (chunks.map .chunk) framer decoder sent = ⟨sent, .error e⟩ := by
  induction chunks generalizing framer frames decoder with
  | nil =>
    rw [List.flatten_nil, Reader.scan_nil] at hscan
    cases hscan
  | cons chunk rest ih =>
    rw [List.flatten_cons, Reader.scan_append] at hscan
    rw [List.map_cons]
    unfold consumeFrom
    rw [Reader.push_eq]
    rcases hchunk : W.framer.scan framer chunk with ⟨first, e' | middle⟩
    · rw [hchunk] at hscan
      cases hscan
      rfl
    · rw [hchunk] at hscan
      simp only [Reader.andThen, Prod.mk.injEq] at hscan
      obtain ⟨rfl, herror⟩ := hscan
      obtain ⟨decoder', hfirst, hrest⟩ := silent_append W hsilent sent
      simp only [Reader.collect, hfirst]
      exact ih middle (Prod.ext rfl herror) hrest

theorem invisible_iff (provider : ProviderId) (hframing : ∀ inner line, FailsWith FramingError (W.framer.line inner line))
    (htooLarge : FramingError W.framer.tooLarge)
    (hdecoding : ∀ decoder frame, FailsWith DecodingError (W.decode decoder frame)) (body : List UInt8) :
    W.Invisible provider body ↔ W.Framed body ∨ W.Silent (.new provider) (W.framesBefore body) := by
  unfold Framed framesBefore
  rcases hscan : W.framer.scan (W.framer.start W.fresh) body with ⟨frames, e | framer⟩
  · constructor
    · -- the body in one chunk against a split before the refused line
      intro hinvisible
      obtain ⟨front, back, framer, rfl, hfront, hback⟩ := Reader.scan_split hscan
      have hsame := hinvisible [front, back] [front ++ back] (by simp) (by simp)
      rw [consumeChunks_single hscan, consumeChunks_split hfront hback] at hsame
      have he : FramingError e := Reader.scanFrom_fails hframing htooLarge _ _ _ e (congrArg Prod.snd hscan)
      exact .inr (silent_of_runScan hdecoding he hsame)
    · rintro (⟨framer, hframed⟩ | hsilent)
      · cases hframed
      · have hall : ∀ chunks : List (List UInt8), chunks.flatten = body →
            W.consumeChunks provider chunks = ⟨[], .error e⟩ := fun chunks hchunks =>
          consumeFrom_silent chunks _ (by rw [hchunks]; exact hscan) hsilent []
        intro chunks chunks' hchunks hchunks'
        rw [hall chunks hchunks, hall chunks' hchunks']
  · refine ⟨fun _ => .inl ⟨framer, rfl⟩, fun _ => ?_⟩
    have hall : ∀ chunks : List (List UInt8), chunks.flatten = body →
        W.consumeChunks provider chunks = W.runScan (frames, .ok framer) (.new provider) [] := by
      intro chunks hchunks
      subst hchunks
      rw [← hscan]
      exact W.consumeFrom_framed chunks _ (congrArg Prod.snd hscan) _ _
    intro chunks chunks' hchunks hchunks'
    rw [hall chunks hchunks, hall chunks' hchunks']

end Wire

/-- The split of a body is invisible exactly if the framer takes all its lines, or the frames
before the first line it refuses are silent. -/
theorem chunking_invisible_iff (J : Json) (maxStreamFrameBytes : Nat) (provider : ProviderId)
    (body : List UInt8) :
    ((sseWire J maxStreamFrameBytes).Invisible provider body ↔
      (sseWire J maxStreamFrameBytes).Framed body ∨
        (sseWire J maxStreamFrameBytes).Silent (.new provider)
          ((sseWire J maxStreamFrameBytes).framesBefore body)) ∧
    ((ndjsonWire J maxStreamFrameBytes).Invisible provider body ↔
      (ndjsonWire J maxStreamFrameBytes).Framed body ∨
        (ndjsonWire J maxStreamFrameBytes).Silent (.new provider)
          ((ndjsonWire J maxStreamFrameBytes).framesBefore body)) := by
  have hsse := sseWire_lawful J maxStreamFrameBytes provider
  have hndjson := ndjsonWire_lawful J maxStreamFrameBytes provider
  exact ⟨Wire.invisible_iff provider hsse.framing hsse.tooLarge hsse.decoding body,
    Wire.invisible_iff provider hndjson.framing hndjson.tooLarge hndjson.decoding body⟩

/-! ## A body that is split in two ways -/

/-- A text event of OpenAI's stream, as a parser reads it. -/
def helloEvent : String := "\x7b\"type\":\"response.output_text.delta\",\"delta\":\"Hi\"\x7d"

def helloJson : Json where
  fromStr := fun text =>
    if text = helloEvent then
      some (.object [("type", .string "response.output_text.delta"), ("delta", .string "Hi")])
    else none

def sseData (data : String) : List UInt8 := ("data: " ++ data ++ "\n\n").toUTF8.toList

def badLine : List UInt8 := [0xff, 0x0a]

theorem done_then_badLine :
    (sseWire helloJson 1024).consumeChunks .deepSeek [sseData "[DONE]" ++ badLine] =
        ⟨[], .error invalidSseUtf8⟩ ∧
      (sseWire helloJson 1024).consumeChunks .deepSeek [sseData "[DONE]", badLine] =
        ⟨[], .ok (completed none {})⟩ := by
  decide +kernel

theorem hello_then_badLine :
    (sseWire helloJson 1024).consumeChunks .openAi [sseData helloEvent ++ badLine] =
        ⟨[], .error invalidSseUtf8⟩ ∧
      (sseWire helloJson 1024).consumeChunks .openAi [sseData helloEvent, badLine] =
        ⟨[.textDelta "Hi"], .error invalidSseUtf8⟩ := by
  decide +kernel

/-- In one chunk with a refused line, the frame before it is lost: a completed stream fails, and
an event is not delivered. -/
theorem chunking_visible :
    ¬ (sseWire helloJson 1024).Invisible .deepSeek (sseData "[DONE]" ++ badLine) ∧
      ¬ (sseWire helloJson 1024).Invisible .openAi (sseData helloEvent ++ badLine) := by
  constructor
  · intro h
    have hsame := h [sseData "[DONE]" ++ badLine] [sseData "[DONE]", badLine] (by simp) (by simp)
    rw [done_then_badLine.1, done_then_badLine.2] at hsame
    cases hsame
  · intro h
    have hsame := h [sseData helloEvent ++ badLine] [sseData helloEvent, badLine] (by simp) (by simp)
    rw [hello_then_badLine.1, hello_then_badLine.2] at hsame
    cases hsame

end Lorepia.ProviderRuntime
