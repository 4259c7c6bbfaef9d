import Lorepia.ProviderRuntime.Terminal

/-!
# The consume loop (`runner.rs`)

`consume_sse` and `consume_ndjson` are one loop over a framer and a decoder, a `Wire`. What the
loop meets from outside is given by the list of arrivals of the body (`next_chunk`), whose end
is the end of the body, and by how the sending of each event goes (`deliver_decoded`).

`events` is what the frames of a stream say, without a loop: every run delivers a beginning of
it (`consumeFrames_spec`, `consume_spec`).
-/

namespace Lorepia.ProviderRuntime

open Lines (Reader State)
open Providers (ProviderId)

/-- A framer and the decoding of its frames. -/
structure Wire (τ φ : Type) where
  framer : Reader τ φ RuntimeError
  fresh : τ
  finish : State framer → Result (List φ)
  decode : ProviderDecoder → φ → Result (DecodedFrame × ProviderDecoder)

def sseWire (J : Json) (maxStreamFrameBytes : Nat) : Wire SseEvent SseFrame :=
  ⟨sseFramer maxStreamFrameBytes, {}, sseFinish, ProviderDecoder.decodeSse J⟩

def ndjsonWire (J : Json) (maxStreamFrameBytes : Nat) : Wire Unit String :=
  ⟨ndjsonFramer maxStreamFrameBytes, (), ndjsonFinish, ProviderDecoder.decodeNdjson J⟩

/-- What `next_chunk` returns before the end of the body. -/
inductive Arrival where
  | chunk (bytes : List UInt8)
  | failed (error : RuntimeError)
  deriving DecidableEq

/-- How the sending of an event goes. -/
inductive Delivery where
  | sent
  | cancelled
  | timedOut
  | closed
  deriving DecidableEq

def timeoutError (code : String) : RuntimeError := ⟨.timeout, code, "provider request timed out"⟩

def consumerClosed : RuntimeError :=
  ⟨.consumerClosed, "EVENT_CONSUMER_CLOSED", "provider event consumer closed before the stream completed"⟩

def deliverEvents (deliver : Nat → Delivery) (sent : List ProviderStreamEvent) :
    List ProviderStreamEvent → List ProviderStreamEvent × Option (Result ProviderRunOutcome)
  | [] => (sent, none)
  | event :: rest =>
    match deliver sent.length with
    | .sent => deliverEvents deliver (sent ++ [event]) rest
    | .cancelled => (sent, some (.ok .cancelled))
    | .timedOut => (sent, some (.error (timeoutError "OVERALL_TIMEOUT")))
    | .closed => (sent, some (.error consumerClosed))

/-- `deliver_decoded`: the events sent, and the outcome if the loop returns. -/
def deliverDecoded (deliver : Nat → Delivery) (sent : List ProviderStreamEvent) (decoded : DecodedFrame) :
    List ProviderStreamEvent × Option (Result ProviderRunOutcome) :=
  match deliverEvents deliver sent decoded.events with
  | (sent, none) => (sent, decoded.terminal.map .ok)
  | stopped => stopped

/-- What a run delivered and how it returned. -/
structure Run where
  delivered : List ProviderStreamEvent
  outcome : Result ProviderRunOutcome
  deriving DecidableEq

namespace Wire

variable {τ φ : Type} (W : Wire τ φ)

/-- The frames of one chunk: the loop returns, or goes on with the decoder. -/
def consumeFrames (deliver : Nat → Delivery) :
    List φ → ProviderDecoder → List ProviderStreamEvent → Run ⊕ ProviderDecoder × List ProviderStreamEvent
  | [], decoder, sent => .inr (decoder, sent)
  | frame :: rest, decoder, sent =>
    match W.decode decoder frame with
    | .error e => .inl ⟨sent, .error e⟩
    | .ok (decoded, decoder) =>
      match deliverDecoded deliver sent decoded with
      | (sent, some outcome) => .inl ⟨sent, outcome⟩
      | (sent, none) => consumeFrames deliver rest decoder sent

def atEnd (deliver : Nat → Delivery) (framer : State W.framer) (decoder : ProviderDecoder)
    (sent : List ProviderStreamEvent) : Run :=
  match W.finish framer with
  | .error e => ⟨sent, .error e⟩
  | .ok frames =>
    match W.consumeFrames deliver frames decoder sent with
    | .inl run => run
    | .inr (decoder, sent) => ⟨sent, decoder.finish⟩

/-- The loop from a framer, a decoder and what was sent already. -/
def consumeFrom (deliver : Nat → Delivery) :
    List Arrival → State W.framer → ProviderDecoder → List ProviderStreamEvent → Run
  | [], framer, decoder, sent => W.atEnd deliver framer decoder sent
  | .failed e :: _, _, _, sent => ⟨sent, if e.kind = .cancelled then .ok .cancelled else .error e⟩
  | .chunk bytes :: rest, framer, decoder, sent =>
    match W.framer.push framer bytes with
    | .error e => ⟨sent, .error e⟩
    | .ok (frames, framer) =>
      match W.consumeFrames deliver frames decoder sent with
      | .inl run => run
      | .inr (decoder, sent) => consumeFrom deliver rest framer decoder sent

/-- `consume_sse` and `consume_ndjson`. -/
def consume (provider : ProviderId) (deliver : Nat → Delivery) (arrivals : List Arrival) : Run :=
  W.consumeFrom deliver arrivals (W.framer.start W.fresh) (.new provider) []

end Wire

def consumeSse (J : Json) (maxStreamFrameBytes : Nat) (provider : ProviderId) (deliver : Nat → Delivery)
    (arrivals : List Arrival) : Run :=
  (sseWire J maxStreamFrameBytes).consume provider deliver arrivals

def consumeNdjson (J : Json) (maxStreamFrameBytes : Nat) (provider : ProviderId)
    (deliver : Nat → Delivery) (arrivals : List Arrival) : Run :=
  (ndjsonWire J maxStreamFrameBytes).consume provider deliver arrivals

/-! ## The frames of a stream -/

def received : List Arrival → List UInt8
  | .chunk bytes :: rest => bytes ++ received rest
  | _ => []

def ended (arrivals : List Arrival) : Bool := arrivals.all fun
  | .chunk _ => true
  | .failed _ => false

namespace Wire

variable {τ φ : Type} (W : Wire τ φ)

def lastFrames (framer : State W.framer) : List φ :=
  match W.finish framer with
  | .ok frames => frames
  | .error _ => []

def framesFrom (framer : State W.framer) (bytes : List UInt8) (ended : Bool) : List φ :=
  match W.framer.scan framer bytes with
  | (frames, .ok framer) => frames ++ if ended then W.lastFrames framer else []
  | (frames, .error _) => frames

def frames (bytes : List UInt8) (ended : Bool) : List φ :=
  W.framesFrom (W.framer.start W.fresh) bytes ended

def events : ProviderDecoder → List φ → List ProviderStreamEvent
  | _, [] => []
  | decoder, frame :: rest =>
    match W.decode decoder frame with
    | .ok (decoded, decoder) => decoded.events ++ events decoder rest
    | .error _ => []

theorem framesFrom_append (framer : State W.framer) (front back : List UInt8) (ended : Bool) :
    W.framesFrom framer (front ++ back) ended =
      match W.framer.scan framer front with
      | (frames, .ok framer) => frames ++ W.framesFrom framer back ended
      | (frames, .error _) => frames := by
  unfold framesFrom
  rw [Reader.scan_append]
  rcases W.framer.scan framer front with ⟨frames, e | framer⟩
  · rfl
  · simp only [Reader.andThen]
    rcases W.framer.scan framer back with ⟨more, e | framer'⟩
    · rfl
    · exact List.append_assoc _ _ _

theorem framesFrom_nil (framer : State W.framer) (ended : Bool) :
    W.framesFrom framer [] ended = if ended then W.lastFrames framer else [] := by
  unfold framesFrom
  rw [Reader.scan_nil]
  exact List.nil_append _

theorem events_of_refused {decoder : ProviderDecoder}
    (h : ∀ frame, ∃ e, W.decode decoder frame = .error e) (frames : List φ) :
    W.events decoder frames = [] := by
  cases frames with
  | nil => rfl
  | cons frame rest =>
    obtain ⟨e, hdecode⟩ := h frame
    simp only [events, hdecode]

theorem events_isPrefix (decoder : ProviderDecoder) (frames more : List φ) :
    W.events decoder frames <+: W.events decoder (frames ++ more) := by
  induction frames generalizing decoder with
  | nil => exact List.nil_prefix
  | cons frame rest ih =>
    rw [List.cons_append]
    unfold events
    cases W.decode decoder frame with
    | error e => exact List.prefix_rfl
    | ok result => exact (List.prefix_append_right_inj _).mpr (ih result.2)

end Wire

/-! ## Delivery -/

/-- How the loop returns where an event is not sent. -/
inductive Interrupted (deliver : Nat → Delivery) : Result ProviderRunOutcome → Prop
  | cancelled (n : Nat) (h : deliver n = .cancelled) : Interrupted deliver (.ok .cancelled)
  | refused (n : Nat) (h : deliver n ≠ .sent) (e : RuntimeError) : Interrupted deliver (.error e)

theorem deliverEvents_cases (deliver : Nat → Delivery) (sent events : List ProviderStreamEvent) :
    deliverEvents deliver sent events = (sent ++ events, none) ∨
      ∃ part outcome, deliverEvents deliver sent events = (sent ++ part, some outcome) ∧
        part <+: events ∧ Interrupted deliver outcome := by
  induction events generalizing sent with
  | nil => exact .inl (by rw [List.append_nil]; rfl)
  | cons event rest ih =>
    cases hdeliver : deliver sent.length with
    | sent =>
      simp only [deliverEvents, hdeliver]
      obtain hsent | ⟨part, outcome, hstop, hpart, hinterrupted⟩ := ih (sent ++ [event])
      · exact .inl (by rw [hsent, List.append_assoc, List.singleton_append])
      · refine .inr ⟨event :: part, outcome, ?_, (List.prefix_cons_inj event).mpr hpart, hinterrupted⟩
        rw [hstop, List.append_assoc, List.singleton_append]
    | cancelled =>
      simp only [deliverEvents, hdeliver]
      exact .inr ⟨[], _, by rw [List.append_nil], List.nil_prefix, .cancelled _ hdeliver⟩
    | timedOut =>
      simp only [deliverEvents, hdeliver]
      exact .inr ⟨[], _, by rw [List.append_nil], List.nil_prefix,
        .refused _ (by rw [hdeliver]; decide) _⟩
    | closed =>
      simp only [deliverEvents, hdeliver]
      exact .inr ⟨[], _, by rw [List.append_nil], List.nil_prefix,
        .refused _ (by rw [hdeliver]; decide) _⟩

theorem deliverDecoded_cases (deliver : Nat → Delivery) (sent : List ProviderStreamEvent)
    (decoded : DecodedFrame) :
    deliverDecoded deliver sent decoded = (sent ++ decoded.events, decoded.terminal.map .ok) ∨
      ∃ part outcome, deliverDecoded deliver sent decoded = (sent ++ part, some outcome) ∧
        part <+: decoded.events ∧ Interrupted deliver outcome := by
  unfold deliverDecoded
  obtain hsent | ⟨part, outcome, hstop, hpart, hinterrupted⟩ :=
    deliverEvents_cases deliver sent decoded.events
  · exact .inl (by rw [hsent])
  · exact .inr ⟨part, outcome, by rw [hstop], hpart, hinterrupted⟩

theorem not_interrupted {deliver : Nat → Delivery} (h : ∀ n, deliver n = .sent)
    {outcome : Result ProviderRunOutcome} : ¬ Interrupted deliver outcome := by
  rintro (⟨n, hn⟩ | ⟨n, hn, _⟩)
  · rw [h n] at hn
    cases hn
  · exact hn (h n)

/-! ## What the loop relies on -/

/-- The decoding of a wire: `isTerminal` tells the provider's terminal frames. -/
structure Wire.Lawful {τ φ : Type} (W : Wire τ φ) (provider : ProviderId) (isTerminal : φ → Bool) :
    Prop where
  framing : ∀ inner line, FailsWith FramingError (W.framer.line inner line)
  tooLarge : FramingError W.framer.tooLarge
  ends : ∀ {decoder decoder' frame decoded}, Serves provider decoder →
    W.decode decoder frame = .ok (decoded, decoder') →
    Serves provider decoder' ∧ Ends (isTerminal frame) decoded decoder'.terminal
  refuses : ∀ {decoder} frame, decoder.terminal ≠ none → ∃ e, W.decode decoder frame = .error e
  decoding : ∀ decoder frame, FailsWith DecodingError (W.decode decoder frame)

theorem sseWire_lawful (J : Json) (maxStreamFrameBytes : Nat) (provider : ProviderId) :
    (sseWire J maxStreamFrameBytes).Lawful provider (sseTerminal J provider) where
  framing := fun _ _ => processLine_fails _ _ _
  tooLarge := .inl rfl
  ends := fun hserves hdecode =>
    have hsees := (decodeSse_sees J _ hserves).of_ok hdecode
    ⟨hsees.1, hsees.2.1⟩
  refuses := fun _ h => decodeSse_ended h
  decoding := fun decoder _ => (decodeSse_sees J _ (exists_serves decoder).choose_spec).fails

theorem ndjsonWire_lawful (J : Json) (maxStreamFrameBytes : Nat) (provider : ProviderId) :
    (ndjsonWire J maxStreamFrameBytes).Lawful provider (ndjsonTerminal J provider) where
  framing := fun _ _ => ndjsonLine_fails _
  tooLarge := .inr (.inr (.inl rfl))
  ends := fun hserves hdecode =>
    have hsees := (decodeNdjson_sees J _ hserves).of_ok hdecode
    ⟨hsees.1, hsees.2.1⟩
  refuses := fun _ h => decodeNdjson_ended h
  decoding := fun decoder _ => (decodeNdjson_sees J _ (exists_serves decoder).choose_spec).fails

end Lorepia.ProviderRuntime
