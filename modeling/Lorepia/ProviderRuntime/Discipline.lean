import Lorepia.ProviderRuntime.Consume

/-!
# Terminal discipline

What a run of the consume loop delivers is a beginning of the events of the stream's frames,
and it completes only at the first terminal frame. `Follows` says this of the rest of a run; it
is carried through the frames of a chunk and from chunk to chunk.
-/

namespace Lorepia.ProviderRuntime

open Lines (Reader State)
open Providers (ProviderId)

variable {τ φ : Type}

/-- The run was cancelled, at an event or while it waited for the body. -/
def WasCancelled (deliver : Nat → Delivery) (arrivals : List Arrival) : Prop :=
  (∃ n, deliver n = .cancelled) ∨ ∃ e, .failed e ∈ arrivals ∧ e.kind = .cancelled

/-- The first terminal frame of a list. -/
structure FirstTerminal (isTerminal : φ → Bool) (frames before : List φ) (frame : φ) : Prop where
  found : ∃ after, frames = before ++ frame :: after
  terminal : isTerminal frame = true
  first : ∀ earlier ∈ before, isTerminal earlier = false

/-- A run from `decoder` and `sent` over the frames that are still to come. -/
structure Wire.Follows (W : Wire τ φ) (isTerminal : φ → Bool) (cancelled : Prop)
    (decoder : ProviderDecoder) (frames : List φ) (sent : List ProviderStreamEvent) (run : Run) : Prop where
  inOrder : ∃ part, run.delivered = sent ++ part ∧ part <+: W.events decoder frames
  completed : ∀ outcome, run.outcome = .ok outcome → outcome ≠ .cancelled →
    ∃ before frame, FirstTerminal isTerminal frames before frame ∧
      run.delivered = sent ++ W.events decoder (before ++ [frame])
  cancelled : run.outcome = .ok .cancelled → cancelled

/-- The decoder accepts the frames, and none of them ends the stream. -/
structure Wire.Passes (W : Wire τ φ) (isTerminal : φ → Bool) (decoder : ProviderDecoder)
    (frames : List φ) (decoder' : ProviderDecoder) : Prop where
  events : ∀ more, W.events decoder (frames ++ more) = W.events decoder frames ++ W.events decoder' more
  nonterminal : ∀ frame ∈ frames, isTerminal frame = false

namespace Wire

variable {W : Wire τ φ} {isTerminal : φ → Bool} {cancelled : Prop} {decoder decoder' : ProviderDecoder}
  {frames more : List φ} {sent : List ProviderStreamEvent} {run : Run}

theorem Follows.error (e : RuntimeError) :
    W.Follows isTerminal cancelled decoder frames sent ⟨sent, .error e⟩ where
  inOrder := ⟨[], (List.append_nil _).symm, List.nil_prefix⟩
  completed := fun _ h => nomatch h
  cancelled := fun h => nomatch h

theorem Follows.extend (h : W.Follows isTerminal cancelled decoder frames sent run) (more : List φ) :
    W.Follows isTerminal cancelled decoder (frames ++ more) sent run where
  inOrder := by
    obtain ⟨part, hpart, hprefix⟩ := h.inOrder
    exact ⟨part, hpart, hprefix.trans (W.events_isPrefix decoder frames more)⟩
  completed := by
    intro outcome houtcome hne
    obtain ⟨before, frame, ⟨⟨after, rfl⟩, hterminal, hfirst⟩, hdelivered⟩ :=
      h.completed outcome houtcome hne
    refine ⟨before, frame, ⟨⟨after ++ more, ?_⟩, hterminal, hfirst⟩, hdelivered⟩
    rw [List.append_assoc, List.cons_append]
  cancelled := h.cancelled

theorem Follows.after (hpasses : W.Passes isTerminal decoder frames decoder')
    (h : W.Follows isTerminal cancelled decoder' more (sent ++ W.events decoder frames) run) :
    W.Follows isTerminal cancelled decoder (frames ++ more) sent run where
  inOrder := by
    obtain ⟨part, hpart, hprefix⟩ := h.inOrder
    refine ⟨W.events decoder frames ++ part, by rw [hpart, List.append_assoc], ?_⟩
    rw [hpasses.events]
    exact (List.prefix_append_right_inj _).mpr hprefix
  completed := by
    intro outcome houtcome hne
    obtain ⟨before, frame, ⟨⟨after, rfl⟩, hterminal, hfirst⟩, hdelivered⟩ :=
      h.completed outcome houtcome hne
    refine ⟨frames ++ before, frame, ⟨⟨after, by rw [List.append_assoc]⟩, hterminal, ?_⟩, ?_⟩
    · intro earlier hearlier
      rcases List.mem_append.mp hearlier with hmem | hmem
      · exact hpasses.nonterminal earlier hmem
      · exact hfirst earlier hmem
    · rw [hdelivered, List.append_assoc, List.append_assoc, hpasses.events]
  cancelled := h.cancelled

variable {deliver : Nat → Delivery} {provider : ProviderId}

theorem Follows.interrupted {outcome : Result ProviderRunOutcome}
    (hinterrupted : Interrupted deliver outcome) (hcancelled : (∃ n, deliver n = .cancelled) → cancelled)
    {part : List ProviderStreamEvent} (hpart : part <+: W.events decoder frames) :
    W.Follows isTerminal cancelled decoder frames sent ⟨sent ++ part, outcome⟩ where
  inOrder := ⟨part, rfl, hpart⟩
  completed := by
    intro outcome' houtcome hne
    obtain ⟨n, h⟩ | ⟨n, h, e⟩ := hinterrupted
    · cases houtcome
      exact absurd rfl hne
    · cases houtcome
  cancelled := by
    intro houtcome
    obtain ⟨n, h⟩ | ⟨n, h, e⟩ := hinterrupted
    · exact hcancelled ⟨n, h⟩
    · cases houtcome

theorem Passes.nil : W.Passes isTerminal decoder [] decoder :=
  ⟨fun _ => rfl, fun _ h => nomatch h⟩

theorem Passes.cons {frame : φ} {decoded : DecodedFrame} {middle : ProviderDecoder}
    (hdecode : W.decode decoder frame = .ok (decoded, middle)) (hterminal : isTerminal frame = false)
    (h : W.Passes isTerminal middle frames decoder') : W.Passes isTerminal decoder (frame :: frames) decoder' where
  events := by
    intro more
    simp only [List.cons_append, Wire.events, hdecode, h.events, List.append_assoc]
  nonterminal := by
    intro earlier hearlier
    rcases List.mem_cons.mp hearlier with rfl | hmem
    · exact hterminal
    · exact h.nonterminal earlier hmem

/-- Goes on with a decoder that has not ended, or returns. -/
def FramesSpec (W : Wire τ φ) (provider : ProviderId) (isTerminal : φ → Bool) (cancelled : Prop)
    (decoder : ProviderDecoder) (frames : List φ) (sent : List ProviderStreamEvent) :
    Run ⊕ ProviderDecoder × List ProviderStreamEvent → Prop
  | .inl run => W.Follows isTerminal cancelled decoder frames sent run
  | .inr (decoder', sent') => Serves provider decoder' ∧ decoder'.terminal = none ∧
      sent' = sent ++ W.events decoder frames ∧ W.Passes isTerminal decoder frames decoder'

theorem consumeFrames_spec (hW : W.Lawful provider isTerminal)
    (hcancelled : (∃ n, deliver n = .cancelled) → cancelled)
    (frames : List φ) (hserves : Serves provider decoder) (hopen : decoder.terminal = none)
    (sent : List ProviderStreamEvent) :
    W.FramesSpec provider isTerminal cancelled decoder frames sent
      (W.consumeFrames deliver frames decoder sent) := by
  induction frames generalizing decoder sent with
  | nil => exact ⟨hserves, hopen, (List.append_nil _).symm, .nil⟩
  | cons frame rest ih =>
    unfold consumeFrames
    cases hdecode : W.decode decoder frame with
    | error e => exact Follows.error e
    | ok result =>
      obtain ⟨decoded, middle⟩ := result
      obtain ⟨hmiddle, hkept, hiff, hcompleted⟩ := hW.ends hserves hdecode
      have hevents : ∀ more, W.events decoder (frame :: more) = decoded.events ++ W.events middle more := by
        intro more
        simp only [events, hdecode]
      simp only
      obtain hsent | ⟨part, outcome, hstop, hpart, hinterrupted⟩ :=
        deliverDecoded_cases deliver sent decoded
      · rw [hsent]
        cases hterminal : decoded.terminal with
        | some outcome =>
          -- the frame is the provider's terminal frame and the loop returns its outcome
          rw [hterminal] at hiff
          refine ⟨⟨decoded.events, rfl, ?_⟩, ?_, ?_⟩
          · rw [hevents]
            exact List.prefix_append _ _
          · intro _ _ _
            refine ⟨[], frame, ⟨⟨rest, rfl⟩, hiff.symm, fun _ h => absurd h List.not_mem_nil⟩, ?_⟩
            rw [List.nil_append, hevents]
            exact congrArg (sent ++ ·) (List.append_nil _).symm
          · intro houtcome
            cases houtcome
            exact absurd rfl (hcompleted _ (by rw [hterminal]; rfl))
        | none =>
          rw [hterminal] at hiff hkept
          have hrest := ih hmiddle hkept (sent ++ decoded.events)
          have hpasses : W.Passes isTerminal decoder [frame] middle := .cons hdecode hiff.symm .nil
          have hone : sent ++ decoded.events = sent ++ W.events decoder [frame] := by
            rw [hevents]
            exact congrArg (sent ++ ·) (List.append_nil _).symm
          simp only [Option.map_none]
          rcases hnext : W.consumeFrames deliver rest middle (sent ++ decoded.events) with run | ⟨decoder', sent'⟩
          · rw [hnext, hone] at hrest
            exact Follows.after hpasses hrest
          · rw [hnext] at hrest
            obtain ⟨hserves', hopen', rfl, hpasses'⟩ := hrest
            refine ⟨hserves', hopen', ?_, .cons hdecode hiff.symm hpasses'⟩
            rw [hevents, List.append_assoc]
      · rw [hstop]
        refine Follows.interrupted hinterrupted hcancelled ?_
        rw [hevents]
        exact hpart.trans (List.prefix_append _ _)

theorem atEnd_follows (hW : W.Lawful provider isTerminal)
    (hcancelled : (∃ n, deliver n = .cancelled) → cancelled)
    (framer : State W.framer) (hserves : Serves provider decoder) (hopen : decoder.terminal = none)
    (sent : List ProviderStreamEvent) :
    W.Follows isTerminal cancelled decoder (W.lastFrames framer) sent
      (W.atEnd deliver framer decoder sent) := by
  unfold atEnd lastFrames
  cases W.finish framer with
  | error e => exact .error e
  | ok frames =>
    have hspec := consumeFrames_spec hW hcancelled frames hserves hopen sent
    simp only
    rcases hnext : W.consumeFrames deliver frames decoder sent with run | ⟨decoder', sent'⟩
    · rw [hnext] at hspec
      exact hspec
    · rw [hnext] at hspec
      obtain ⟨-, hopen', rfl, hpasses⟩ := hspec
      -- no frame was terminal, so the decoder refuses to finish
      have hfinish : decoder'.finish = .error decoder'.missingTerminal := by
        unfold ProviderDecoder.finish
        rw [hopen']
        rfl
      simp only [hfinish]
      have hend : W.Follows isTerminal cancelled decoder' [] (sent ++ W.events decoder frames)
          ⟨sent ++ W.events decoder frames, .error decoder'.missingTerminal⟩ := .error _
      have hafter := Follows.after hpasses hend
      rwa [List.append_nil] at hafter

theorem consumeFrom_follows (hW : W.Lawful provider isTerminal) {arrivals : List Arrival}
    (framer : State W.framer)
    (hcancelled : WasCancelled deliver arrivals → cancelled)
    (hserves : Serves provider decoder) (hopen : decoder.terminal = none) (sent : List ProviderStreamEvent) :
    W.Follows isTerminal cancelled decoder (W.framesFrom framer (received arrivals) (ended arrivals)) sent
      (W.consumeFrom deliver arrivals framer decoder sent) := by
  induction arrivals generalizing framer decoder sent with
  | nil =>
    show W.Follows isTerminal cancelled decoder (W.framesFrom framer [] true) sent _
    rw [framesFrom_nil, if_pos rfl]
    exact atEnd_follows hW (fun h => hcancelled (.inl h)) framer hserves hopen sent
  | cons arrival rest ih =>
    cases arrival with
    | failed e =>
      refine ⟨⟨[], (List.append_nil _).symm, List.nil_prefix⟩, ?_, ?_⟩
      · intro outcome houtcome hne
        simp only [consumeFrom] at houtcome
        split at houtcome
        · cases houtcome
          exact absurd rfl hne
        · cases houtcome
      · intro houtcome
        simp only [consumeFrom] at houtcome
        split at houtcome
        · next hkind => exact hcancelled (.inr ⟨e, List.mem_cons_self, hkind⟩)
        · cases houtcome
    | chunk bytes =>
      have hrest : WasCancelled deliver rest → cancelled := by
        rintro (hdeliver | ⟨e, hmem, hkind⟩)
        · exact hcancelled (.inl hdeliver)
        · exact hcancelled (.inr ⟨e, List.mem_cons_of_mem _ hmem, hkind⟩)
      show W.Follows isTerminal cancelled decoder
        (W.framesFrom framer (bytes ++ received rest) (ended rest)) sent _
      rw [framesFrom_append]
      unfold consumeFrom
      rw [Reader.push_eq]
      rcases W.framer.scan framer bytes with ⟨frames, e | framer'⟩
      · exact .error e
      · simp only [Reader.collect]
        have hspec := consumeFrames_spec hW (fun h => hcancelled (.inl h)) frames hserves hopen sent
        rcases hnext : W.consumeFrames deliver frames decoder sent with run | ⟨decoder', sent'⟩
        · rw [hnext] at hspec
          exact Follows.extend hspec _
        · rw [hnext] at hspec
          obtain ⟨hserves', hopen', rfl, hpasses⟩ := hspec
          exact Follows.after hpasses (ih framer' hrest hserves' hopen' _)

theorem events_terminal (hW : W.Lawful provider isTerminal)
    (hserves : Serves provider decoder) {before after : List φ} {frame : φ} (hterminal : isTerminal frame = true) :
    W.events decoder (before ++ frame :: after) = W.events decoder (before ++ [frame]) := by
  induction before generalizing decoder with
  | nil =>
    rw [List.nil_append, List.nil_append]
    unfold events
    cases hdecode : W.decode decoder frame with
    | error e => rfl
    | ok result =>
      obtain ⟨-, hkept, hiff, -⟩ := hW.ends hserves hdecode
      refine congrArg (result.1.events ++ ·) (W.events_of_refused ?_ after)
      refine fun next => hW.refuses next ?_
      rw [hkept, ← Option.isSome_iff_ne_none, hiff, hterminal]
  | cons earlier rest ih =>
    rw [List.cons_append, List.cons_append]
    unfold events
    cases hdecode : W.decode decoder earlier with
    | error e => rfl
    | ok result => exact congrArg (result.1.events ++ ·) (ih (hW.ends hserves hdecode).1)

end Wire

/-- The discipline of a provider's streams. -/
structure Wire.Disciplined (W : Wire τ φ) (provider : ProviderId) (isTerminal : φ → Bool)
    (deliver : Nat → Delivery) (arrivals : List Arrival) (frames : List φ) (run : Run) : Prop where
  /-- Events are delivered in the order of the stream. -/
  inOrder : run.delivered <+: W.events (.new provider) frames
  /-- A completed run has delivered the events of the frames up to the first terminal one. -/
  completed : ∀ reason usage, run.outcome = .ok (.completed reason usage) →
    ∃ before frame, FirstTerminal isTerminal frames before frame ∧
      run.delivered = W.events (.new provider) (before ++ [frame])
  /-- Nothing is delivered after a terminal frame. -/
  nothingAfter : ∀ before frame after, frames = before ++ frame :: after → isTerminal frame = true →
    run.delivered <+: W.events (.new provider) (before ++ [frame])
  /-- A stream without a terminal frame fails, unless the run is cancelled. -/
  truncated : (∀ frame ∈ frames, isTerminal frame = false) →
    (∃ e, run.outcome = .error e) ∨ run.outcome = .ok .cancelled ∧ WasCancelled deliver arrivals

theorem Wire.consume_disciplined {W : Wire τ φ} {provider : ProviderId} {isTerminal : φ → Bool}
    (hW : W.Lawful provider isTerminal) (deliver : Nat → Delivery) (arrivals : List Arrival) :
    W.Disciplined provider isTerminal deliver arrivals (W.frames (received arrivals) (ended arrivals))
      (W.consume provider deliver arrivals) := by
  obtain ⟨hserves, hopen⟩ := serves_new provider
  have hfollows : W.Follows isTerminal (WasCancelled deliver arrivals) (.new provider)
      (W.frames (received arrivals) (ended arrivals)) [] (W.consume provider deliver arrivals) :=
    Wire.consumeFrom_follows hW (W.framer.start W.fresh) id hserves hopen []
  obtain ⟨part, hpart, hprefix⟩ := hfollows.inOrder
  rw [List.nil_append] at hpart
  have hinOrder : (W.consume provider deliver arrivals).delivered <+:
      W.events (.new provider) (W.frames (received arrivals) (ended arrivals)) := by
    rw [hpart]
    exact hprefix
  refine ⟨hinOrder, ?_, ?_, ?_⟩
  · intro reason usage houtcome
    exact hfollows.completed _ houtcome (fun h => nomatch h)
  · intro before frame after hframes hterminal
    rw [hframes, W.events_terminal hW hserves hterminal] at hinOrder
    exact hinOrder
  · intro hnone
    cases houtcome : (W.consume provider deliver arrivals).outcome with
    | error e => exact .inl ⟨e, rfl⟩
    | ok outcome =>
      cases outcome with
      | cancelled => exact .inr ⟨rfl, hfollows.cancelled houtcome⟩
      | completed reason usage =>
        obtain ⟨before, frame, ⟨⟨after, hframes⟩, hterminal, -⟩, -⟩ :=
          hfollows.completed _ houtcome (fun h => nomatch h)
        have hmem : frame ∈ W.frames (received arrivals) (ended arrivals) := by
          rw [hframes]
          exact List.mem_append_right _ List.mem_cons_self
        rw [hnone frame hmem] at hterminal
        cases hterminal

/-- Terminal discipline, for every provider, both protocols, every way the bytes arrive and
every way the events are taken. -/
theorem terminal_discipline (J : Json) (maxStreamFrameBytes : Nat) (provider : ProviderId)
    (deliver : Nat → Delivery) (arrivals : List Arrival) :
    (sseWire J maxStreamFrameBytes).Disciplined provider (sseTerminal J provider) deliver arrivals
      ((sseWire J maxStreamFrameBytes).frames (received arrivals) (ended arrivals))
      (consumeSse J maxStreamFrameBytes provider deliver arrivals) ∧
    (ndjsonWire J maxStreamFrameBytes).Disciplined provider (ndjsonTerminal J provider) deliver arrivals
      ((ndjsonWire J maxStreamFrameBytes).frames (received arrivals) (ended arrivals))
      (consumeNdjson J maxStreamFrameBytes provider deliver arrivals) :=
  ⟨Wire.consume_disciplined (sseWire_lawful J maxStreamFrameBytes provider) deliver arrivals,
    Wire.consume_disciplined (ndjsonWire_lawful J maxStreamFrameBytes provider) deliver arrivals⟩

end Lorepia.ProviderRuntime
