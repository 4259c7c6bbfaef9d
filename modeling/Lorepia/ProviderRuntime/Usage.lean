import Lorepia.ProviderRuntime.Decode

/-!
# Token counts of Anthropic streams (`decode/anthropic.rs`, `event.rs`)

A `message_start` may give the counts of the input and of the output, and only there a total is
computed; a `message_delta` gives a new count of the output. `merge_from` replaces each count on
its own, so a stream ends with the latest value of each (`run_usage`), and the total may no
longer be their sum (`total_consistent_iff`).
-/

namespace Lorepia.ProviderRuntime

open Tools (Value)

namespace TokenUsage

def latest (count : TokenUsage → Option Nat) : List TokenUsage → Option Nat
  | [] => none
  | report :: rest => (latest count rest).or (count report)

variable {count : TokenUsage → Option Nat}

theorem foldl_mergeFrom
    (hmerge : ∀ usage newer, count (mergeFrom usage newer) = (count newer).or (count usage))
    (base : TokenUsage) (reports : List TokenUsage) :
    count (reports.foldl mergeFrom base) = (latest count reports).or (count base) := by
  induction reports generalizing base with
  | nil => rfl
  | cons report rest ih => rw [List.foldl_cons, ih, hmerge, latest, Option.or_assoc]

theorem latest_append (count : TokenUsage → Option Nat) (before after : List TokenUsage) :
    latest count (before ++ after) = (latest count after).or (latest count before) := by
  induction before with
  | nil => simp [latest]
  | cons report rest ih => rw [List.cons_append, latest, ih, latest, Option.or_assoc]

theorem exists_of_latest {reports : List TokenUsage} {n : Nat}
    (h : latest count reports = some n) : ∃ before report after,
      reports = before ++ report :: after ∧ count report = some n ∧ ∀ r ∈ after, count r = none := by
  induction reports with
  | nil => cases h
  | cons report rest ih =>
    rw [latest] at h
    cases hrest : latest count rest with
    | some m =>
      rw [hrest] at h
      obtain ⟨before, r, after, rfl, hr, hafter⟩ := ih (hrest.trans h)
      exact ⟨report :: before, r, after, rfl, hr, hafter⟩
    | none =>
      rw [hrest, Option.none_or] at h
      refine ⟨[], report, rest, rfl, h, ?_⟩
      clear ih h
      induction rest with
      | nil => simp
      | cons r rest ih =>
        rw [latest, Option.or_eq_none_iff] at hrest
        intro x hx
        rcases List.mem_cons.mp hx with rfl | hx
        · exact hrest.2
        · exact ih hrest.1 x hx

theorem latest_eq_none {reports : List TokenUsage}
    (h : ∀ r ∈ reports, count r = none) : latest count reports = none := by
  induction reports with
  | nil => rfl
  | cons r rest ih =>
    rw [latest, ih fun x hx => h x (List.mem_cons_of_mem _ hx), h r List.mem_cons_self]
    rfl

/-- The total is the sum of the other two counts, where all three are there. -/
def Consistent (usage : TokenUsage) : Prop :=
  ∀ input output total, usage.inputTokens = some input → usage.outputTokens = some output →
    usage.totalTokens = some total → total = saturatingAdd input output

/-- The reports after the last total leave its sum as it was. -/
def Settled (reports : List TokenUsage) : Prop :=
  ∀ before report after input output, reports = before ++ report :: after →
    report.inputTokens = some input → report.outputTokens = some output →
    report.totalTokens = some (saturatingAdd input output) → (∀ r ∈ after, r.totalTokens = none) →
    saturatingAdd ((latest inputTokens after).getD input) ((latest outputTokens after).getD output) =
      saturatingAdd input output

end TokenUsage

open TokenUsage

namespace AnthropicDecoder

def run (J : Json) : AnthropicDecoder → List SseFrame → Result AnthropicDecoder
  | d, [] => .ok d
  | d, frame :: rest => do
    let (_, d) ← d.decode J frame
    run J d rest

def report (J : Json) (frame : SseFrame) : TokenUsage :=
  match J.fromStr frame.data with
  | none => {}
  | some value =>
    if getStr value ["type"] = some "message_start" then startUsage value
    else if getStr value ["type"] = some "message_delta" then
      { outputTokens := valueU64 value ["usage", "output_tokens"] }
    else {}

/-- What an accepted frame does to the counts, and that an end reports them. -/
structure Counted (d : AnthropicDecoder) (newer : TokenUsage) (d' : AnthropicDecoder) : Prop where
  usage : d'.usage = d.usage.mergeFrom newer
  terminal : ∀ reason reported, d'.terminal = some (.completed reason (some reported)) →
    reported = d'.usage

variable {d d' : AnthropicDecoder} {value : Value} {output : DecodedFrame} {J : Json}

theorem Counted.running {newer : TokenUsage} (hterminal : d.terminal = none)
    (husage : d'.usage = d.usage.mergeFrom newer) (hsame : d'.terminal = d.terminal) :
    Counted d newer d' where
  usage := husage
  terminal reason reported h := by
    rw [hsame, hterminal] at h
    cases h

theorem messageStart_counted
    (hterminal : d.terminal = none) (h : d.messageStart value = .ok (output, d')) :
    Counted d (startUsage value) d' := by
  unfold messageStart at h
  simp only at h
  split at h
  · obtain ⟨event, -, h⟩ := except_bind_ok.mp h
    cases h
    exact .running hterminal rfl rfl
  · cases h
    exact .running hterminal rfl rfl

theorem delta_counted {field : String}
    {event : String → ProviderStreamEvent} (hterminal : d.terminal = none)
    (h : d.delta value field event = .ok (output, d')) : Counted d {} d' := by
  obtain ⟨text, -, h⟩ := except_bind_ok.mp h
  cases h
  exact .running hterminal rfl rfl

theorem contentBlockDelta_counted
    (hterminal : d.terminal = none) (h : d.contentBlockDelta value = .ok (output, d')) :
    Counted d {} d' := by
  unfold contentBlockDelta at h
  split at h
  · cases h
  · split at h
    · exact delta_counted hterminal h
    · split at h
      · exact delta_counted hterminal h
      · split at h
        · cases h
        · cases h
          exact .running hterminal rfl rfl

theorem messageStop_counted (d : AnthropicDecoder) : Counted d {} d.messageStop.2 where
  usage := rfl
  terminal reason reported h := by
    simp only [messageStop, completed, Option.some.injEq, ProviderRunOutcome.completed.injEq] at h
    obtain ⟨-, h⟩ := h
    split at h
    · cases h
    · exact (Option.some.inj h).symm

theorem decode_counted {frame : SseFrame}
    (h : d.decode J frame = .ok (output, d')) : Counted d (report J frame) d' := by
  obtain ⟨_, hterminal, h⟩ := except_bind_ok.mp h
  obtain ⟨value, hvalue, h⟩ := except_bind_ok.mp h
  obtain ⟨eventType, htype, h⟩ := except_bind_ok.mp h
  obtain ⟨_, _, h⟩ := except_bind_ok.mp h
  replace hterminal : d.terminal = none := ensure_ok.mp hterminal
  rw [parseJson, required_ok] at hvalue
  rw [required_ok] at htype
  -- only two kinds of frames report counts
  have hreport : report J frame =
      if eventType = "message_start" then startUsage value
      else if eventType = "message_delta" then
        { outputTokens := valueU64 value ["usage", "output_tokens"] }
      else {} := by
    simp only [report, hvalue, htype, Option.some.injEq]
  rw [hreport]
  unfold handle at h
  by_cases hstart : eventType = "message_start"
  · rw [if_pos hstart] at h ⊢
    exact messageStart_counted hterminal h
  rw [if_neg hstart] at h ⊢
  by_cases hdelta : eventType = "message_delta"
  · subst hdelta
    rw [if_neg (by decide), if_neg (by decide), if_pos rfl] at h
    rw [if_pos rfl]
    cases h
    exact .running hterminal rfl rfl
  rw [if_neg hdelta] at h ⊢
  split at h
  · obtain ⟨kind, _, h⟩ := except_bind_ok.mp h
    obtain ⟨_, _, h⟩ := except_bind_ok.mp h
    cases h
    exact .running hterminal rfl rfl
  split at h
  · exact contentBlockDelta_counted hterminal h
  split at h
  · cases h
    exact messageStop_counted d
  split at h
  · cases h
  · cases h
    exact .running hterminal rfl rfl

theorem run_usage {frames : List SseFrame}
    (h : d.run J frames = .ok d') : d'.usage = (frames.map (report J)).foldl mergeFrom d.usage := by
  induction frames generalizing d with
  | nil =>
    cases h
    rfl
  | cons frame rest ih =>
    obtain ⟨⟨output, middle⟩, hframe, h⟩ := except_bind_ok.mp h
    rw [ih h, (decode_counted hframe).usage]
    rfl

theorem run_terminal {frames : List SseFrame}
    (hstart : d.terminal = none) (h : d.run J frames = .ok d') {reason : Option CompletionReason}
    {reported : TokenUsage} (hend : d'.terminal = some (.completed reason (some reported))) :
    reported = d'.usage := by
  induction frames generalizing d with
  | nil =>
    cases h
    rw [hstart] at hend
    cases hend
  | cons frame rest ih =>
    obtain ⟨⟨output, middle⟩, hframe, h⟩ := except_bind_ok.mp h
    cases rest with
    | nil =>
      cases h
      exact (decode_counted hframe).terminal reason reported hend
    | cons next rest =>
      -- a frame after the end is refused
      have hopen : middle.terminal = none := by
        obtain ⟨_, hnext, -⟩ := except_bind_ok.mp h
        obtain ⟨_, hterminal, -⟩ := except_bind_ok.mp hnext
        exact ensure_ok.mp hterminal
      exact ih hopen h

theorem report_total {frame : SseFrame} {total : Nat}
    (h : (report J frame).totalTokens = some total) : ∃ input output,
      (report J frame).inputTokens = some input ∧ (report J frame).outputTokens = some output ∧
        total = saturatingAdd input output := by
  unfold report at h ⊢
  split at h
  · cases h
  · next value hvalue =>
    split at h
    · next hstart =>
      simp only [if_pos hstart]
      simp only [startUsage] at h ⊢
      unfold totalOf at h
      split at h
      · next input output hinput houtput =>
        exact ⟨input, output, hinput, houtput, (Option.some.inj h).symm⟩
      · cases h
    · split at h
      · cases h
      · cases h

end AnthropicDecoder

/-- The usage at the end of an Anthropic stream has a total that is the sum of the other counts
exactly if the reports after the last total leave the sum as it was. -/
theorem total_consistent_iff (J : Json) (frames : List SseFrame) (d : AnthropicDecoder)
    (reason : Option CompletionReason) (usage : TokenUsage)
    (hrun : AnthropicDecoder.run J {} frames = .ok d)
    (hend : d.terminal = some (.completed reason (some usage))) :
    usage.Consistent ↔ Settled (frames.map (AnthropicDecoder.report J)) := by
  obtain rfl := AnthropicDecoder.run_terminal rfl hrun hend
  have husage := AnthropicDecoder.run_usage hrun
  generalize hreports : frames.map (AnthropicDecoder.report J) = reports at husage ⊢
  have hcount : ∀ count : TokenUsage → Option Nat,
      (∀ usage newer, count (mergeFrom usage newer) = (count newer).or (count usage)) →
      count {} = none → count d.usage = latest count reports := fun count hmerge hempty => by
    rw [husage, foldl_mergeFrom hmerge]
    show (latest count reports).or (count {}) = _
    rw [hempty, Option.or_none]
  have hinput := hcount inputTokens (fun _ _ => rfl) rfl
  have houtput := hcount outputTokens (fun _ _ => rfl) rfl
  have htotal := hcount totalTokens (fun _ _ => rfl) rfl
  have hlatest : ∀ (count : TokenUsage → Option Nat) (before after : List TokenUsage) (r : TokenUsage)
      (n : Nat), count r = some n →
      latest count (before ++ r :: after) = some ((latest count after).getD n) := by
    intro count before after r n hr
    rw [latest_append, latest, hr]
    cases latest count after <;> rfl
  constructor
  · intro hconsistent before report after input output hsplit hin hout htot hafter
    rw [hsplit, hlatest inputTokens before after report input hin] at hinput
    rw [hsplit, hlatest outputTokens before after report output hout] at houtput
    rw [hsplit, hlatest totalTokens before after report _ htot, latest_eq_none hafter] at htotal
    exact (hconsistent _ _ _ hinput houtput htotal).symm
  · intro hsettled input output total hin hout htot
    obtain ⟨before, report, after, hsplit, hreport, hafter⟩ := exists_of_latest (htotal.symm.trans htot)
    have hmem : report ∈ reports := hsplit ▸ List.mem_append_right _ List.mem_cons_self
    rw [← hreports] at hmem
    obtain ⟨frame, -, rfl⟩ := List.mem_map.mp hmem
    obtain ⟨input', output', hin', hout', rfl⟩ := AnthropicDecoder.report_total hreport
    rw [hsplit, hlatest inputTokens before after _ input' hin', hin] at hinput
    rw [hsplit, hlatest outputTokens before after _ output' hout', hout] at houtput
    rw [Option.some.inj hinput, Option.some.inj houtput]
    exact (hsettled before _ after input' output' hsplit hin' hout' hreport hafter).symm

/-! ## A stream whose output grows after the total was computed -/

namespace TotalSample

def startData : String :=
  "\x7b\"type\":\"message_start\",\"message\":\x7b\"usage\":\x7b\"input_tokens\":10,\"output_tokens\":1\x7d\x7d\x7d"

def deltaData : String := "\x7b\"type\":\"message_delta\",\"usage\":\x7b\"output_tokens\":20\x7d\x7d"

def stopData : String := "\x7b\"type\":\"message_stop\"\x7d"

def json : Json where
  fromStr := fun text =>
    if text = startData then
      some (.object [("type", .string "message_start"), ("message", .object [("usage", .object
        [("input_tokens", .number (.posInt 10)), ("output_tokens", .number (.posInt 1))])])])
    else if text = deltaData then
      some (.object [("type", .string "message_delta"),
        ("usage", .object [("output_tokens", .number (.posInt 20))])])
    else if text = stopData then some (.object [("type", .string "message_stop")])
    else none

def grown : TokenUsage := { inputTokens := some 10, outputTokens := some 20, totalTokens := some 11 }

def steady : TokenUsage := { inputTokens := some 10, outputTokens := some 1, totalTokens := some 11 }

theorem run_grown :
    AnthropicDecoder.run json {} [⟨none, startData⟩, ⟨none, deltaData⟩, ⟨none, stopData⟩] =
      .ok { usage := grown, terminal := some (.completed none (some grown)) } := by
  decide

theorem run_steady :
    AnthropicDecoder.run json {} [⟨none, startData⟩, ⟨none, stopData⟩] =
      .ok { usage := steady, terminal := some (.completed none (some steady)) } := by
  decide

end TotalSample

open TotalSample

/-- The output reported by `message_delta` is not in the total. -/
theorem total_stale :
    AnthropicDecoder.run json {} [⟨none, startData⟩, ⟨none, deltaData⟩, ⟨none, stopData⟩] =
        .ok { usage := grown, terminal := some (.completed none (some grown)) } ∧
      ¬ grown.Consistent :=
  ⟨run_grown, fun h => absurd (h 10 20 11 rfl rfl rfl) (by decide)⟩

/-- Without a later report the total is right. -/
theorem total_consistent_iff_steady :
    steady.Consistent ↔
      Settled ([⟨none, startData⟩, ⟨none, stopData⟩].map (AnthropicDecoder.report json)) :=
  total_consistent_iff json _ _ none steady run_steady rfl

end Lorepia.ProviderRuntime
