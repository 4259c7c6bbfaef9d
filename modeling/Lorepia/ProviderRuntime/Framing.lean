import Lorepia.Lib.Lines

/-!
# Framing of provider streams (`framing/sse.rs`, `framing/ndjson.rs`, `error.rs`)

Both framers are readers of lines. An SSE line is a field of the event being read, and an
empty line ends the event; an NDJSON line is a frame. An error has no HTTP status and no retry
hint here, since only errors of HTTP responses have those.
-/

namespace Lorepia.ProviderRuntime

open Lines (Reader State stripCr)

inductive RuntimeErrorKind where
  | invalidRequest
  | invalidEndpoint
  | unsafeEndpoint
  | dnsResolution
  | http
  | streamTooLarge
  | streamProtocol
  | provider
  | cancelled
  | consumerClosed
  | timeout
  deriving DecidableEq

structure RuntimeError where
  kind : RuntimeErrorKind
  code : String
  message : String
  deriving DecidableEq

abbrev Result := Except RuntimeError

def protocolError (code message : String) : RuntimeError := ⟨.streamProtocol, code, message⟩

/-- `String::from_utf8`. -/
def fromUtf8 (bytes : List UInt8) : Option String := String.fromUTF8? ⟨bytes.toArray⟩

/-! ## Server-sent events -/

structure SseFrame where
  event : Option String
  data : String
  deriving DecidableEq

/-- The event being read. -/
structure SseEvent where
  event : Option String := none
  dataLines : List String := []
  currentEventBytes : Nat := 0
  firstLine : Bool := true
  deriving DecidableEq

def sseTooLarge : RuntimeError :=
  ⟨.streamTooLarge, "SSE_FRAME_TOO_LARGE", "SSE frame exceeded the configured byte limit"⟩

def invalidSseUtf8 : RuntimeError := protocolError "INVALID_SSE_UTF8" "SSE fields must be valid UTF-8"

/-- `split_once(':')` without one blank after the colon. -/
def splitField (line : String) : String × String :=
  let value := (line.toList.dropWhile (· ≠ ':')).tail
  (String.ofList (line.toList.takeWhile (· ≠ ':')),
    String.ofList (if value.head? = some ' ' then value.tail else value))

def setField (current : SseEvent) (field value : String) : SseEvent :=
  if field = "event" then { current with event := some value }
  else if field = "data" then { current with dataLines := current.dataLines ++ [value] }
  else current

def processLine (maxFrameBytes : Nat) (current : SseEvent) (line : List UInt8) :
    Result (List SseFrame × SseEvent) := do
  ensure (line.length ≤ maxFrameBytes) sseTooLarge
  if line = [] then
    let frames := if current.dataLines = [] then [] else
      [⟨current.event, "\n".intercalate current.dataLines⟩]
    .ok (frames, { current with event := none, dataLines := [], currentEventBytes := 0 })
  -- a comment
  else if line.head? = some 0x3a then .ok ([], current)
  else do
    let bytes := current.currentEventBytes + (line.length + 1)
    ensure (bytes ≤ maxFrameBytes) sseTooLarge
    let text ← required invalidSseUtf8 (fromUtf8 line)
    let (field, value) := splitField text
    .ok ([], setField { current with currentEventBytes := bytes } field value)

/-- The byte order mark is skipped at the start of the stream. -/
def sseLine (maxFrameBytes : Nat) (current : SseEvent) (line : List UInt8) :
    Result (List SseFrame × SseEvent) :=
  let line := if current.firstLine && [0xef, 0xbb, 0xbf].isPrefixOf line then line.drop 3 else line
  processLine maxFrameBytes { current with firstLine := false } line

def sseFramer (maxFrameBytes : Nat) : Reader SseEvent SseFrame RuntimeError :=
  ⟨maxFrameBytes, sseTooLarge, sseLine maxFrameBytes⟩

/-- `finish`, which has no frames to return. -/
def sseFinish {maxFrameBytes : Nat} (s : State (sseFramer maxFrameBytes)) : Result (List SseFrame) := do
  ensure (s.buffer = [] ∧ s.inner.event = none ∧ s.inner.dataLines = [])
    (protocolError "INCOMPLETE_SSE_FRAME" "SSE stream ended in the middle of an event")
  .ok []

/-! ## Newline-delimited JSON -/

def ndjsonTooLarge : RuntimeError :=
  ⟨.streamTooLarge, "NDJSON_FRAME_TOO_LARGE", "NDJSON frame exceeded the configured byte limit"⟩

def invalidNdjsonUtf8 : RuntimeError :=
  protocolError "INVALID_NDJSON_UTF8" "NDJSON frames must be valid UTF-8"

def parseLine (line : List UInt8) : Result (List String) :=
  if line = [] then .ok []
  else do
    let text ← required invalidNdjsonUtf8 (fromUtf8 line)
    .ok [text]

def ndjsonLine (_ : Unit) (line : List UInt8) : Result (List String × Unit) := do
  let frames ← parseLine line
  .ok (frames, ())

def ndjsonFramer (maxFrameBytes : Nat) : Reader Unit String RuntimeError :=
  ⟨maxFrameBytes, ndjsonTooLarge, ndjsonLine⟩

def ndjsonFinish {maxFrameBytes : Nat} (s : State (ndjsonFramer maxFrameBytes)) : Result (List String) :=
  parseLine (stripCr s.buffer)

def FramingError (e : RuntimeError) : Prop :=
  e = sseTooLarge ∨ e = invalidSseUtf8 ∨ e = ndjsonTooLarge ∨ e = invalidNdjsonUtf8

theorem processLine_fails (maxFrameBytes : Nat) (current : SseEvent) (line : List UInt8) :
    FailsWith FramingError (processLine maxFrameBytes current line) := by
  unfold processLine
  refine .bind (.ensure (.inl rfl)) fun _ => ?_
  split
  · exact .ok _
  · split
    · exact .ok _
    · refine .bind (.ensure (.inl rfl)) fun _ => ?_
      exact .bind (.required (.inr (.inl rfl)) _) fun text => .ok _

theorem ndjsonLine_fails (line : List UInt8) : FailsWith FramingError (ndjsonLine () line) := by
  unfold ndjsonLine parseLine
  refine .bind ?_ fun frames => .ok _
  split
  · exact .ok _
  · exact .bind (.required (.inr (.inr (.inr rfl))) _) fun text => .ok _

end Lorepia.ProviderRuntime
