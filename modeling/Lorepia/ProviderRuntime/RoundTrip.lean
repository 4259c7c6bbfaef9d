import Lorepia.Lib.Code
import Lorepia.ProviderRuntime.Framing

/-!
# What a stream of bytes means to a framer

The frames of a stream do not depend on where it is split into chunks
(`frames_chunk_invariant`), because the framers are readers of lines. Server-sent events that
are written as a stream, with comments and unknown fields between the lines and either line
ending, are read back (`sse_round_trip`).
-/

namespace Lorepia.ProviderRuntime

open Lines (Reader State stripCr newline carriageReturn)
open Code (utf8Bytes)

def framesOf {τ φ : Type} (framer : Reader τ φ RuntimeError) (fresh : τ)
    (finish : State framer → Result (List φ)) (chunks : List (List UInt8)) : Result (List φ) := do
  let (frames, s) ← framer.pushAll (framer.start fresh) chunks
  let last ← finish s
  .ok (frames ++ last)

def sseFrames (maxFrameBytes : Nat) (chunks : List (List UInt8)) : Result (List SseFrame) :=
  framesOf (sseFramer maxFrameBytes) {} sseFinish chunks

def ndjsonFrames (maxFrameBytes : Nat) (chunks : List (List UInt8)) : Result (List String) :=
  framesOf (ndjsonFramer maxFrameBytes) () ndjsonFinish chunks

theorem framesOf_flatten {τ φ : Type} {framer : Reader τ φ RuntimeError} {fresh : τ}
    {finish : State framer → Result (List φ)} {chunks chunks' : List (List UInt8)}
    (h : chunks.flatten = chunks'.flatten) :
    framesOf framer fresh finish chunks = framesOf framer fresh finish chunks' := by
  unfold framesOf
  rw [Reader.pushAll_eq, Reader.pushAll_eq, h]

/-- Both framers see the bytes and not the chunks. -/
theorem frames_chunk_invariant (maxFrameBytes : Nat) (chunks chunks' : List (List UInt8))
    (h : chunks.flatten = chunks'.flatten) :
    sseFrames maxFrameBytes chunks = sseFrames maxFrameBytes chunks' ∧
      ndjsonFrames maxFrameBytes chunks = ndjsonFrames maxFrameBytes chunks' :=
  ⟨framesOf_flatten h, framesOf_flatten h⟩

/-- A stream with a byte order mark, CRLF line ends and a letter of two bytes, whose longest line
is at the limit. -/
def splitStream : List UInt8 :=
  [0xef, 0xbb, 0xbf, 0x64, 0x61, 0x74, 0x61, 0x3a, 0xc3, 0xa9, 0x0d, 0x0a, 0x0d, 0x0a]

theorem frames_chunk_invariant_split :
    sseFrames 11 [splitStream] = .ok [⟨none, "é"⟩] ∧
      sseFrames 11 (splitStream.map fun b => [b]) = sseFrames 11 [splitStream] ∧
      ndjsonFrames 4 (splitStream.map fun b => [b]) = ndjsonFrames 4 [splitStream] :=
  ⟨by decide, (frames_chunk_invariant 11 _ _ (by decide)).1,
    (frames_chunk_invariant 4 _ _ (by decide)).2⟩

/-! ## Writing server-sent events -/

/-- A line of an event. -/
inductive SsePart where
  | event (name : String)
  | data (line : String)
  | blank
  deriving DecidableEq

def SsePart.text : SsePart → String
  | .event name => "event: " ++ name
  | .data line => "data: " ++ line
  | .blank => ""

/-- The lines of an event: its name, a line for each line of its data, and the empty line. -/
def SseFrame.parts (frame : SseFrame) : List SsePart :=
  frame.event.toList.map .event ++
    (frame.data.toList.splitOn '\n').map (fun line => .data (String.ofList line)) ++ [.blank]

/-- A line of a stream. -/
inductive SseLine where
  | part (line : SsePart)
  | comment (bytes : List UInt8)
  | unknown (text : String)
  deriving DecidableEq

namespace SseLine

def bytes : SseLine → List UInt8
  | .part line => utf8Bytes line.text
  | .comment bytes => 0x3a :: bytes
  | .unknown text => utf8Bytes text

def asPart : SseLine → Option SsePart
  | .part line => some line
  | _ => none

def isBlank (line : SseLine) : Bool := decide (line = .part .blank)

/-- The comments and the unknown fields that may stand between the lines of events. -/
def Inserted : SseLine → Prop
  | .part _ => True
  | .comment bytes => newline ∉ bytes ∧ carriageReturn ∉ bytes
  | .unknown text => '\n' ∉ text.toList ∧ '\r' ∉ text.toList ∧
      text.toList.takeWhile (· ≠ ':') ∉ ["".toList, "event".toList, "data".toList]

/-- The bytes a line counts in its event. Comments do not count. -/
def cost : SseLine → Nat
  | .comment _ => 0
  | line => line.bytes.length + 1

end SseLine

inductive LineEnding where
  | lf
  | crlf
  deriving DecidableEq

def LineEnding.bytes : LineEnding → List UInt8
  | .lf => []
  | .crlf => [carriageReturn]

def lineBytes (line : SseLine × LineEnding) : List UInt8 := line.1.bytes ++ line.2.bytes

def encodeSse (lines : List (SseLine × LineEnding)) : List UInt8 :=
  lines.flatMap fun line => lineBytes line ++ [newline]

/-- A stream that is written from `events`: without what was inserted its lines are those of the
events. -/
structure WrittenFrom (events : List SseFrame) (lines : List (SseLine × LineEnding)) : Prop where
  names : ∀ e ∈ events, ∀ name ∈ e.event, '\n' ∉ name.toList ∧ '\r' ∉ name.toList
  data : ∀ e ∈ events, '\r' ∉ e.data.toList
  parts : lines.filterMap (fun line => line.1.asPart) = events.flatMap SseFrame.parts
  inserted : ∀ line ∈ lines, line.1.Inserted

/-- Every line fits the frame limit, and so does every event: the lines up to an empty line. -/
structure FitsFrames (maxFrameBytes : Nat) (lines : List (SseLine × LineEnding)) : Prop where
  line : ∀ line ∈ lines, (lineBytes line).length ≤ maxFrameBytes
  event : ∀ group ∈ (lines.map Prod.fst).splitOnP SseLine.isBlank,
    (group.map SseLine.cost).sum ≤ maxFrameBytes

/-! ## Reading it back -/

/-- What the lines of events say, from an event of which some have been read. -/
def readParts : Option String × List String → List SsePart →
    List SseFrame × (Option String × List String)
  | current, [] => ([], current)
  | (_, dataLines), .event name :: rest => readParts (some name, dataLines) rest
  | (event, dataLines), .data line :: rest => readParts (event, dataLines ++ [line]) rest
  | (event, dataLines), .blank :: rest =>
    let frames := if dataLines = [] then [] else [⟨event, "\n".intercalate dataLines⟩]
    (frames ++ (readParts (none, []) rest).1, (readParts (none, []) rest).2)

theorem readParts_data (event : Option String) (dataLines lines : List String) (rest : List SsePart) :
    readParts (event, dataLines) (lines.map .data ++ rest) = readParts (event, dataLines ++ lines) rest := by
  induction lines generalizing dataLines with
  | nil => simp
  | cons line lines ih =>
    rw [List.map_cons, List.cons_append, readParts, ih, List.append_assoc, List.singleton_append]

theorem readParts_frame (frame : SseFrame) (rest : List SsePart) :
    readParts (none, []) (frame.parts ++ rest) =
      (frame :: (readParts (none, []) rest).1, (readParts (none, []) rest).2) := by
  obtain ⟨event, data⟩ := frame
  have hjoin : "\n".intercalate ((data.toList.splitOn '\n').map String.ofList) = data := by
    refine String.toList_injective ?_
    rw [String.toList_intercalate, List.map_map]
    have hid : (String.toList ∘ String.ofList) = id := funext fun l => String.toList_ofList
    rw [hid, List.map_id]
    exact List.intercalate_splitOn '\n'
  have hdata : readParts (event, []) ((data.toList.splitOn '\n').map
        (fun line => SsePart.data (String.ofList line)) ++ .blank :: rest) =
      (⟨event, data⟩ :: (readParts (none, []) rest).1, (readParts (none, []) rest).2) := by
    have hne : (data.toList.splitOn '\n').map String.ofList ≠ [] := by
      simp [List.splitOn_ne_nil]
    rw [show (fun line => SsePart.data (String.ofList line)) = SsePart.data ∘ String.ofList from rfl,
      ← List.map_map, readParts_data, List.nil_append, readParts, if_neg hne, hjoin]
    rfl
  cases event with
  | none => simpa [SseFrame.parts] using hdata
  | some name =>
    simp only [SseFrame.parts, Option.toList_some, List.map_cons, List.map_nil,
      List.cons_append, List.append_assoc, List.nil_append, readParts]
    exact hdata

theorem readParts_frames (events : List SseFrame) :
    readParts (none, []) (events.flatMap SseFrame.parts) = (events, none, []) := by
  induction events with
  | nil => rfl
  | cons frame rest ih => rw [List.flatMap_cons, readParts_frame, ih]

/-! ### One line -/

theorem fromUtf8_utf8Bytes (text : String) : fromUtf8 (utf8Bytes text) = some text := by
  have hbytes : (⟨(utf8Bytes text).toArray⟩ : ByteArray) = text.toByteArray := by
    refine ByteArray.ext ?_
    show text.toByteArray.data.toList.toArray = _
    rw [Array.toArray_toList]
  unfold fromUtf8 String.fromUTF8?
  rw [hbytes, dif_pos text.isValidUTF8]
  rfl

theorem head_utf8Bytes_ne {text : String} (h : text.toList.head? ≠ some ':') :
    (utf8Bytes text).head? ≠ some 0x3a := by
  intro hhead
  rw [Code.utf8Bytes_eq] at hhead
  cases hlist : text.toList with
  | nil =>
    rw [hlist] at hhead
    cases hhead
  | cons c rest =>
    rw [hlist, List.flatMap_cons] at hhead
    rw [hlist] at h
    have hne : String.utf8EncodeChar c ≠ [] := by
      unfold String.utf8EncodeChar
      dsimp only
      split
      · simp
      · split
        · simp
        · split <;> simp
    have hmem : (0x3a : UInt8) ∈ String.utf8EncodeChar c := by
      rw [List.head?_append_of_ne_nil _ hne] at hhead
      exact List.mem_of_head? hhead
    have hc : c = ':' := by
      rw [← Char.ofNat_toNat c, Code.toNat_eq_of_mem_utf8EncodeChar hmem (by decide)]
      rfl
    exact h (by rw [hc]; rfl)

theorem processLine_field {maxFrameBytes : Nat} {current : SseEvent} {text : String} (hne : text ≠ "")
    (hcolon : text.toList.head? ≠ some ':')
    (hfits : current.currentEventBytes + ((utf8Bytes text).length + 1) ≤ maxFrameBytes) :
    processLine maxFrameBytes current (utf8Bytes text) =
      .ok ([], setField
        { current with currentEventBytes := current.currentEventBytes + ((utf8Bytes text).length + 1) }
        (splitField text).1 (splitField text).2) := by
  have hbytes : utf8Bytes text ≠ [] := fun hnil => hne (Code.utf8Bytes_inj (hnil.trans rfl))
  have hlength : (utf8Bytes text).length ≤ maxFrameBytes := by omega
  simp only [processLine, ensure, if_pos hlength, if_neg hbytes, if_neg (head_utf8Bytes_ne hcolon),
    if_pos hfits, fromUtf8_utf8Bytes, required, bind, Except.bind]

theorem splitField_of_colon {field : String} (value : String) (hfield : ':' ∉ field.toList) :
    splitField (field ++ ": " ++ value) = (field, value) := by
  have hlist : (field ++ ": " ++ value).toList = field.toList ++ ':' :: ' ' :: value.toList := by
    rw [String.toList_append, String.toList_append, List.append_assoc]
    rfl
  have hname : ∀ c ∈ field.toList, decide (c ≠ ':') = true := fun c hc =>
    decide_eq_true fun hcolon => hfield (hcolon ▸ hc)
  have htake : (field ++ ": " ++ value).toList.takeWhile (· ≠ ':') = field.toList := by
    rw [hlist, List.takeWhile_append_of_pos hname]
    simp
  have hdrop : (field ++ ": " ++ value).toList.dropWhile (· ≠ ':') = ':' :: ' ' :: value.toList := by
    rw [hlist, List.dropWhile_append_of_pos hname]
    simp
  simp only [splitField, htake, hdrop, List.tail_cons, List.head?_cons, if_true, String.ofList_toList]

theorem processLine_colon {maxFrameBytes : Nat} {current : SseEvent} {field : String} (value : String)
    (hne : field ≠ "") (hfield : ':' ∉ field.toList)
    (hfits : current.currentEventBytes + ((utf8Bytes (field ++ ": " ++ value)).length + 1) ≤ maxFrameBytes) :
    processLine maxFrameBytes current (utf8Bytes (field ++ ": " ++ value)) =
      .ok ([], setField
        { current with
          currentEventBytes :=
            current.currentEventBytes + ((utf8Bytes (field ++ ": " ++ value)).length + 1) }
        field value) := by
  have hlist : ∃ c rest, field.toList = c :: rest := by
    cases hlist : field.toList with
    | nil => exact absurd (String.toList_eq_nil_iff.mp hlist) hne
    | cons c rest => exact ⟨c, rest, rfl⟩
  obtain ⟨c, rest, hlist⟩ := hlist
  have hhead : (field ++ ": " ++ value).toList.head? = some c := by
    rw [String.toList_append, String.toList_append, hlist]
    rfl
  rw [processLine_field _ _ hfits, splitField_of_colon value hfield]
  · intro hempty
    rw [hempty] at hhead
    cases hhead
  · rw [hhead]
    intro hcolon
    obtain rfl := Option.some.inj hcolon
    exact hfield (hlist ▸ List.mem_cons_self)

/-! ### All lines -/

def readLine (current : SseEvent) (line : SseLine) : SseEvent :=
  match line with
  | .part .blank => { current with event := none, dataLines := [], currentEventBytes := 0 }
  | .part (.event name) =>
    { current with event := some name, currentEventBytes := current.currentEventBytes + line.cost }
  | .part (.data data) =>
    { current with
      dataLines := current.dataLines ++ [data]
      currentEventBytes := current.currentEventBytes + line.cost }
  | .comment _ => current
  | .unknown _ => { current with currentEventBytes := current.currentEventBytes + line.cost }

def endedFrames (current : SseEvent) (line : SseLine) : List SseFrame :=
  if line.isBlank ∧ current.dataLines ≠ [] then [⟨current.event, "\n".intercalate current.dataLines⟩]
  else []

theorem processLine_line {maxFrameBytes : Nat} {current : SseEvent} {line : SseLine}
    (hinserted : line.Inserted) (hlength : line.bytes.length ≤ maxFrameBytes)
    (hfits : line.isBlank = false → current.currentEventBytes + line.cost ≤ maxFrameBytes) :
    processLine maxFrameBytes current line.bytes =
      .ok (endedFrames current line, readLine current line) := by
  rcases line with part | bytes | text
  · rcases part with name | data | _
    · exact @processLine_colon _ _ "event" name (by decide) (by decide) (hfits rfl)
    · exact @processLine_colon _ _ "data" data (by decide) (by decide) (hfits rfl)
    · have hbytes : (SseLine.part .blank).bytes = [] := rfl
      rw [hbytes]
      simp only [processLine, ensure, List.length_nil, Nat.zero_le, if_true, bind, Except.bind, endedFrames,
        SseLine.isBlank, decide_true, true_and, readLine]
      by_cases hdata : current.dataLines = []
      · simp [hdata]
      · simp [hdata]
  · have hcons : (0x3a :: bytes : List UInt8) ≠ [] := by simp
    simp only [SseLine.bytes] at hlength ⊢
    simp only [processLine, ensure, if_pos hlength, bind, Except.bind, if_neg hcons, List.head?_cons,
      if_true]
    rfl
  · obtain ⟨-, -, hname⟩ := hinserted
    simp only [List.mem_cons, List.not_mem_nil, or_false, not_or] at hname
    obtain ⟨hempty, hevent, hdata⟩ := hname
    have hne : text ≠ "" := by
      rintro rfl
      exact hempty rfl
    have hcolon : text.toList.head? ≠ some ':' := by
      intro hhead
      cases hlist : text.toList with
      | nil =>
        rw [hlist] at hhead
        cases hhead
      | cons c rest =>
        rw [hlist] at hhead
        obtain rfl := Option.some.inj hhead
        exact hempty (by rw [hlist]; rfl)
    have hfield : ∀ name : String, text.toList.takeWhile (· ≠ ':') ≠ name.toList →
        (splitField text).1 ≠ name := by
      rintro name hdiffers rfl
      exact hdiffers String.toList_ofList.symm
    refine (processLine_field hne hcolon (hfits rfl)).trans ?_
    rw [setField, if_neg (hfield "event" hevent), if_neg (hfield "data" hdata)]
    rfl

theorem readParts_line (current : SseEvent) (line : SseLine) (rest : List SseLine) :
    readParts (current.event, current.dataLines) ((line :: rest).filterMap SseLine.asPart) =
      (endedFrames current line ++
        (readParts ((readLine current line).event, (readLine current line).dataLines)
          (rest.filterMap SseLine.asPart)).1,
        (readParts ((readLine current line).event, (readLine current line).dataLines)
          (rest.filterMap SseLine.asPart)).2) := by
  rcases line with part | bytes | text
  · rcases part with name | data | _
    · rfl
    · rfl
    · by_cases hdata : current.dataLines = []
      · simp [SseLine.asPart, readParts, endedFrames, SseLine.isBlank, readLine, hdata]
      · simp [SseLine.asPart, readParts, endedFrames, SseLine.isBlank, readLine, hdata]
  · rfl
  · rfl

/-- The byte order mark is skipped, and nothing else is. -/
theorem sseLine_eq {maxFrameBytes : Nat} {current : SseEvent} {line : List UInt8}
    (h : current.firstLine = true → ¬ [0xef, 0xbb, 0xbf] <+: line) :
    sseLine maxFrameBytes current line =
      processLine maxFrameBytes { current with firstLine := false } line := by
  have hskip : (current.firstLine && [0xef, 0xbb, 0xbf].isPrefixOf line) = false := by
    rw [Bool.and_eq_false_iff, or_iff_not_imp_left]
    intro hfirst
    refine Bool.eq_false_iff.mpr fun hmark => ?_
    exact h (by simpa using hfirst) (List.isPrefixOf_iff_prefix.mp hmark)
  simp only [sseLine, hskip, Bool.false_eq_true, if_false]

/-- The lines of each event, from one of which `used` bytes have been read. -/
def FitsFrom (maxFrameBytes : Nat) : Nat → List SseLine → Prop
  | _, [] => True
  | used, line :: rest =>
    if line.isBlank then FitsFrom maxFrameBytes 0 rest
    else used + line.cost ≤ maxFrameBytes ∧ FitsFrom maxFrameBytes (used + line.cost) rest

theorem fitsFrom_of_groups {maxFrameBytes : Nat} {lines group : List SseLine}
    {groups : List (List SseLine)} {used : Nat}
    (hsplit : lines.splitOnP SseLine.isBlank = group :: groups)
    (hgroup : used + (group.map SseLine.cost).sum ≤ maxFrameBytes)
    (hgroups : ∀ g ∈ groups, (g.map SseLine.cost).sum ≤ maxFrameBytes) :
    FitsFrom maxFrameBytes used lines := by
  induction lines generalizing used group groups with
  | nil => trivial
  | cons line rest ih =>
    rw [List.splitOnP_cons_eq_if_modifyHead] at hsplit
    obtain ⟨next, others, hrest⟩ := List.exists_cons_of_ne_nil (List.splitOnP_ne_nil SseLine.isBlank rest)
    unfold FitsFrom
    cases hblank : line.isBlank with
    | true =>
      rw [hblank, if_pos rfl] at hsplit
      obtain ⟨rfl, rfl⟩ := List.cons.inj hsplit
      rw [if_pos rfl]
      refine ih hrest ?_ fun g hg => hgroups g (hrest ▸ List.mem_cons_of_mem _ hg)
      rw [Nat.zero_add]
      exact hgroups next (hrest ▸ List.mem_cons_self)
    | false =>
      rw [hblank, if_neg Bool.false_ne_true, hrest, List.modifyHead_cons] at hsplit
      obtain ⟨rfl, rfl⟩ := List.cons.inj hsplit
      rw [List.map_cons, List.sum_cons] at hgroup
      rw [if_neg Bool.false_ne_true]
      exact ⟨by omega, ih hrest (by omega) hgroups⟩

theorem lines_read {maxFrameBytes : Nat} {lines : List SseLine} {current : SseEvent}
    (hinserted : ∀ line ∈ lines, line.Inserted)
    (hlength : ∀ line ∈ lines, line.bytes.length ≤ maxFrameBytes)
    (hfits : FitsFrom maxFrameBytes current.currentEventBytes lines)
    (hmark : current.firstLine = true → ∀ line ∈ lines.head?, ¬ [0xef, 0xbb, 0xbf] <+: line.bytes) :
    ∃ last : SseEvent,
      (sseFramer maxFrameBytes).lines current (lines.map SseLine.bytes) =
        .ok ((readParts (current.event, current.dataLines) (lines.filterMap SseLine.asPart)).1, last) ∧
      (last.event, last.dataLines) =
        (readParts (current.event, current.dataLines) (lines.filterMap SseLine.asPart)).2 := by
  induction lines generalizing current with
  | nil => exact ⟨current, rfl, rfl⟩
  | cons line rest ih =>
    have hcount : line.isBlank = false →
        current.currentEventBytes + line.cost ≤ maxFrameBytes := by
      intro hblank
      rw [FitsFrom, hblank, if_neg Bool.false_ne_true] at hfits
      exact hfits.1
    have hline : (sseFramer maxFrameBytes).line current line.bytes =
        .ok (endedFrames { current with firstLine := false } line,
          readLine { current with firstLine := false } line) :=
      (sseLine_eq fun hfirst => hmark hfirst line rfl).trans
        (processLine_line (hinserted line List.mem_cons_self) (hlength line List.mem_cons_self) hcount)
    have hfirst : (readLine { current with firstLine := false } line).firstLine = false := by
      rcases line with (name | data | _) | bytes | text <;> rfl
    have hrest : FitsFrom maxFrameBytes
        (readLine { current with firstLine := false } line).currentEventBytes rest := by
      unfold FitsFrom at hfits
      rcases line with (name | data | _) | bytes | text
      · exact hfits.2
      · exact hfits.2
      · exact hfits
      · exact hfits.2
      · exact hfits.2
    obtain ⟨last, hlines, hlast⟩ := ih (fun l hl => hinserted l (List.mem_cons_of_mem _ hl))
      (fun l hl => hlength l (List.mem_cons_of_mem _ hl)) hrest fun h => by
        rw [hfirst] at h
        cases h
    refine ⟨last, ?_, ?_⟩
    · rw [List.map_cons, Reader.lines, hline, readParts_line { current with firstLine := false }]
      simp only [bind, Except.bind, hlines]
    · rw [readParts_line { current with firstLine := false }]
      exact hlast

/-! ### The stream -/

theorem newline_notMem_utf8Bytes {text : String} (h : '\n' ∉ text.toList) : newline ∉ utf8Bytes text := by
  intro hmem
  obtain ⟨c, hc, hnat⟩ := Code.exists_of_mem_utf8Bytes hmem (by decide)
  rw [← Char.ofNat_toNat c, hnat] at hc
  exact h hc

theorem carriageReturn_notMem_utf8Bytes {text : String} (h : '\r' ∉ text.toList) :
    carriageReturn ∉ utf8Bytes text := by
  intro hmem
  obtain ⟨c, hc, hnat⟩ := Code.exists_of_mem_utf8Bytes hmem (by decide)
  rw [← Char.ofNat_toNat c, hnat] at hc
  exact h hc

def SsePart.Unbroken (part : SsePart) : Prop := '\n' ∉ part.text.toList ∧ '\r' ∉ part.text.toList

theorem mem_splitOn {α : Type} [DecidableEq α] {a x : α} {l piece : List α} (hpiece : piece ∈ l.splitOn a)
    (hx : x ∈ piece) : x ∈ l ∧ x ≠ a := by
  induction l generalizing piece with
  | nil =>
    rw [List.splitOn_nil, List.mem_singleton] at hpiece
    rw [hpiece] at hx
    cases hx
  | cons b rest ih =>
    rw [List.splitOn_cons_eq_if_modifyHead] at hpiece
    obtain ⟨first, others, hrest⟩ := List.exists_cons_of_ne_nil (List.splitOn_ne_nil a rest)
    rw [hrest] at hpiece
    have hlater : ∀ {p}, p ∈ first :: others → x ∈ p → x ∈ b :: rest ∧ x ≠ a := fun hp hx => by
      obtain ⟨hmem, hne⟩ := ih (hrest ▸ hp) hx
      exact ⟨List.mem_cons_of_mem _ hmem, hne⟩
    by_cases hb : b = a
    · rw [if_pos (by simpa using hb)] at hpiece
      rcases List.mem_cons.mp hpiece with rfl | hpiece
      · cases hx
      · exact hlater hpiece hx
    · rw [if_neg (by simpa using hb), List.modifyHead_cons] at hpiece
      rcases List.mem_cons.mp hpiece with rfl | hpiece
      · rcases List.mem_cons.mp hx with rfl | hx
        · exact ⟨List.mem_cons_self, hb⟩
        · exact hlater List.mem_cons_self hx
      · exact hlater (List.mem_cons_of_mem _ hpiece) hx

theorem SseFrame.parts_unbroken {frame : SseFrame}
    (hname : ∀ name ∈ frame.event, '\n' ∉ name.toList ∧ '\r' ∉ name.toList)
    (hdata : '\r' ∉ frame.data.toList) : ∀ part ∈ frame.parts, part.Unbroken := by
  intro part hpart
  simp only [SseFrame.parts, List.mem_append, List.mem_map, Option.mem_toList, List.mem_singleton] at hpart
  rcases hpart with (⟨name, hmem, rfl⟩ | ⟨line, hmem, rfl⟩) | rfl
  · have hbreaks := hname name hmem
    simpa [SsePart.Unbroken, SsePart.text, String.toList_append] using hbreaks
  · have hline : '\n' ∉ line ∧ '\r' ∉ line :=
      ⟨fun hmem' => (mem_splitOn hmem hmem').2 rfl, fun hmem' => hdata (mem_splitOn hmem hmem').1⟩
    simpa [SsePart.Unbroken, SsePart.text, String.toList_append] using hline
  · simp [SsePart.Unbroken, SsePart.text]

section Stream

variable {events : List SseFrame} {lines : List (SseLine × LineEnding)} {maxFrameBytes : Nat}

theorem WrittenFrom.unbroken (h : WrittenFrom events lines) {line : SseLine × LineEnding}
    (hline : line ∈ lines) : newline ∉ line.1.bytes ∧ carriageReturn ∉ line.1.bytes := by
  have hinserted := h.inserted line hline
  obtain ⟨line, ending⟩ := line
  rcases line with part | bytes | text
  · have hpart : part ∈ events.flatMap SseFrame.parts :=
      h.parts ▸ List.mem_filterMap.mpr ⟨_, hline, rfl⟩
    obtain ⟨frame, hframe, hpart⟩ := List.mem_flatMap.mp hpart
    have hbreaks := SseFrame.parts_unbroken (h.names frame hframe) (h.data frame hframe) part hpart
    exact ⟨newline_notMem_utf8Bytes hbreaks.1, carriageReturn_notMem_utf8Bytes hbreaks.2⟩
  · have hcolon : newline ≠ 0x3a ∧ carriageReturn ≠ 0x3a := by decide
    exact ⟨fun hmem => hinserted.1 ((List.mem_cons.mp hmem).resolve_left hcolon.1),
      fun hmem => hinserted.2 ((List.mem_cons.mp hmem).resolve_left hcolon.2)⟩
  · exact ⟨newline_notMem_utf8Bytes hinserted.1, carriageReturn_notMem_utf8Bytes hinserted.2.1⟩

theorem stripCr_lineBytes {line : SseLine × LineEnding} (h : carriageReturn ∉ line.1.bytes) :
    stripCr (lineBytes line) = line.1.bytes := by
  obtain ⟨line, ending⟩ := line
  cases ending with
  | lf =>
    have hlast : line.bytes.getLast? ≠ some carriageReturn := fun hlast =>
      h (List.mem_of_getLast? hlast)
    simp only [lineBytes, LineEnding.bytes, List.append_nil, stripCr, if_neg hlast]
  | crlf => simp [lineBytes, LineEnding.bytes, stripCr]

theorem bytes_not_marked {line : SseLine}
    (h : ∀ text, line = .unknown text → text.toList.head? ≠ some '\uFEFF') :
    ¬ [0xef, 0xbb, 0xbf] <+: line.bytes := by
  rcases line with part | bytes | text
  · have hhead : (Code.utf8Bytes part.text).head? ≠ some 0xef := by
      rcases part with name | data | _
      · rw [SsePart.text, Code.utf8Bytes_append]
        have hbytes : utf8Bytes "event: " = [0x65, 0x76, 0x65, 0x6e, 0x74, 0x3a, 0x20] := by decide
        rw [hbytes]
        exact fun h => absurd (Option.some.inj h) (by decide)
      · rw [SsePart.text, Code.utf8Bytes_append]
        have hbytes : utf8Bytes "data: " = [0x64, 0x61, 0x74, 0x61, 0x3a, 0x20] := by decide
        rw [hbytes]
        exact fun h => absurd (Option.some.inj h) (by decide)
      · decide
    intro hmark
    refine hhead ?_
    obtain ⟨rest, hrest⟩ := hmark
    exact (congrArg List.head? hrest).symm
  · intro hmark
    have := (List.cons_prefix_cons.mp hmark).1
    revert this
    decide
  · exact fun hmark => h text rfl (Code.head_of_byteOrderMark hmark)

/-- Server-sent events are read back as they were written, with any line endings, comments,
unknown fields and chunks. The stream must not begin with an unknown field that starts with a
byte order mark, since that is skipped at the start of a stream. -/
theorem sse_round_trip (maxFrameBytes : Nat) (events : List SseFrame)
    (lines : List (SseLine × LineEnding)) (chunks : List (List UInt8))
    (hwritten : WrittenFrom events lines) (hfits : FitsFrames maxFrameBytes lines)
    (hmark : ∀ first ∈ lines.head?, ∀ text, first.1 = .unknown text →
      text.toList.head? ≠ some '\uFEFF')
    (hchunks : chunks.flatten = encodeSse lines) : sseFrames maxFrameBytes chunks = .ok events := by
  obtain ⟨group, groups, hsplit⟩ := List.exists_cons_of_ne_nil
    (List.splitOnP_ne_nil SseLine.isBlank (lines.map Prod.fst))
  have hfrom : FitsFrom maxFrameBytes 0 (lines.map Prod.fst) := by
    refine fitsFrom_of_groups hsplit ?_ fun g hg => hfits.event g (hsplit ▸ List.mem_cons_of_mem _ hg)
    rw [Nat.zero_add]
    exact hfits.event group (hsplit ▸ List.mem_cons_self)
  have hlength : ∀ line ∈ lines.map Prod.fst, line.bytes.length ≤ maxFrameBytes := by
    intro line hline
    obtain ⟨line, hmem, rfl⟩ := List.mem_map.mp hline
    have := hfits.line line hmem
    rw [lineBytes, List.length_append] at this
    omega
  -- the framer sees the lines, and the lines say the events
  obtain ⟨last, hread, hlast⟩ := @lines_read _ (lines.map Prod.fst) {}
    (fun line hline => by
      obtain ⟨line, hmem, rfl⟩ := List.mem_map.mp hline
      exact hwritten.inserted line hmem) hlength hfrom (fun _ line hline => by
      rw [List.head?_map] at hline
      obtain ⟨first, hfirst, rfl⟩ := Option.mem_map.mp hline
      exact bytes_not_marked (hmark first hfirst))
  rw [List.filterMap_map] at hread hlast
  have hparts : readParts (none, []) (lines.filterMap (SseLine.asPart ∘ Prod.fst)) = (events, none, []) := by
    rw [← readParts_frames events, ← hwritten.parts]
    rfl
  have hstart : (({} : SseEvent).event, ({} : SseEvent).dataLines) = (none, []) := rfl
  rw [hstart, hparts] at hread hlast
  have hscan : (sseFramer maxFrameBytes).scan ((sseFramer maxFrameBytes).start {}) (encodeSse lines) =
      (events, .ok ((sseFramer maxFrameBytes).start last)) := by
    have hstrip : (lines.map lineBytes).map stripCr = (lines.map Prod.fst).map SseLine.bytes := by
      rw [List.map_map, List.map_map]
      exact List.map_congr_left fun line hline => stripCr_lineBytes (hwritten.unbroken hline).2
    have hencode : encodeSse lines = (lines.map lineBytes).flatMap (· ++ [newline]) := by
      rw [List.flatMap_map]
      rfl
    rw [hencode]
    refine Reader.scan_lines (fun bytes hbytes => ?_) (hstrip ▸ hread)
    obtain ⟨line, hline, rfl⟩ := List.mem_map.mp hbytes
    refine ⟨fun hmem => ?_, hfits.line line hline⟩
    rcases List.mem_append.mp hmem with hmem | hmem
    · exact (hwritten.unbroken hline).1 hmem
    · revert hmem
      cases line.2 <;> decide
  have hfinish : sseFinish ((sseFramer maxFrameBytes).start last) = .ok [] := by
    obtain ⟨hevent, hdata⟩ := Prod.mk.inj hlast
    exact except_bind_ok.mpr ⟨(), ensure_ok.mpr ⟨rfl, hevent, hdata⟩, rfl⟩
  unfold sseFrames framesOf
  rw [Reader.pushAll_eq, hchunks, hscan]
  simp only [Reader.collect, bind, Except.bind, hfinish, List.append_nil]

end Stream

/-- An event of two data lines with a name, a comment and an unknown field. -/
def sampleLines : List (SseLine × LineEnding) :=
  [(.comment [0x20, 0xff], .crlf), (.part (.event "custom"), .lf), (.unknown "id: 1", .crlf),
   (.part (.data "a"), .crlf), (.part (.data "b"), .lf), (.part .blank, .crlf), (.unknown "retry", .lf)]

theorem sampleLines_written : WrittenFrom [⟨some "custom", "a\nb"⟩] sampleLines where
  names := by decide
  data := by decide
  parts := by decide
  inserted := by
    intro line hline
    simp only [sampleLines, List.mem_cons, List.not_mem_nil, or_false] at hline
    rcases hline with rfl | rfl | rfl | rfl | rfl | rfl | rfl
    · exact ⟨by decide, by decide⟩
    · trivial
    · exact ⟨by decide, by decide, by decide⟩
    · trivial
    · trivial
    · trivial
    · exact ⟨by decide, by decide, by decide⟩

theorem sse_round_trip_sample :
    sseFrames 64 ((encodeSse sampleLines).map fun b => [b]) = .ok [⟨some "custom", "a\nb"⟩] :=
  sse_round_trip 64 _ sampleLines _ sampleLines_written ⟨by decide, by decide⟩
    (fun first hfirst text htext => by
      obtain rfl := Option.some.inj hfirst
      cases htext) (by decide)

/-- A stream whose first line is an unknown field with a byte order mark before it. -/
def markedLines : List (SseLine × LineEnding) :=
  [(.unknown "\uFEFFdata: x", .lf), (.part (.data "y"), .lf), (.part .blank, .lf)]

/-- Without the mark the line is no longer an unknown field. -/
theorem sse_byteOrderMark_skipped :
    WrittenFrom [⟨none, "y"⟩] markedLines ∧ FitsFrames 64 markedLines ∧
      sseFrames 64 [encodeSse markedLines] = .ok [⟨none, "x\ny"⟩] := by
  refine ⟨⟨by decide, by decide, by decide, ?_⟩, ⟨by decide, by decide⟩, by decide⟩
  intro line hline
  simp only [markedLines, List.mem_cons, List.not_mem_nil, or_false] at hline
  rcases hline with rfl | rfl | rfl
  · exact ⟨by decide, by decide, by decide⟩
  · trivial
  · trivial

end Lorepia.ProviderRuntime
