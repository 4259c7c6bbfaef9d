import Lorepia.Stream.Model
import Lorepia.Tools.Schema

/-!
# Fragments of a delta (`provider_stream.rs`, `stream.ts`)

A delta of the provider is cut into fragments of at most 512 bytes, and each becomes an event of
the channel. `Utf8Fragments` is the iterator as the source has it, with the search for a character
boundary; where `split_at` would panic it has no result. It ends with the fragments of `splitUtf8`
(`collect_split`). `eventJson` is the event as `serde_json` writes it; however much of a fragment
has to be escaped, it stays within the budget of the channel (`fragments_fit`).
-/

namespace Lorepia.Stream

open String (utf8Len)
open Tools (Value FloatText toVec)

/-! ## The iterator -/

/-- `str::is_char_boundary`. -/
def isCharBoundary : List Char → Nat → Bool
  | _, 0 => true
  | [], _ + 1 => false
  | c :: cs, n + 1 => if c.utf8Size ≤ n + 1 then isCharBoundary cs (n + 1 - c.utf8Size) else false

/-- `str::split_at`, which panics if the position is not a boundary. -/
def splitAtByte : List Char → Nat → Option (List Char × List Char)
  | text, 0 => some ([], text)
  | [], _ + 1 => none
  | c :: cs, n + 1 =>
    if c.utf8Size ≤ n + 1 then
      (splitAtByte cs (n + 1 - c.utf8Size)).map fun parts => (c :: parts.1, parts.2)
    else none

/-- The loop that goes back to a boundary. -/
def floorBoundary (text : List Char) : Nat → Nat
  | 0 => 0
  | n + 1 => if isCharBoundary text (n + 1) then n + 1 else floorBoundary text n

def secondOffset : List Char → Nat
  | first :: _ :: _ => first.utf8Size
  | text => utf8Len text

structure Utf8Fragments where
  remaining : List Char
  maxBytes : Nat

/-- `split_utf8`. -/
def Utf8Fragments.split (text : String) (maxBytes : Nat) : Utf8Fragments :=
  ⟨text.toList, max maxBytes 1⟩

def Utf8Fragments.fragmentEnd (f : Utf8Fragments) : Nat :=
  let floor := floorBoundary f.remaining (min f.maxBytes (utf8Len f.remaining))
  if floor = 0 then secondOffset f.remaining else floor

/-- `Iterator::next`; the outer `none` is a panic. -/
def Utf8Fragments.next (f : Utf8Fragments) : Option (Option (String × Utf8Fragments)) :=
  if f.remaining = [] then some none
  else
    (splitAtByte f.remaining f.fragmentEnd).map fun parts =>
      some (String.ofList parts.1, { f with remaining := parts.2 })

/-- The fragments, in a number of calls that has to be enough. -/
def Utf8Fragments.collect : Nat → Utf8Fragments → Option (List String)
  | 0, _ => none
  | fuel + 1, f =>
    match f.next with
    | none => none
    | some none => some []
    | some (some (fragment, rest)) => (rest.collect fuel).map (fragment :: ·)

/-! ## Boundaries -/

theorem splitBytes_append (budget : Nat) (text : List Char) :
    (splitBytes budget text).1 ++ (splitBytes budget text).2 = text := by
  induction text generalizing budget with
  | nil => rfl
  | cons c cs ih =>
    unfold splitBytes
    split
    · exact congrArg (c :: ·) (ih _)
    · rfl

theorem utf8Len_splitBytes_le (budget : Nat) (text : List Char) :
    utf8Len (splitBytes budget text).1 ≤ budget := by
  induction text generalizing budget with
  | nil => exact Nat.zero_le _
  | cons c cs ih =>
    unfold splitBytes
    split
    · have hrest := ih (budget - c.utf8Size)
      rw [String.utf8Len_cons]
      omega
    · exact Nat.zero_le _

theorem splitAtByte_append (front back : List Char) :
    splitAtByte (front ++ back) (utf8Len front) = some (front, back) := by
  induction front with
  | nil => cases back <;> rfl
  | cons c front ih =>
    have hpos := c.utf8Size_pos
    obtain ⟨n, hn⟩ : ∃ n, utf8Len front + c.utf8Size = n + 1 := ⟨_, (Nat.succ_pred (by omega)).symm⟩
    have hrest : n + 1 - c.utf8Size = utf8Len front := by omega
    rw [String.utf8Len_cons, hn, List.cons_append]
    unfold splitAtByte
    rw [if_pos (by omega), hrest, ih]
    rfl

theorem isCharBoundary_eq (text : List Char) (n : Nat) :
    isCharBoundary text n = (splitAtByte text n).isSome := by
  fun_induction isCharBoundary text n <;> simp_all [splitAtByte]

theorem isCharBoundary_append (front back : List Char) :
    isCharBoundary (front ++ back) (utf8Len front) = true := by
  rw [isCharBoundary_eq, splitAtByte_append]
  rfl

variable {text : List Char} {maxBytes fuel : Nat}

theorem isCharBoundary_after_splitBytes {budget m : Nat}
    (hlow : utf8Len (splitBytes budget text).1 < m) (hhigh : m ≤ budget) :
    isCharBoundary text m = false := by
  induction text generalizing budget m with
  | nil =>
    cases m with
    | zero => cases hlow
    | succ m => rfl
  | cons c cs ih =>
    cases m with
    | zero => cases hlow
    | succ m =>
      unfold splitBytes at hlow
      unfold isCharBoundary
      by_cases hfits : c.utf8Size ≤ budget
      · rw [if_pos hfits, String.utf8Len_cons] at hlow
        have hlow' : utf8Len (splitBytes (budget - c.utf8Size) cs).1 < m + 1 - c.utf8Size := by omega
        rw [if_pos (by omega)]
        exact ih hlow' (by omega)
      · rw [if_neg (by omega)]

theorem floorBoundary_eq {boundary n : Nat} (hb : isCharBoundary text boundary = true)
    (hle : boundary ≤ n) (hnone : ∀ m, boundary < m → m ≤ n → isCharBoundary text m = false) :
    floorBoundary text n = boundary := by
  induction n with
  | zero => exact (Nat.le_zero.mp hle).symm
  | succ n ih =>
    unfold floorBoundary
    by_cases hn : boundary = n + 1
    · rw [← hn, if_pos hb]
    · rw [if_neg (by simp [hnone (n + 1) (by omega) (Nat.le_refl _)])]
      exact ih (by omega) fun m hlow hhigh => hnone m hlow (by omega)

theorem floorBoundary_splitBytes (budget : Nat) (text : List Char) :
    floorBoundary text (min budget (utf8Len text)) = utf8Len (splitBytes budget text).1 := by
  have htext := splitBytes_append budget text
  have hlen : utf8Len text = utf8Len (splitBytes budget text).1 + utf8Len (splitBytes budget text).2 := by
    rw [← String.utf8Len_append, htext]
  have hbudget := utf8Len_splitBytes_le budget text
  have hboundary := isCharBoundary_append (splitBytes budget text).1 (splitBytes budget text).2
  rw [htext] at hboundary
  exact floorBoundary_eq hboundary (by omega) fun m hlow hhigh =>
    isCharBoundary_after_splitBytes hlow (by omega)

theorem secondOffset_cons (c : Char) (cs : List Char) : secondOffset (c :: cs) = c.utf8Size := by
  cases cs with
  | nil => exact Nat.zero_add _
  | cons d cs => rfl

theorem nextFragment_cons (maxBytes : Nat) (c : Char) (cs : List Char) :
    nextFragment maxBytes (c :: cs) =
      some (if (splitBytes maxBytes (c :: cs)).1 = [] then ([c], cs)
        else splitBytes maxBytes (c :: cs)) := by
  simp only [nextFragment]
  rcases splitBytes maxBytes (c :: cs) with ⟨_ | ⟨first, front⟩, back⟩
  · rfl
  · rfl

theorem Utf8Fragments.next_eq (f : Utf8Fragments) :
    f.next = some ((nextFragment f.maxBytes f.remaining).map fun parts =>
      (String.ofList parts.1, { f with remaining := parts.2 })) := by
  obtain ⟨remaining, maxBytes⟩ := f
  cases remaining with
  | nil => rfl
  | cons c cs =>
    unfold Utf8Fragments.next Utf8Fragments.fragmentEnd
    simp only [nextFragment_cons, floorBoundary_splitBytes, reduceCtorEq, if_false,
      String.utf8Len_eq_zero]
    split
    · -- the first character does not fit and is taken alone
      have hfirst := splitAtByte_append [c] cs
      rw [String.utf8Len_cons, String.utf8Len_nil, Nat.zero_add, List.singleton_append] at hfirst
      rw [secondOffset_cons, hfirst]
      rfl
    · have hfront := splitAtByte_append (splitBytes maxBytes (c :: cs)).1 (splitBytes maxBytes (c :: cs)).2
      rw [splitBytes_append] at hfront
      rw [hfront]
      rfl

theorem nextFragment_append {fragment rest : List Char}
    (h : nextFragment maxBytes text = some (fragment, rest)) :
    fragment ≠ [] ∧ fragment ++ rest = text := by
  cases text with
  | nil => cases h
  | cons c cs =>
    have htext := splitBytes_append maxBytes (c :: cs)
    rw [nextFragment_cons] at h
    split at h
    · obtain ⟨rfl, rfl⟩ := Prod.mk.inj (Option.some.inj h)
      exact ⟨List.cons_ne_nil _ _, rfl⟩
    · next hfits =>
      rw [Option.some.inj h] at hfits htext
      exact ⟨hfits, htext⟩

/-- A fragment is within the limit, unless it is one character. -/
theorem nextFragment_size {fragment rest : List Char}
    (h : nextFragment maxBytes text = some (fragment, rest)) :
    utf8Len fragment ≤ max maxBytes 4 := by
  cases text with
  | nil => cases h
  | cons c cs =>
    have hsize := utf8Len_splitBytes_le maxBytes (c :: cs)
    rw [nextFragment_cons] at h
    split at h
    · obtain ⟨rfl, rfl⟩ := Prod.mk.inj (Option.some.inj h)
      have hchar := c.utf8Size_le_four
      rw [String.utf8Len_cons, String.utf8Len_nil]
      omega
    · rw [Option.some.inj h] at hsize
      exact le_max_of_le_left hsize

theorem nextFragment_shorter {parts : List Char × List Char}
    (h : nextFragment maxBytes text = some parts) (hfuel : text.length ≤ fuel + 1) :
    parts.2.length ≤ fuel := by
  obtain ⟨hsome, htext⟩ := nextFragment_append h
  have hlength := congrArg List.length htext
  have hpos := List.length_pos_iff.mpr hsome
  rw [List.length_append] at hlength
  omega

/-! ## All fragments -/

theorem collect_eq {remaining : List Char} (hfuel : remaining.length ≤ fuel) :
    (Utf8Fragments.mk remaining maxBytes).collect (fuel + 1) =
      some (collectFragments maxBytes fuel remaining) := by
  induction fuel generalizing remaining with
  | zero =>
    obtain rfl := List.eq_nil_of_length_eq_zero (Nat.le_zero.mp hfuel)
    rfl
  | succ fuel ih =>
    unfold Utf8Fragments.collect collectFragments
    rw [Utf8Fragments.next_eq]
    cases hnext : nextFragment maxBytes remaining with
    | none => rfl
    | some parts =>
      change ((Utf8Fragments.mk parts.2 maxBytes).collect (fuel + 1)).map _ = _
      rw [ih (nextFragment_shorter hnext hfuel)]
      rfl

theorem collect_split (text : String) (maxBytes : Nat) :
    (Utf8Fragments.split text maxBytes).collect (text.toList.length + 1) =
      some (splitUtf8 text maxBytes) :=
  collect_eq (Nat.le_refl _)

theorem collectFragments_spec (maxBytes : Nat) {remaining : List Char}
    (hfuel : remaining.length ≤ fuel) :
    String.join (collectFragments maxBytes fuel remaining) = String.ofList remaining ∧
      ∀ fragment ∈ collectFragments maxBytes fuel remaining,
        fragment ≠ "" ∧ fragment.utf8ByteSize ≤ max maxBytes 4 := by
  induction fuel generalizing remaining with
  | zero =>
    obtain rfl := List.eq_nil_of_length_eq_zero (Nat.le_zero.mp hfuel)
    exact ⟨rfl, fun _ h => absurd h List.not_mem_nil⟩
  | succ fuel ih =>
    unfold collectFragments
    cases hnext : nextFragment maxBytes remaining with
    | none =>
      cases remaining with
      | nil => exact ⟨rfl, fun _ h => absurd h List.not_mem_nil⟩
      | cons c cs =>
        rw [nextFragment_cons] at hnext
        cases hnext
    | some parts =>
      obtain ⟨hsome, htext⟩ := nextFragment_append hnext
      obtain ⟨hjoin, hall⟩ := ih (nextFragment_shorter hnext hfuel)
      refine ⟨?_, fun fragment hmem => ?_⟩
      · rw [← htext, String.ofList_append, ← hjoin, String.join_cons]
      · obtain rfl | hmem := List.mem_cons.mp hmem
        · refine ⟨fun hempty => hsome ?_, ?_⟩
          · have := congrArg String.toList hempty
            rwa [String.toList_ofList] at this
          · rw [String.utf8ByteSize_ofList]
            exact nextFragment_size hnext
        · exact hall fragment hmem

/-! ## The text of an event -/

def directChannelBudgetBytes : Nat := 4096

def jsonU64 (n : UInt64) : Value := .number (.posInt ⟨n.toNat, n.toNat_lt⟩)

/-- An `Option<u64>`. -/
def jsonCount (count : Option Nat) : Value :=
  match count with
  | some n => jsonU64 (UInt64.ofNat n)
  | none => .null

def TokenUsage.json (usage : TokenUsage) : Value :=
  .object [("inputTokens", jsonCount usage.inputTokens), ("outputTokens", jsonCount usage.outputTokens),
    ("reasoningTokens", jsonCount usage.reasoningTokens),
    ("cachedInputTokens", jsonCount usage.cachedInputTokens), ("totalTokens", jsonCount usage.totalTokens)]

def CompletionReason.json : CompletionReason → Value
  | .stop => .string "stop"
  | .length => .string "length"
  | .contentFilter => .string "content_filter"
  | .refusal => .string "refusal"
  | .resourceLimit => .string "resource_limit"
  | .other reason => .object [("other", .string reason)]

def ProviderCommandError.json (error : ProviderCommandError) : Value :=
  .object [("code", .string error.code), ("message", .string error.message),
    ("httpStatus", jsonCount error.httpStatus), ("retriable", .bool error.retriable)]

def EventBody.json : EventBody → String × List (String × Value)
  | .started maxInFlight => ("started", [("maxInFlight", jsonU64 (UInt64.ofNat maxInFlight))])
  | .providerResponseId id => ("provider_response_id", [("id", .string id)])
  | .textDelta text => ("text_delta", [("text", .string text)])
  | .reasoningDelta text => ("reasoning_delta", [("text", .string text)])
  | .refusalDelta text => ("refusal_delta", [("text", .string text)])
  | .usage counts => ("usage", [("usage", counts.json)])
  | .completed reason counts =>
    ("completed", [("reason", (reason.map CompletionReason.json).getD .null),
      ("usage", (counts.map TokenUsage.json).getD .null)])
  | .cancelled => ("cancelled", [])
  | .failed error => ("failed", [("error", error.json)])

/-- A `ProviderChannelEvent` as it is serialized. -/
def eventJson (requestId : String) (seq : UInt64) (body : EventBody) : Value :=
  .object ([("type", .string body.json.1), ("requestId", .string requestId), ("seq", jsonU64 seq)] ++
    body.json.2)

def ensureDirectSerializable [FloatText] (value : Value) : Except ProviderCommandError Unit :=
  if directChannelBudgetBytes < (toVec value).length then
    .error (.new "STREAM_EVENT_TOO_LARGE" "provider stream event exceeded the direct IPC budget")
  else .ok ()

/-- `format!("provider-{}", Uuid::new_v4().simple())`. -/
def requestId (uuid : BitVec 128) : String :=
  "provider-" ++ String.ofList ((List.range 32).map fun i => Nat.digitChar (uuid.toNat / 16 ^ (31 - i) % 16))

/-! ## The window (`stream.ts`) -/

def maxDeltaBytes : Nat := 512
def maxIdentifierBytes : Nat := 256

/-- `isBoundedString`. -/
def boundedString (value : Option Value) (maxBytes : Nat) : Option String :=
  (value.bind Value.asStr).filter fun text =>
    text ≠ "" && '\x00' ∉ text.toList && text.utf8ByteSize ≤ maxBytes

/-- `isSafeSequence`. -/
def safeSequence (value : Option Value) : Option Nat :=
  (value.bind Value.asU64).filter fun n => n ≤ maxWireSequence

/-- The delta that `parseEvent` reads from an event, with its request and sequence number. -/
def parseDelta (event : Value) : Option (String × Nat × String) := do
  let entries ← event.asObject
  let kind ← (entries.lookup "type").bind Value.asStr
  let requestId ← boundedString (entries.lookup "requestId") maxIdentifierBytes
  let seq ← safeSequence (entries.lookup "seq")
  guard (kind ∈ ["text_delta", "reasoning_delta", "refusal_delta"])
  guard ((entries.map Prod.fst).Perm ["type", "requestId", "seq", "text"])
  let text ← (entries.lookup "text").bind Value.asStr
  guard ('\x00' ∉ text.toList)
  guard (text.utf8ByteSize ≤ maxDeltaBytes)
  some (requestId, seq, text)

/-! ## Every fragment fits -/

theorem requestId_chars (uuid : BitVec 128) :
    (requestId uuid).toList.length = 41 ∧ ∀ c ∈ (requestId uuid).toList, c.utf8Size = 1 ∧ c ≠ '\x00' := by
  have hname : "provider-".toList.length = 9 ∧
      ∀ c ∈ "provider-".toList, c.utf8Size = 1 ∧ c ≠ '\x00' := by decide
  have hdigit : ∀ n < 16, (Nat.digitChar n).utf8Size = 1 ∧ Nat.digitChar n ≠ '\x00' := by decide
  have htext : (requestId uuid).toList = "provider-".toList ++
      (List.range 32).map fun i => Nat.digitChar (uuid.toNat / 16 ^ (31 - i) % 16) :=
    String.toList_append.trans (congrArg (_ ++ ·) String.toList_ofList)
  rw [htext]
  refine ⟨by rw [List.length_append, hname.1, List.length_map, List.length_range], fun c hc => ?_⟩
  obtain hc | hc := List.mem_append.mp hc
  · exact hname.2 c hc
  · obtain ⟨i, -, rfl⟩ := List.mem_map.mp hc
    exact hdigit _ (Nat.mod_lt _ (by decide))

theorem utf8ByteSize_requestId (uuid : BitVec 128) : (requestId uuid).utf8ByteSize = 41 := by
  have hchars : ∀ cs : List Char, (∀ c ∈ cs, c.utf8Size = 1) → utf8Len cs = cs.length := by
    intro cs hcs
    induction cs with
    | nil => rfl
    | cons c cs ih =>
      rw [String.utf8Len_cons, hcs c List.mem_cons_self,
        ih fun d hd => hcs d (List.mem_cons_of_mem _ hd), List.length_cons]
  obtain ⟨hlength, hsize⟩ := requestId_chars uuid
  rw [← String.ofList_toList (s := requestId uuid), String.utf8ByteSize_ofList,
    hchars _ fun c hc => (hsize c hc).1, hlength]

section
variable [FloatText]

theorem length_delta_le (kind : DeltaKind) (request fragment : String) (seq : UInt64) :
    (toVec (eventJson request seq (kind.body fragment))).length ≤
      54 + (Tools.quote request).length + (Tools.decimal seq.toNat).length +
        (Tools.quote fragment).length := by
  have hkey : (Tools.quote "type").length = 6 ∧ (Tools.quote "requestId").length = 11 ∧
      (Tools.quote "seq").length = 5 ∧ (Tools.quote "text").length = 6 := by decide
  have hkind : (Tools.quote (kind.body fragment).json.1).length ≤ 17 := by
    cases kind with
    | text => exact (by decide : (Tools.quote "text_delta").length ≤ 17)
    | reasoning => exact (by decide : (Tools.quote "reasoning_delta").length ≤ 17)
    | refusal => exact (by decide : (Tools.quote "refusal_delta").length ≤ 17)
  have htext : toVec (eventJson request seq (kind.body fragment)) =
      0x7b :: (((Tools.quote "type" ++ 0x3a :: Tools.quote (kind.body fragment).json.1) ++
        (0x2c :: (Tools.quote "requestId" ++ 0x3a :: Tools.quote request) ++
          (0x2c :: (Tools.quote "seq" ++ 0x3a :: Tools.decimal seq.toNat) ++
            (0x2c :: (Tools.quote "text" ++ 0x3a :: Tools.quote fragment) ++ [])))) ++ [0x7d]) := by
    cases kind <;> rfl
  obtain ⟨htype, hrequest, hseq, hfragment⟩ := hkey
  rw [htext]
  simp only [List.length_cons, List.length_append, List.length_nil]
  omega

theorem delta_within_budget (kind : DeltaKind) (uuid : BitVec 128) (seq : UInt64)
    {fragment : String} (h : fragment.utf8ByteSize ≤ maxDeltaFragmentBytes) :
    (toVec (eventJson (requestId uuid) seq (kind.body fragment))).length ≤
      directChannelBudgetBytes := by
  have hlength := length_delta_le kind (requestId uuid) fragment seq
  have hrequest : (Tools.quote (requestId uuid)).length ≤ 6 * (requestId uuid).utf8ByteSize + 2 :=
    Tools.length_quote_le fun b _ => Tools.length_escapeByte_le b
  have htext : (Tools.quote fragment).length ≤ 6 * fragment.utf8ByteSize + 2 :=
    Tools.length_quote_le fun b _ => Tools.length_escapeByte_le b
  have hseq : (Tools.decimal seq.toNat).length ≤ 20 :=
    Tools.length_decimal_le (by decide) (Nat.lt_trans seq.toNat_lt (by decide))
  have hid := utf8ByteSize_requestId uuid
  unfold maxDeltaFragmentBytes at h
  unfold directChannelBudgetBytes
  omega

end

theorem boundedString_requestId (uuid : BitVec 128) :
    boundedString (some (.string (requestId uuid))) maxIdentifierBytes = some (requestId uuid) := by
  obtain ⟨hlength, hchars⟩ := requestId_chars uuid
  have hsome : requestId uuid ≠ "" := by
    intro hempty
    rw [hempty] at hlength
    cases hlength
  have hnul : '\x00' ∉ (requestId uuid).toList := fun h => (hchars _ h).2 rfl
  have hsize : (requestId uuid).utf8ByteSize ≤ maxIdentifierBytes := by
    rw [utf8ByteSize_requestId]
    decide
  simp [boundedString, Value.asStr, Option.filter, hsome, hnul, hsize]

/-- The window takes a delta of the right size unless it contains a NUL. -/
theorem parseDelta_event (kind : DeltaKind) (uuid : BitVec 128) {seq : UInt64} {fragment : String}
    (hseq : seq.toNat ≤ maxWireSequence) (hnul : '\x00' ∉ fragment.toList)
    (hsize : fragment.utf8ByteSize ≤ maxDeltaBytes) :
    parseDelta (eventJson (requestId uuid) seq (kind.body fragment)) =
      some (requestId uuid, seq.toNat, fragment) := by
  have hkind : (kind.body fragment).json.1 = "text_delta" ∨
      (kind.body fragment).json.1 = "reasoning_delta" ∨
      (kind.body fragment).json.1 = "refusal_delta" := by
    cases kind with
    | text => exact .inl rfl
    | reasoning => exact .inr (.inl rfl)
    | refusal => exact .inr (.inr rfl)
  have hfields : (kind.body fragment).json.2 = [("text", .string fragment)] := by
    cases kind <;> rfl
  have hnumber : safeSequence (some (jsonU64 seq)) = some seq.toNat := by
    simp [safeSequence, jsonU64, Value.asU64, Tools.Number.asU64, Option.filter, hseq]
  unfold parseDelta eventJson
  rw [hfields]
  simp [Value.asObject, Value.asStr, List.lookup, boundedString_requestId, hnumber, hkind, hnul, hsize,
    guard]

/-- Every text is cut, without a panic, into non-empty fragments of at most 512 bytes whose
events fit the channel; the window takes a fragment unless it contains a NUL. -/
theorem fragments_fit [FloatText] (text : String) :
    ∃ fragments, (Utf8Fragments.split text maxDeltaFragmentBytes).collect (text.toList.length + 1) =
        some fragments ∧
      String.join fragments = text ∧
      ∀ fragment ∈ fragments, fragment ≠ "" ∧ fragment.utf8ByteSize ≤ 512 ∧
        fragment.utf8ByteSize ≤ maxDeltaBytes ∧
        ∀ (kind : DeltaKind) (uuid : BitVec 128) (seq : UInt64),
          (toVec (eventJson (requestId uuid) seq (kind.body fragment))).length ≤
              directChannelBudgetBytes ∧
            ensureDirectSerializable (eventJson (requestId uuid) seq (kind.body fragment)) = .ok () ∧
            (seq.toNat ≤ maxWireSequence → '\x00' ∉ fragment.toList →
              parseDelta (eventJson (requestId uuid) seq (kind.body fragment)) =
                some (requestId uuid, seq.toNat, fragment)) := by
  obtain ⟨hjoin, hall⟩ := collectFragments_spec 512 (Nat.le_refl text.toList.length)
  rw [String.ofList_toList] at hjoin
  refine ⟨_, collect_split text maxDeltaFragmentBytes, hjoin, fun fragment hmem => ?_⟩
  obtain ⟨hsome, hsize⟩ := hall fragment hmem
  refine ⟨hsome, hsize, hsize, fun kind uuid seq => ?_⟩
  have hfits := delta_within_budget kind uuid seq hsize
  exact ⟨hfits, if_neg (Nat.not_lt.mpr hfits), fun hseq hnul => parseDelta_event kind uuid hseq hnul hsize⟩

end Lorepia.Stream
