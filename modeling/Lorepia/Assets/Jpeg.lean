import Lorepia.Assets.Model

/-!
# Reading the dimensions of a JPEG

`jpeg_dimensions` walks over the segments of a file's first bytes with an index of its own. The
model keeps what lies from that index on. Against it stands the format: segments introduced by
`0xff`, each as long as it declares, up to the frame header.
-/

namespace Lorepia.Assets

def startOfFrame : List UInt8 :=
  [0xc0, 0xc1, 0xc2, 0xc3, 0xc5, 0xc6, 0xc7, 0xc9, 0xca, 0xcb, 0xcd, 0xce, 0xcf]

/-- `u16::from_be_bytes`. -/
def word (high low : UInt8) : Nat := high.toNat * 256 + low.toNat

/-- What one round of the loop of `jpeg_dimensions` comes to. -/
inductive Round where
  | stop
  | found (dims : Nat × Nat)
  | next (rest : Bytes)
deriving DecidableEq

/-- One round of the loop, over the bytes from `cursor` on. -/
def jpegRound (rest : Bytes) : Round :=
  if rest.length < 4 then .stop
  else match rest.dropWhile (· = 0xff) with
    | [] => .stop
    | marker :: after =>
      if marker = 0xd8 ∨ marker = 0xd9 then .next after
      else if marker = 0xda then .stop
      else match after with
        | high :: low :: body =>
          if word high low < 2 ∨ after.length < word high low then .stop
          else if marker ∈ startOfFrame ∧ 7 ≤ word high low then
            match body with
            | _ :: h₁ :: h₂ :: w₁ :: w₂ :: _ => .found (word w₁ w₂, word h₁ h₂)
            | _ => .stop
          else .next (after.drop (word high low))
        | _ => .stop

/-- The loop. Every round goes forward, so as many rounds as there are bytes are enough. -/
def jpegScan : Nat → Bytes → Option (Nat × Nat)
  | 0, _ => none
  | fuel + 1, rest =>
    match jpegRound rest with
    | .stop => none
    | .found dims => some dims
    | .next rest => jpegScan fuel rest

def jpegDimensions (start tail : Bytes) : Option (Nat × Nat) :=
  if [0xff, 0xd8, 0xff] <+: start ∧ [0xff, 0xd9] <:+ tail then
    jpegScan start.length (start.drop 2)
  else none

def jpegRounds : Nat → Bytes → List Bytes
  | 0, _ => []
  | fuel + 1, rest =>
    rest :: match jpegRound rest with
      | .next rest => jpegRounds fuel rest
      | _ => []

/-- A segment of the format: the marker behind at least one `0xff`, the length, which counts its
own two bytes, and the payload. -/
structure Segment where
  fill : Nat
  marker : UInt8
  high : UInt8
  low : UInt8
  payload : Bytes
  marker_ne : marker ≠ 0xff ∧ marker ≠ 0xd8 ∧ marker ≠ 0xd9 ∧ marker ≠ 0xda
  length_eq : word high low = payload.length + 2

namespace Segment

def bytes (segment : Segment) : Bytes :=
  List.replicate (segment.fill + 1) 0xff ++
    segment.marker :: segment.high :: segment.low :: segment.payload

def dimensions (segment : Segment) : Option (Nat × Nat) :=
  if segment.marker ∈ startOfFrame then
    match segment.payload with
    | _ :: h₁ :: h₂ :: w₁ :: w₂ :: _ => some (word w₁ w₂, word h₁ h₂)
    | _ => none
  else none

end Segment

/-- Segments up to the first that carries dimensions. -/
inductive Segments (dims : Nat × Nat) : Bytes → Prop
  | frame {segment : Segment} (rest : Bytes) (h : segment.dimensions = some dims) :
      Segments dims (segment.bytes ++ rest)
  | skip {segment : Segment} {rest : Bytes} (h : segment.dimensions = none)
      (hrest : Segments dims rest) : Segments dims (segment.bytes ++ rest)

theorem dropWhile_fill (fill : Nat) {marker : UInt8} (h : marker ≠ 0xff) (after : Bytes) :
    (List.replicate fill 0xff ++ marker :: after).dropWhile (· = 0xff) = marker :: after := by
  induction fill with
  | zero => simp [h]
  | succ fill ih => simpa [List.replicate_succ] using ih

theorem take_fill (rest : Bytes) :
    ∃ fill, rest = List.replicate fill 0xff ++ rest.dropWhile (· = 0xff) := by
  induction rest with
  | nil => exact ⟨0, rfl⟩
  | cons byte rest ih =>
    by_cases h : byte = 0xff
    · obtain ⟨fill, hfill⟩ := ih
      exact ⟨fill + 1, by simpa [h, List.replicate_succ] using hfill⟩
    · exact ⟨0, by simp [h]⟩

/-- What the loop does at a segment of the format. -/
theorem jpegRound_segment (segment : Segment) (rest : Bytes) :
    jpegRound (segment.bytes ++ rest) =
      match segment.dimensions with
      | some dims => .found dims
      | none => .next rest := by
  obtain ⟨fill, marker, high, low, payload, hmarker, hlength⟩ := segment
  simp only [jpegRound, Segment.bytes, Segment.dimensions, List.append_assoc,
    List.cons_append, dropWhile_fill _ hmarker.1, hmarker, hlength, or_self, if_false]
  rw [if_neg (by simp; omega), if_neg (by simp)]
  by_cases hframe : marker ∈ startOfFrame
  · -- the header is long enough exactly when both dimensions are inside the payload
    match payload with
    | a :: h₁ :: h₂ :: w₁ :: w₂ :: payload => simp [hframe]
    | [] | [_] | [_, _] | [_, _, _] | [_, _, _, _] => simp [hframe]
  · simp [hframe]

/-- Where a round reads a segment of the format: an `0xff` in front of the marker, and not one
of the markers without a length. -/
def Introduced (rest : Bytes) : Prop :=
  rest.head? = some 0xff ∧ ∀ marker ∈ (rest.dropWhile (· = 0xff)).head?, marker ∉ [0xd8, 0xd9]

instance (rest : Bytes) : Decidable (Introduced rest) :=
  inferInstanceAs (Decidable (_ ∧ _))

theorem introduced_segment (segment : Segment) (rest : Bytes) :
    Introduced (segment.bytes ++ rest) := by
  refine ⟨by simp [Segment.bytes, List.replicate_succ], ?_⟩
  simp [Segment.bytes, dropWhile_fill _ segment.marker_ne.1, segment.marker_ne]

theorem exists_segment {rest : Bytes} (h : jpegRound rest ≠ .stop) (hrest : Introduced rest) :
    ∃ segment after, rest = Segment.bytes segment ++ after := by
  obtain ⟨hhead, hmarkers⟩ := hrest
  obtain ⟨fill, hfill⟩ := take_fill rest
  obtain _ | fill := fill
  · -- without an `0xff` there is nothing to pass over, yet the first byte is one
    have hnot := List.head?_dropWhile_not (· = (0xff : UInt8)) rest
    rw [List.replicate_zero, List.nil_append] at hfill
    rw [← hfill, hhead] at hnot
    simp at hnot
  match hdrop : rest.dropWhile (· = 0xff) with
  | [] => simp [jpegRound, hdrop] at h
  | [marker] | [marker, high] =>
    have hfree : ¬ marker = 0xd8 ∧ ¬ marker = 0xd9 := by simpa [hdrop] using hmarkers
    simp [jpegRound, hdrop, hfree] at h
  | marker :: high :: low :: body =>
    rw [hdrop] at hfill hmarkers
    have hff := List.head?_dropWhile_not (· = (0xff : UInt8)) rest
    simp only [hdrop, List.head?_cons, decide_eq_false_iff_not] at hff
    have hfree : ¬ marker = 0xd8 ∧ ¬ marker = 0xd9 := by simpa using hmarkers
    simp only [jpegRound, hdrop, hfree, or_self, if_false] at h
    have hda : ¬ marker = 0xda := by
      rintro rfl
      simp at h
    have hlength : 1 < word high low ∧ word high low ≤ body.length + 2 := by
      simp [hda] at h
      exact ⟨h.2.1, h.2.2.1⟩
    refine ⟨⟨fill, marker, high, low, body.take (word high low - 2), ⟨hff, hfree.1, hfree.2, hda⟩, ?_⟩,
      body.drop (word high low - 2), by simpa [Segment.bytes] using hfill⟩
    simp
    omega

theorem segments_iff {fuel : Nat} {rest : Bytes} {dims : Nat × Nat}
    (h : jpegScan fuel rest = some dims) :
    Segments dims rest ↔ ∀ left ∈ jpegRounds fuel rest, Introduced left := by
  induction fuel generalizing rest with
  | zero => cases h
  | succ fuel ih =>
    constructor
    · intro hs
      cases hs with
      | @frame segment rest hdims =>
        simp [jpegRounds, jpegRound_segment, hdims, introduced_segment]
      | @skip segment rest hdims hrest =>
        have hround := jpegRound_segment segment rest
        rw [hdims] at hround
        simp only [jpegScan, hround] at h
        simpa [jpegRounds, hround, introduced_segment] using (ih h).1 hrest
    · intro hall
      have hstop : jpegRound rest ≠ .stop := by
        intro e
        simp [jpegScan, e] at h
      obtain ⟨segment, after, rfl⟩ := exists_segment hstop (hall _ (by simp [jpegRounds]))
      have hround := jpegRound_segment segment after
      cases hdims : segment.dimensions with
      | some found =>
        simp only [jpegScan, hround, hdims, Option.some.injEq] at h
        exact .frame after (hdims.trans (congrArg some h))
      | none =>
        simp only [hdims] at hround
        simp only [jpegScan, hround] at h
        exact .skip hdims ((ih h).2 fun left hleft =>
          hall left (by simp [jpegRounds, hround, hleft]))

/-- The dimensions are those of a frame header behind well-formed segments exactly when every
round of the loop began at an `0xff` and none passed over a marker without a length, neither of
which the loop requires after the first segment. -/
theorem jpegDimensions_segments_iff (start tail : Bytes) (dims : Nat × Nat)
    (h : jpegDimensions start tail = some dims) :
    (∃ rest, start = 0xff :: 0xd8 :: rest ∧ Segments dims rest) ↔
      ∀ left ∈ jpegRounds start.length (start.drop 2), Introduced left := by
  rw [jpegDimensions] at h
  split at h
  · rename_i hends
    obtain ⟨rest, rfl⟩ := hends.1
    refine Iff.trans ⟨?_, fun hs => ⟨_, rfl, hs⟩⟩ (segments_iff h)
    rintro ⟨rest', e, hs⟩
    obtain rfl : 0xff :: rest = rest' := by simpa using e
    exact hs
  · cases h

/-- A segment without payload, and what should be the marker of the next without an `0xff`. -/
def strayHeader : Bytes :=
  [0xff, 0xd8, 0xff, 0xe0, 0x00, 0x02, 0xc0, 0x00, 0x07, 0x08, 0x00, 0x10, 0x00, 0x20]

theorem jpegDimensions_strayHeader :
    jpegDimensions strayHeader [0xff, 0xd9] = some (32, 16) ∧
      ¬ ∃ rest, strayHeader = 0xff :: 0xd8 :: rest ∧ Segments (32, 16) rest := by
  have hdims : jpegDimensions strayHeader [0xff, 0xd9] = some (32, 16) := by decide
  refine ⟨hdims, ?_⟩
  rintro ⟨rest, e, hs⟩
  have hscan : jpegScan 14 (strayHeader.drop 2) = some (32, 16) := by decide
  obtain rfl : strayHeader.drop 2 = rest := by simp [e]
  exact absurd ((segments_iff hscan).1 hs) (by decide)

theorem jpegDimensions_header :
    ∃ rest, ([0xff, 0xd8, 0xff, 0xc0, 0x00, 0x07, 0x08, 0x00, 0x10, 0x00, 0x20] : Bytes) =
      0xff :: 0xd8 :: rest ∧ Segments (32, 16) rest :=
  (jpegDimensions_segments_iff _ [0xff, 0xd9] (32, 16) (by decide)).2 (by decide)

theorem jpegScan_segments {rest : Bytes} {dims : Nat × Nat} (h : Segments dims rest) :
    ∀ fuel, rest.length ≤ fuel → jpegScan fuel rest = some dims := by
  induction h with
  | @frame segment rest hdims =>
    intro fuel hfuel
    obtain _ | fuel := fuel
    · simp [Segment.bytes] at hfuel
    · simp only [jpegScan, jpegRound_segment, hdims]
  | @skip segment rest hdims hrest ih =>
    intro fuel hfuel
    simp only [List.length_append, Segment.bytes, List.length_replicate, List.length_cons]
      at hfuel
    obtain _ | fuel := fuel
    · omega
    · simp only [jpegScan, jpegRound_segment, hdims]
      exact ih fuel (by omega)

/-- Nothing well formed is missed: of segments up to a frame header, however many and
however padded, the loop reads the dimensions that the header carries. -/
theorem jpegDimensions_complete (rest tail : Bytes) (dims : Nat × Nat)
    (h : Segments dims rest) (htail : [0xff, 0xd9] <:+ tail) :
    jpegDimensions (0xff :: 0xd8 :: rest) tail = some dims := by
  have hstart : [0xff, 0xd8, 0xff] <+: 0xff :: 0xd8 :: rest := by
    cases h <;> exact ⟨_, by simp [Segment.bytes, List.replicate_succ]; rfl⟩
  rw [jpegDimensions, if_pos ⟨hstart, htail⟩]
  exact jpegScan_segments h _ (by simp; omega)

/-- A padded application segment in front of the header. -/
theorem jpegDimensions_padded :
    jpegDimensions (0xff :: 0xd8 :: (Segment.bytes ⟨1, 0xe0, 0x00, 0x03, [0xc0], by decide, rfl⟩ ++
      (Segment.bytes ⟨0, 0xc0, 0x00, 0x07, [0x08, 0x00, 0x10, 0x00, 0x20], by decide, rfl⟩ ++ [])))
        [0xff, 0xd9] = some (32, 16) :=
  jpegDimensions_complete _ _ _ (.skip rfl (.frame [] rfl)) List.suffix_rfl

end Lorepia.Assets
