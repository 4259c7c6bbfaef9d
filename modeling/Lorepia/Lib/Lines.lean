import Mathlib
import Lorepia.Lib.Tx

/-!
# Reading lines from chunks

A reader takes bytes as they arrive and handles them line by line; a line that has not ended
is kept, and a line longer than the limit is an error. `push` takes one chunk: it returns what
the lines of the chunk produced, or the first error and nothing else. `scan` also tells what
was produced before an error. `scan` does not see where a chunk ends (`scan_append`), and
`push` is `scan` with the products forgotten on an error (`push_eq`).
-/

namespace Lorepia.Lines

def newline : UInt8 := 10

def carriageReturn : UInt8 := 13

/-- How lines are handled: a state `τ`, products `φ` and errors `ε`. -/
structure Reader (τ φ ε : Type) where
  maxLine : Nat
  tooLarge : ε
  line : τ → List UInt8 → Except ε (List φ × τ)

variable {τ φ ε : Type}

/-- The unfinished line, within the limit. -/
structure State (R : Reader τ φ ε) where
  buffer : List UInt8
  inner : τ
  fits : buffer.length ≤ R.maxLine

/-- A line without the `\r` before its `\n`. -/
def stripCr (line : List UInt8) : List UInt8 :=
  if line.getLast? = some carriageReturn then line.dropLast else line

namespace Reader

variable (R : Reader τ φ ε)

def start (inner : τ) : State R := ⟨[], inner, Nat.zero_le _⟩

/-- The rest of a chunk, of which `segment` has been read since the last newline. -/
def pushFrom : State R → List UInt8 → List UInt8 → Except ε (List φ × State R)
  | s, segment, [] =>
    if h : s.buffer.length + segment.length ≤ R.maxLine then
      .ok ([], ⟨s.buffer ++ segment, s.inner, by rwa [List.length_append]⟩)
    else .error R.tooLarge
  | s, segment, b :: rest =>
    if b = newline then do
      ensure (s.buffer.length + segment.length ≤ R.maxLine) R.tooLarge
      let (products, inner) ← R.line s.inner (stripCr (s.buffer ++ segment))
      let (more, s') ← pushFrom (R.start inner) [] rest
      .ok (products ++ more, s')
    else pushFrom s (segment ++ [b]) rest

def push (s : State R) (bytes : List UInt8) : Except ε (List φ × State R) := R.pushFrom s [] bytes

/-- What bytes produce after `pending`, and how that ends. -/
def scanFrom : τ → List UInt8 → List UInt8 → List φ × Except ε (State R)
  | inner, pending, [] =>
    if h : pending.length ≤ R.maxLine then ([], .ok ⟨pending, inner, h⟩) else ([], .error R.tooLarge)
  | inner, pending, b :: rest =>
    if b = newline then
      if pending.length ≤ R.maxLine then
        match R.line inner (stripCr pending) with
        | .error e => ([], .error e)
        | .ok (products, inner) =>
          (products ++ (scanFrom inner [] rest).1, (scanFrom inner [] rest).2)
      else ([], .error R.tooLarge)
    else scanFrom inner (pending ++ [b]) rest

def scan (s : State R) (bytes : List UInt8) : List φ × Except ε (State R) :=
  R.scanFrom s.inner s.buffer bytes

/-- The products, unless there is an error. -/
def collect : List φ × Except ε (State R) → Except ε (List φ × State R)
  | (products, .ok s) => .ok (products, s)
  | (_, .error e) => .error e

/-- `scan` of what follows, after what came before. -/
def andThen (before : List φ × Except ε (State R)) (next : State R → List φ × Except ε (State R)) :
    List φ × Except ε (State R) :=
  match before with
  | (products, .ok s) => (products ++ (next s).1, (next s).2)
  | (products, .error e) => (products, .error e)

variable {R}

theorem pushFrom_eq (s : State R) (segment bytes : List UInt8) :
    R.pushFrom s segment bytes = R.collect (R.scanFrom s.inner (s.buffer ++ segment) bytes) := by
  induction bytes generalizing s segment with
  | nil =>
    unfold pushFrom scanFrom
    by_cases h : s.buffer.length + segment.length ≤ R.maxLine
    · rw [dif_pos h, dif_pos (by rwa [List.length_append])]
      rfl
    · rw [dif_neg h, dif_neg (by rwa [List.length_append])]
      rfl
  | cons b rest ih =>
    unfold pushFrom scanFrom
    by_cases hb : b = newline
    · rw [if_pos hb, if_pos hb]
      by_cases h : s.buffer.length + segment.length ≤ R.maxLine
      · rw [if_pos (by rwa [List.length_append])]
        cases hline : R.line s.inner (stripCr (s.buffer ++ segment)) with
        | error e => simp [ensure, h, bind, Except.bind, collect]
        | ok result =>
          obtain ⟨products, inner⟩ := result
          simp only [ensure, if_pos h, bind, Except.bind]
          rw [ih (R.start inner) []]
          show _ = R.collect (products ++ (R.scanFrom inner [] rest).1, (R.scanFrom inner [] rest).2)
          show Except.bind (R.collect (R.scanFrom inner [] rest)) _ = _
          rcases R.scanFrom inner [] rest with ⟨more, e | s'⟩
          · rfl
          · rfl
      · rw [if_neg (by rwa [List.length_append])]
        simp [ensure, h, bind, Except.bind, collect]
    · rw [if_neg hb, if_neg hb, ih, List.append_assoc]

theorem push_eq (s : State R) (bytes : List UInt8) : R.push s bytes = R.collect (R.scan s bytes) := by
  unfold push scan
  rw [pushFrom_eq, List.append_nil]

theorem scanFrom_tooLarge {inner : τ} {pending : List UInt8} (h : R.maxLine < pending.length)
    (bytes : List UInt8) : R.scanFrom inner pending bytes = ([], .error R.tooLarge) := by
  induction bytes generalizing pending with
  | nil =>
    unfold scanFrom
    rw [dif_neg (by omega)]
  | cons b rest ih =>
    unfold scanFrom
    by_cases hb : b = newline
    · rw [if_pos hb, if_neg (by omega)]
    · rw [if_neg hb]
      refine ih ?_
      rw [List.length_append, List.length_singleton]
      omega

theorem scanFrom_append (inner : τ) (pending front back : List UInt8) :
    R.scanFrom inner pending (front ++ back) =
      R.andThen (R.scanFrom inner pending front) fun s => R.scan s back := by
  induction front generalizing inner pending with
  | nil =>
    rw [List.nil_append]
    by_cases h : pending.length ≤ R.maxLine
    · have hnil : R.scanFrom inner pending [] = ([], .ok ⟨pending, inner, h⟩) := by
        unfold scanFrom
        rw [dif_pos h]
      rw [hnil]
      rfl
    · rw [scanFrom_tooLarge (by omega), scanFrom_tooLarge (by omega)]
      rfl
  | cons b rest ih =>
    rw [List.cons_append]
    unfold scanFrom
    by_cases hb : b = newline
    · rw [if_pos hb, if_pos hb]
      by_cases h : pending.length ≤ R.maxLine
      · rw [if_pos h, if_pos h]
        cases R.line inner (stripCr pending) with
        | error e => rfl
        | ok result =>
          obtain ⟨products, inner'⟩ := result
          simp only
          rw [ih]
          rcases R.scanFrom inner' [] rest with ⟨more, e | s⟩
          · rfl
          · simp only [andThen, List.append_assoc]
      · rw [if_neg h, if_neg h]
        rfl
    · rw [if_neg hb, if_neg hb]
      exact ih inner (pending ++ [b])

theorem scan_append (s : State R) (front back : List UInt8) :
    R.scan s (front ++ back) = R.andThen (R.scan s front) fun s => R.scan s back :=
  scanFrom_append s.inner s.buffer front back

theorem scan_nil (s : State R) : R.scan s [] = ([], .ok s) := by
  unfold scan scanFrom
  rw [dif_pos s.fits]

theorem scanFrom_nil {inner : τ} {pending : List UInt8} (hfits : pending.length ≤ R.maxLine) :
    R.scanFrom inner pending [] = ([], .ok ⟨pending, inner, hfits⟩) := by
  unfold scanFrom
  rw [dif_pos hfits]

theorem scanFrom_split {inner : τ} {pending : List UInt8} (hfits : pending.length ≤ R.maxLine)
    (bytes : List UInt8) {products : List φ} {e : ε} (h : R.scanFrom inner pending bytes = (products, .error e)) :
    ∃ front back s, bytes = front ++ back ∧ R.scanFrom inner pending front = (products, .ok s) := by
  induction bytes generalizing inner pending products with
  | nil =>
    rw [scanFrom_nil hfits] at h
    cases h
  | cons b rest ih =>
    unfold scanFrom at h
    by_cases hb : b = newline
    · rw [if_pos hb, if_pos hfits] at h
      cases hline : R.line inner (stripCr pending) with
      | error e' =>
        rw [hline] at h
        cases h
        exact ⟨[], b :: rest, _, rfl, scanFrom_nil hfits⟩
      | ok result =>
        obtain ⟨first, inner'⟩ := result
        rw [hline] at h
        simp only [Prod.mk.injEq] at h
        obtain ⟨rfl, herror⟩ := h
        obtain ⟨front, back, s, rfl, hfront⟩ := ih (Nat.zero_le _) (Prod.ext rfl herror)
        refine ⟨b :: front, back, s, rfl, ?_⟩
        simp only [scanFrom, if_pos hb, if_pos hfits, hline, hfront]
    · rw [if_neg hb] at h
      by_cases hlonger : (pending ++ [b]).length ≤ R.maxLine
      · obtain ⟨front, back, s, rfl, hfront⟩ := ih hlonger h
        refine ⟨b :: front, back, s, rfl, ?_⟩
        rw [scanFrom, if_neg hb]
        exact hfront
      · rw [scanFrom_tooLarge (by omega)] at h
        cases h
        exact ⟨[], b :: rest, _, rfl, scanFrom_nil hfits⟩

theorem scan_split {s : State R} {bytes : List UInt8} {products : List φ} {e : ε}
    (h : R.scan s bytes = (products, .error e)) :
    ∃ front back s', bytes = front ++ back ∧ R.scan s front = (products, .ok s') ∧
      R.scan s' back = ([], .error e) := by
  obtain ⟨front, back, s', rfl, hfront⟩ := scanFrom_split s.fits bytes h
  refine ⟨front, back, s', rfl, hfront, ?_⟩
  rw [scan_append, show R.scan s front = _ from hfront] at h
  simp only [andThen, Prod.mk.injEq, List.append_right_eq_self] at h
  exact Prod.ext h.1 h.2

theorem scanFrom_fails {P : ε → Prop} (hline : ∀ inner line, FailsWith P (R.line inner line))
    (htooLarge : P R.tooLarge) (inner : τ) (pending bytes : List UInt8) :
    FailsWith P (R.scanFrom inner pending bytes).2 := by
  induction bytes generalizing inner pending with
  | nil =>
    unfold scanFrom
    split
    · exact .ok _
    · exact .error htooLarge
  | cons b rest ih =>
    unfold scanFrom
    split
    · split
      · have hfails := hline inner (stripCr pending)
        cases hresult : R.line inner (stripCr pending) with
        | error e => exact .error (hfails e hresult)
        | ok result => exact ih _ _
      · exact .error htooLarge
    · exact ih _ _

/-! ## Streams of chunks and of lines -/

variable (R)

def pushAll : State R → List (List UInt8) → Except ε (List φ × State R)
  | s, [] => .ok ([], s)
  | s, chunk :: rest => do
    let (products, s) ← R.push s chunk
    let (more, s) ← pushAll s rest
    .ok (products ++ more, s)

def lines : τ → List (List UInt8) → Except ε (List φ × τ)
  | inner, [] => .ok ([], inner)
  | inner, line :: rest => do
    let (products, inner) ← R.line inner line
    let (more, inner) ← lines inner rest
    .ok (products ++ more, inner)

variable {R}

theorem pushAll_eq (s : State R) (chunks : List (List UInt8)) :
    R.pushAll s chunks = R.collect (R.scan s chunks.flatten) := by
  induction chunks generalizing s with
  | nil =>
    rw [List.flatten_nil, scan_nil]
    rfl
  | cons chunk rest ih =>
    rw [List.flatten_cons, scan_append, pushAll, push_eq]
    rcases R.scan s chunk with ⟨products, e | s'⟩
    · rfl
    · simp only [collect, andThen, bind, Except.bind, ih]
      rcases R.scan s' rest.flatten with ⟨more, e | s''⟩
      · rfl
      · rfl

theorem scanFrom_line {inner inner' : τ} {pending line rest : List UInt8} {products : List φ}
    (hline : newline ∉ line) (hfits : (pending ++ line).length ≤ R.maxLine)
    (h : R.line inner (stripCr (pending ++ line)) = .ok (products, inner')) :
    R.scanFrom inner pending (line ++ newline :: rest) =
      (products ++ (R.scanFrom inner' [] rest).1, (R.scanFrom inner' [] rest).2) := by
  induction line generalizing pending with
  | nil =>
    rw [List.append_nil] at hfits h
    rw [List.nil_append, scanFrom, if_pos rfl, if_pos hfits, h]
  | cons b line ih =>
    have hb : b ≠ newline := fun hb => hline (hb ▸ List.mem_cons_self)
    have happend : pending ++ b :: line = (pending ++ [b]) ++ line := by simp
    rw [happend] at hfits h
    rw [List.cons_append, scanFrom, if_neg hb]
    exact ih (fun hmem => hline (List.mem_cons_of_mem _ hmem)) hfits h

theorem scan_lines {inner inner' : τ} {lines : List (List UInt8)} {products : List φ}
    (hlines : ∀ line ∈ lines, newline ∉ line ∧ line.length ≤ R.maxLine)
    (h : R.lines inner (lines.map stripCr) = .ok (products, inner')) :
    R.scan (R.start inner) (lines.flatMap (· ++ [newline])) = (products, .ok (R.start inner')) := by
  induction lines generalizing inner products with
  | nil =>
    cases h
    exact scan_nil _
  | cons line rest ih =>
    obtain ⟨⟨first, middle⟩, hfirst, h⟩ := except_bind_ok.mp h
    obtain ⟨⟨more, last⟩, hmore, h⟩ := except_bind_ok.mp h
    cases h
    have hrest := ih (fun l hl => hlines l (List.mem_cons_of_mem _ hl)) hmore
    obtain ⟨hnewline, hfits⟩ := hlines line List.mem_cons_self
    rw [List.flatMap_cons, List.append_assoc, List.singleton_append]
    show R.scanFrom inner [] _ = _
    rw [@scanFrom_line _ _ _ R _ _ [] _ _ _ hnewline hfits hfirst]
    replace hrest : R.scanFrom middle [] (rest.flatMap (· ++ [newline])) = (more, .ok (R.start inner')) :=
      hrest
    rw [hrest]

end Reader

end Lorepia.Lines
