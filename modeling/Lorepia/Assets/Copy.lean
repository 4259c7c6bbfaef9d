import Lorepia.Assets.Alone

/-!
# Copying an object, read by read

`copy_and_hash` keeps the first bytes and the last bytes of what it has read. However the reader
splits the data, they are those of the whole, and the staged file gets all of it. A read that is
interrupted ends the copy, and so does data without a byte.
-/

namespace Lorepia.Assets

open Proc

/-! ## One read -/

def lastBytes (data : Bytes) : Bytes := data.drop (data.length - tailBytes)

def Copied.of (data : Bytes) : Copied := ⟨data.length, data.take probeBytes, lastBytes data, data⟩

theorem updateTail_lastBytes (data chunk : Bytes) :
    updateTail (lastBytes data) chunk = lastBytes (data ++ chunk) := by
  unfold updateTail lastBytes
  split
  next h =>
    have hdata : data.drop ((data ++ chunk).length - tailBytes) = [] := by
      rw [List.drop_eq_nil_iff, List.length_append]
      omega
    rw [List.drop_append, hdata, List.nil_append, List.length_append]
    congr 1
    omega
  next h =>
    rw [List.drop_append, List.drop_append, List.drop_drop]
    simp only [List.length_append, List.length_drop]
    congr 2 <;> omega

theorem Copied.add_of (data chunk : Bytes) : (Copied.of data).add chunk = .of (data ++ chunk) := by
  have hstart : (if (data.take probeBytes).length < probeBytes then
      data.take probeBytes ++ chunk.take (probeBytes - (data.take probeBytes).length)
      else data.take probeBytes) = (data ++ chunk).take probeBytes := by
    rw [List.length_take, List.take_append]
    split
    · congr 2
      omega
    · rw [Nat.sub_eq_zero_of_le (by omega), List.take_zero, List.append_nil]
  simp only [add, of, Copied.mk.injEq, List.length_append, updateTail_lastBytes, and_true, true_and]
  exact hstart

/-! ## A run -/

def readBytes (reads : List (Option Bytes)) : Bytes := (reads.filterMap id).flatten

/-- Nothing but a read is disturbed. Each round asks whether it is cancelled, reads and writes,
and the last one finds the end of the data. -/
def inputsOf : List (Option Bytes) → List Input
  | [] => [{}, {}]
  | some _ :: rest => {} :: {} :: {} :: inputsOf rest
  | none :: rest => {} :: { fails := true } :: inputsOf rest

def Root.staged (s : Root) (name : String) (inode : Nat) (data : Bytes) : Root :=
  { s with files := { s.files with staging := put s.files.staging name (some (.file ⟨inode, data⟩)) } }

def runCopy (store : AssetStore) (name : String) (reads : List (Option Bytes)) (s : Root) :
    Proc Root Input AssetError Copied × Root :=
  runOn (inputsOf reads) (copyAndHash store name (reads.filterMap id)) s

/-- The bytes that the loop has written when it ends, with its result. -/
def copyOutcome (max : Nat) : List (Option Bytes) → Bytes → Except AssetError Copied × Bytes
  | [], data => (.ok (.of data), data)
  | none :: _, data => (.error (.io .other), data)
  | some chunk :: rest, data =>
    if max < data.length + chunk.length then (.error (.limitExceeded "per-object quota" max), data)
    else copyOutcome max rest (data ++ chunk)

variable {store : AssetStore} {name : String} {reads : List (Option Bytes)} {s : Root} {inode : Nat}
  {data : Bytes} {max : Nat}

theorem staged_staged (s : Root) (name : String) (inode : Nat) (data chunk : Bytes) :
    (s.staged name inode data).staged name inode chunk = s.staged name inode chunk := by
  simp only [Root.staged, put_put]

theorem runOn_writeStaged {inputs : List Input} (chunk : Bytes) (k : Unit → Op Copied) :
    runOn ({} :: inputs) (writeStaged name chunk >>= k) (s.staged name inode data) =
      runOn inputs (k ()) (s.staged name inode (data ++ chunk)) := by
  have hfile : (s.staged name inode data).files.staging name = some (.file ⟨inode, data⟩) :=
    if_pos rfl
  rw [← staged_staged s name inode data (data ++ chunk)]
  simp only [writeStaged, fs, runOn, bind, atomic, andThen, Proc.step, hfile]
  rfl

theorem runOn_copyChunks (store : AssetStore) (name : String) (s : Root) (inode : Nat) (data : Bytes)
    (hreads : ∀ chunk, some chunk ∈ reads → chunk ≠ []) :
    runOn (inputsOf reads) (copyChunks store name (reads.filterMap id) (.of data))
        (s.staged name inode data) =
      (.done (copyOutcome store.limits.maxObjectBytes reads data).1,
        s.staged name inode (copyOutcome store.limits.maxObjectBytes reads data).2) := by
  induction reads generalizing data with
  | nil => rfl
  | cons read rest ih =>
    cases read with
    | none =>
      rw [List.filterMap_cons_none rfl]
      cases rest.filterMap id with
      | nil => exact runOn_done _ _ _
      | cons chunk chunks => exact runOn_done _ _ _
    | some chunk =>
      -- the round asks, reads and then looks at what it has read
      show runOn ({} :: inputsOf rest) (if chunk = [] then _ else _) (s.staged name inode data) = _
      rw [if_neg (hreads chunk List.mem_cons_self), copyOutcome]
      by_cases hmax : store.limits.maxObjectBytes < (Copied.of data).size + chunk.length
      · rw [if_pos hmax, if_pos (show _ < data.length + chunk.length from hmax)]
        exact runOn_done _ _ _
      · rw [if_neg hmax, if_neg (show ¬ _ < data.length + chunk.length from hmax), runOn_writeStaged,
          Copied.add_of]
        exact ih _ fun chunk h => hreads chunk (List.mem_cons_of_mem _ h)

/-! ## What the loop comes to -/

def Uninterrupted (max : Nat) (reads : List (Option Bytes)) (data : Bytes) : Prop :=
  ∀ past rest, reads = past ++ none :: rest → max < (data ++ readBytes past).length

theorem Uninterrupted.cons {chunk : Bytes} :
    Uninterrupted max (some chunk :: reads) data ↔ Uninterrupted max reads (data ++ chunk) := by
  constructor
  · intro h past rest hreads
    simpa [readBytes] using h (some chunk :: past) rest (by rw [hreads, List.cons_append])
  · intro h past rest hreads
    cases past with
    | nil => cases hreads
    | cons read past =>
      obtain ⟨rfl, hrest⟩ := List.cons.inj hreads
      simpa [readBytes] using h past rest hrest

/-- Without an interruption the loop copies everything or exceeds the limit. -/
theorem copyOutcome_uninterrupted (hdata : data.length ≤ max) (h : Uninterrupted max reads data) :
    if (data ++ readBytes reads).length ≤ max then
      copyOutcome max reads data = (.ok (.of (data ++ readBytes reads)), data ++ readBytes reads)
    else (copyOutcome max reads data).1 = .error (.limitExceeded "per-object quota" max) := by
  induction reads generalizing data with
  | nil => simp [readBytes, hdata, copyOutcome]
  | cons read rest ih =>
    cases read with
    | none =>
      have := h [] rest rfl
      simp [readBytes] at this
      omega
    | some chunk =>
      have hbytes : data ++ readBytes (some chunk :: rest) = data ++ chunk ++ readBytes rest := by
        simp [readBytes]
      rw [hbytes, copyOutcome]
      by_cases hmax : max < data.length + chunk.length
      · rw [if_pos hmax, if_neg (by simp; omega)]
      · rw [if_neg hmax]
        exact ih (by simpa using hmax) (Uninterrupted.cons.mp h)

/-- An interruption ends the loop. -/
theorem copyOutcome_interrupted (h : ¬ Uninterrupted max reads data) :
    (copyOutcome max reads data).1 = .error (.io .other) := by
  induction reads generalizing data with
  | nil => exact absurd (fun past rest hreads => by simp at hreads) h
  | cons read rest ih =>
    cases read with
    | none => rfl
    | some chunk =>
      have hrest := Uninterrupted.cons.not.mp h
      rw [copyOutcome, if_neg]
      · exact ih hrest
      · intro hmax
        refine hrest fun past rest _ => ?_
        simp
        omega

/-! ## The copy -/

/-- The copy as it is meant: exact, or refused for its size. -/
def CopiesExactly (store : AssetStore) (name : String) (reads : List (Option Bytes)) (s : Root)
    (inode : Nat) : Prop :=
  if (readBytes reads).length ≤ store.limits.maxObjectBytes then
    runCopy store name reads s =
      (.done (.ok (.of (readBytes reads))), s.staged name inode (readBytes reads))
  else
    (runCopy store name reads s).1 =
      .done (.error (.limitExceeded "per-object quota" store.limits.maxObjectBytes))

theorem runCopy_eq (store : AssetStore) (hs : s.files.staging name = some (.file ⟨inode, []⟩))
    (hreads : ∀ chunk, some chunk ∈ reads → chunk ≠ []) :
    runCopy store name reads s =
      (.done ((copyOutcome store.limits.maxObjectBytes reads []).1 >>= fun copied =>
          if copied.size = 0 then .error .unsupportedContent else .ok copied),
        s.staged name inode (copyOutcome store.limits.maxObjectBytes reads []).2) := by
  have hempty : s.staged name inode [] = s := by rw [Root.staged, put_eq_self hs]
  have hloop := runOn_copyChunks store name s inode [] hreads
  rw [hempty] at hloop
  refine runOn_andThen hloop ?_
  cases (copyOutcome store.limits.maxObjectBytes reads []).1 with
  | error e => rfl
  | ok copied =>
    show (if copied.size = 0 then fail _ else pure copied) = _
    split
    next h => simp [h, bind, Except.bind, fail]
    next h => simp [h, bind, Except.bind]; rfl

/-- The copy is exact, however the data are split, unless they are empty or a read is
interrupted. -/
theorem copies_exactly_iff (store : AssetStore) (name : String) (s : Root) (inode : Nat)
    (hs : s.files.staging name = some (.file ⟨inode, []⟩)) (reads : List (Option Bytes))
    (hreads : ∀ chunk, some chunk ∈ reads → chunk ≠ []) :
    CopiesExactly store name reads s inode ↔
      readBytes reads ≠ [] ∧ ∀ past rest, reads = past ++ none :: rest →
        store.limits.maxObjectBytes < (readBytes past).length := by
  have hrun := runCopy_eq store hs hreads
  unfold CopiesExactly
  by_cases hlate : Uninterrupted store.limits.maxObjectBytes reads []
  · have houtcome := copyOutcome_uninterrupted (Nat.zero_le _) hlate
    rw [List.nil_append] at houtcome
    have hright : (readBytes reads ≠ [] ∧ ∀ past rest, reads = past ++ none :: rest →
        store.limits.maxObjectBytes < (readBytes past).length) ↔ readBytes reads ≠ [] :=
      and_iff_left hlate
    rw [hright]
    split at houtcome
    next hsize =>
      rw [if_pos hsize, hrun, houtcome]
      by_cases hempty : readBytes reads = [] <;> simp [hempty, Copied.of, bind, Except.bind]
    next hsize =>
      rw [if_neg hsize, hrun, houtcome]
      refine iff_of_true rfl fun hempty => ?_
      simp [hempty] at hsize
  · have houtcome := copyOutcome_interrupted hlate
    refine iff_of_false ?_ fun h => hlate h.2
    split <;> simp [hrun, houtcome, bind, Except.bind]

def Sample.copyRoot : Root := Root.staged ⟨Sample.files, .empty, none⟩ "part" 0 []

/-- Data of one byte whose first read is interrupted are not copied, and neither are no data. -/
theorem interrupted_copy_fails :
    (runCopy Sample.store "part" [none, some [1]] Sample.copyRoot).1 = .done (.error (.io .other)) ∧
      (runCopy Sample.store "part" [] Sample.copyRoot).1 = .done (.error .unsupportedContent) :=
  ⟨rfl, rfl⟩

theorem copies_exactly_bytewise :
    CopiesExactly Sample.store "part" [some [1], some [1]] Sample.copyRoot 0 := by
  refine (copies_exactly_iff Sample.store "part" Sample.copyRoot 0 rfl [some [1], some [1]]
    (by simp)).mpr ⟨by decide, fun past rest hreads => ?_⟩
  have : none ∈ [some ([1] : Bytes), some [1]] := hreads ▸ List.mem_append_right _ List.mem_cons_self
  simp at this

end Lorepia.Assets
