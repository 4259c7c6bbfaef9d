import Mathlib
import Lorepia.Import.Service

/-!
# What an accepted archive can make the service read

The preflight checks declared sizes and the places of the entries; the extraction checks what
is read against the declared sizes. The ranges of the local entries are disjoint, so their
compressed sizes add up to no more than the file (`Lib/Extents`), and each entry expands at
most by the ratio.

It is not checked that the ranges end before the central directory: the end of an entry's data
is compared with its own central header alone, so it may run over those listed before.
-/

namespace Lorepia.Import

open Proc Assets Extents

/-! ## The bound -/

def ZipEntry.dataEnd (e : ZipEntry) : Nat := e.dataStart.getD 0 + e.compressedSize

def ZipEntry.range (e : ZipEntry) : Range := (e.headerStart, e.dataEnd)

def delivered : List (Option Bytes) → Bytes
  | some chunk :: rest => if chunk = [] then [] else chunk ++ delivered rest
  | _ => []

/-- The number of bytes an import reads of an entry. A directory is not read. -/
def ZipEntry.streamed (e : ZipEntry) : Nat :=
  if e.isDir then 0 else ((e.reads.map delivered).getD []).length

/-- What an accepted archive should satisfy; `central` is where its directory starts. -/
structure Bounded (limits : ImportLimits) (source : Bytes) (central : Nat)
    (entries : List ZipEntry) : Prop where
  apart : (entries.map ZipEntry.range).Pairwise Extents.Apart
  beforeDirectory : ∀ e ∈ entries, e.dataEnd ≤ central
  asDeclared : (entries.map ZipEntry.streamed).sum = (entries.map ZipEntry.size).sum
  withinTotal : (entries.map ZipEntry.streamed).sum ≤ limits.maxTotalUncompressedBytes
  withinRatio : (entries.map ZipEntry.streamed).sum ≤ limits.maxCompressionRatio * source.length

/-! ## The preflight -/

/-- What the preflight has established of an entry. -/
structure Admitted (limits : ImportLimits) (source : Bytes) (e : ZipEntry) : Prop where
  ordered : e.headerStart ≤ e.dataEnd
  inside : e.dataEnd ≤ source.length
  covered : e.compressedSize ≤ extent e.range
  ratio : e.size ≤ e.compressedSize * limits.maxCompressionRatio
  directory : e.isDir = true → e.size = 0

/-- The plan is for this entry. -/
structure Planned (index : Nat) (e : ZipEntry) (plan : EntryPlan) : Prop where
  index_eq : plan.index = index
  bytes_eq : plan.bytes = e.size
  kind_iff : plan.kind = .directory ↔ e.isDir = true

variable {u : Unicode} {limits : ImportLimits} {source : Bytes} {temporary : AssetOwner} {n : Nat}
  {A : World → Input → Prop} {w w' : World} {plans : List EntryPlan} {st : Streamed}
  {archive : ZipArchive} {plan : EntryPlan}

theorem validatePath_isDirectory {raw : Bytes} {hint : Bool}
    {path : PortablePath} (h : validatePath u limits raw hint = .ok path) :
    path.isDirectory = hint := by
  unfold validatePath at h
  obtain ⟨raw, -, h⟩ := except_bind_ok.mp h
  obtain ⟨_, _, h⟩ := except_bind_ok.mp h
  obtain ⟨_, _, h⟩ := except_bind_ok.mp h
  obtain ⟨_, _, h⟩ := except_bind_ok.mp h
  obtain ⟨_, _, h⟩ := except_bind_ok.mp h
  obtain ⟨_, _, h⟩ := except_bind_ok.mp h
  cases h
  rfl

theorem preflightEntry_ok {p p' : Preflight} {index : Nat} {entry : Option ZipEntry}
    (h : preflightEntry u limits source p index entry = .ok p') :
    ∃ e plan, entry = some e ∧ Admitted limits source e ∧ Planned index e plan ∧
      p'.plans = p.plans ++ [plan] ∧ p'.ranges = p.ranges ++ [e.range] ∧
      p'.total = p.total + e.size ∧ p'.total ≤ limits.maxTotalUncompressedBytes := by
  unfold preflightEntry at h
  obtain ⟨e, hentry, h⟩ := except_bind_ok.mp h
  obtain ⟨_, _, h⟩ := except_bind_ok.mp h
  obtain ⟨_, _, h⟩ := except_bind_ok.mp h
  obtain ⟨_, _, h⟩ := except_bind_ok.mp h
  obtain ⟨_, _, h⟩ := except_bind_ok.mp h
  obtain ⟨_, _, h⟩ := except_bind_ok.mp h
  obtain ⟨_, _, h⟩ := except_bind_ok.mp h
  obtain ⟨total, htotal, h⟩ := except_bind_ok.mp h
  obtain ⟨_, hmax, h⟩ := except_bind_ok.mp h
  obtain ⟨_, hratio, h⟩ := except_bind_ok.mp h
  obtain ⟨path, hpath, h⟩ := except_bind_ok.mp h
  obtain ⟨paths, _, h⟩ := except_bind_ok.mp h
  obtain ⟨kind, hkind, h⟩ := except_bind_ok.mp h
  obtain ⟨_, hdir, h⟩ := except_bind_ok.mp h
  obtain ⟨start, hstart, h⟩ := except_bind_ok.mp h
  obtain ⟨stop, hstop, h⟩ := except_bind_ok.mp h
  obtain ⟨_, hplace, h⟩ := except_bind_ok.mp h
  obtain ⟨_, _, h⟩ := except_bind_ok.mp h
  cases h
  have hend : stop = e.dataEnd := by
    rw [checkedAdd_ok hstop, ZipEntry.dataEnd, required_ok.mp hstart, Option.getD_some]
  obtain ⟨hheader, -, hinside⟩ := check_ok.mp hplace
  have hbegin : start ≤ stop := by
    rw [checkedAdd_ok hstop]
    exact Nat.le_add_right _ _
  refine ⟨e, _, required_ok.mp hentry, ?_, ⟨rfl, rfl, ?_⟩, rfl, ?_, checkedAdd_ok htotal,
    check_ok.mp hmax⟩
  · refine ⟨?_, ?_, ?_, le_of_not_ratioExceeded (check_ok.mp hratio), fun hd => ?_⟩
    · omega
    · omega
    · have := checkedAdd_ok hstop
      simp only [extent, ZipEntry.range]
      omega
    · by_contra hsize
      exact check_ok.mp hdir ⟨hd, hsize⟩
  · rw [← validatePath_isDirectory hpath]
    exact classifyEntry_directory hkind
  · rw [hend]
    rfl

/-- The plans of a list of entries, the first of which has the index `n`. -/
inductive PlannedFrom : Nat → List ZipEntry → List EntryPlan → Prop
  | nil {n : Nat} : PlannedFrom n [] []
  | cons {n : Nat} {e : ZipEntry} {plan : EntryPlan} {es : List ZipEntry} {plans : List EntryPlan} :
      Planned n e plan → PlannedFrom (n + 1) es plans → PlannedFrom n (e :: es) (plan :: plans)

theorem preflightEntries_ok {entries : List (Option ZipEntry)} {p p' : Preflight}
    (h : Runs A (preflightEntries u limits temporary source n entries p) w (.ok p') w')
    (hp : p.total ≤ limits.maxTotalUncompressedBytes) :
    ∃ es plans, entries = es.map some ∧ (∀ e ∈ es, Admitted limits source e) ∧
      PlannedFrom n es plans ∧ p'.plans = p.plans ++ plans ∧
      p'.ranges = p.ranges ++ es.map ZipEntry.range ∧
      p'.total = p.total + (es.map ZipEntry.size).sum ∧
      p'.total ≤ limits.maxTotalUncompressedBytes := by
  induction entries generalizing n p w with
  | nil =>
    obtain ⟨hr, -⟩ := runs_pure h
    cases hr
    exact ⟨[], [], rfl, by simp, .nil, by simp, by simp, by simp, hp⟩
  | cons entry rest ih =>
    obtain ⟨_, w₁, -, h₁⟩ := runs_bind_ok h
    obtain ⟨_, w₂, -, h₂⟩ := runs_bind_ok h₁
    obtain ⟨p₁, w₃, hentry, hrest⟩ := runs_bind_ok h₂
    obtain ⟨e, plan, rfl, hadm, hplan, hplans, hranges, htotal, hmax⟩ :=
      preflightEntry_ok (runs_ofExcept hentry).1.symm
    obtain ⟨es, plans, rfl, hadms, hplanned, hplans', hranges', htotal', hmax'⟩ := ih hrest hmax
    refine ⟨e :: es, plan :: plans, rfl, ?_, .cons hplan hplanned, ?_, ?_, ?_, hmax'⟩
    · exact List.forall_mem_cons.mpr ⟨hadm, hadms⟩
    · rw [hplans', hplans, List.append_assoc, List.singleton_append]
    · rw [hranges', hranges, List.append_assoc, List.singleton_append, List.map_cons]
    · rw [htotal', htotal, List.map_cons, List.sum_cons, Nat.add_assoc]

/-- An archive that has passed the preflight. -/
structure Preflighted (limits : ImportLimits) (source : Bytes) (archive : ZipArchive)
    (entries : List ZipEntry) (plans : List EntryPlan) : Prop where
  exposed : archive.entries = entries.map some
  admitted : ∀ e ∈ entries, Admitted limits source e
  planned : PlannedFrom 0 entries plans
  separated : Separated ((entries.map ZipEntry.range).insertionSort before)
  total : (entries.map ZipEntry.size).sum ≤ limits.maxTotalUncompressedBytes

theorem preflightZip_ok {zip : ZipCrate}
    (h : Runs A (preflightZip u zip limits temporary source) w (.ok plans) w') :
    (∃ record, locateCentral limits source = .ok record) ∧
      ∃ archive entries, zip source = some archive ∧
        Preflighted limits source archive entries plans := by
  obtain ⟨_, w₁, -, h⟩ := runs_bind_ok h
  obtain ⟨count, w₂, hcentral, h⟩ := runs_bind_ok h
  obtain ⟨_, w₃, -, h⟩ := runs_bind_ok h
  obtain ⟨archive, w₄, hzip, h⟩ := runs_bind_ok h
  obtain ⟨_, w₅, -, h⟩ := runs_bind_ok h
  obtain ⟨p, w₆, hentries, h⟩ := runs_bind_ok h
  have hfinish := (runs_ofExcept h).1.symm
  obtain ⟨record, hrecord, -⟩ := except_bind_ok.mp (runs_ofExcept hcentral).1.symm
  obtain ⟨es, plans', hes, hadm, hplanned, hplans, hranges, htotal, hmax⟩ :=
    preflightEntries_ok hentries (Nat.zero_le _)
  obtain ⟨_, _, hfinish⟩ := except_bind_ok.mp hfinish
  obtain ⟨_, hsep, hfinish⟩ := except_bind_ok.mp hfinish
  obtain ⟨total, _, hfinish⟩ := except_bind_ok.mp hfinish
  obtain ⟨_, _, hfinish⟩ := except_bind_ok.mp hfinish
  cases hfinish
  refine ⟨⟨record, hrecord⟩, archive, es, required_ok.mp (runs_ofExcept hzip).1.symm,
    hes, hadm, ?_, ?_, ?_⟩
  · rw [hplans]
    exact hplanned
  · have := check_ok.mp hsep
    rwa [hranges] at this
  · simpa [htotal, Preflight.start] using hmax

/-! ## The extraction -/

theorem Streamed.add_ok {declared : Nat} {st' : Streamed} {chunk : Bytes}
    (h : st.add limits declared chunk = .ok st') :
    st'.entryActual = st.entryActual + chunk.length ∧
      st'.totalActual = st.totalActual + chunk.length := by
  obtain ⟨entryActual, hentry, h⟩ := except_bind_ok.mp h
  obtain ⟨_, _, h⟩ := except_bind_ok.mp h
  obtain ⟨totalActual, htotal, h⟩ := except_bind_ok.mp h
  obtain ⟨_, _, h⟩ := except_bind_ok.mp h
  cases h
  exact ⟨checkedAdd_ok hentry, checkedAdd_ok htotal⟩

theorem streamReads_ok {declared : Nat}
    {output : Bool} {reads : List (Option Bytes)} {st' : Streamed}
    (h : Runs A (streamReads limits temporary declared output reads st) w (.ok st') w') :
    st'.entryActual = st.entryActual + (delivered reads).length ∧
      st'.totalActual = st.totalActual + (delivered reads).length := by
  induction reads generalizing st w with
  | nil =>
    obtain ⟨_, w₁, -, h⟩ := runs_bind_ok h
    obtain ⟨hr, -⟩ := runs_pure h
    cases hr
    exact ⟨rfl, rfl⟩
  | cons read rest ih =>
    cases read with
    | none =>
      obtain ⟨_, w₁, -, h⟩ := runs_bind_ok h
      obtain ⟨hr, -⟩ := runs_fail h
      cases hr
    | some chunk =>
      obtain ⟨_, w₁, -, h⟩ := runs_bind_ok h
      simp only [delivered]
      split at h
      next hend =>
        obtain ⟨hr, -⟩ := runs_pure h
        cases hr
        simp [hend]
      next hmore =>
        obtain ⟨st₁, w₂, hadd, h⟩ := runs_bind_ok h
        obtain ⟨_, w₃, -, h⟩ := runs_bind_ok h
        obtain ⟨hentry, htotal⟩ := Streamed.add_ok (runs_ofExcept hadd).1.symm
        obtain ⟨hentry', htotal'⟩ := ih h
        rw [if_neg hmore, List.length_append]
        omega

theorem streamPlan_ok {service : ImportService} {output : Bool} {total : Nat}
    (h : Runs A (streamPlan service temporary archive plan output total) w (.ok st) w') :
    (∃ reads, archive.readsAt plan.index = some reads ∧ (delivered reads).length = plan.bytes) ∧
      st.totalActual = total + plan.bytes := by
  obtain ⟨_, w₁, -, h⟩ := runs_bind_ok h
  obtain ⟨reads, w₂, hreads, h⟩ := runs_bind_ok h
  unfold streamEntry at h
  obtain ⟨_, w₃, -, h⟩ := runs_bind_ok h
  obtain ⟨st', w₄, hstream, h⟩ := runs_bind_ok h
  obtain ⟨_, w₅, hsize, h⟩ := runs_bind_ok h
  obtain ⟨_, w₆, -, h⟩ := runs_bind_ok h
  obtain ⟨hr, -⟩ := runs_pure h
  cases hr
  obtain ⟨hentry, htotal⟩ := streamReads_ok hstream
  have hdeclared := check_ok.mp (runs_ofExcept hsize).1.symm
  rw [hdeclared, Nat.zero_add] at hentry
  exact ⟨⟨reads, required_ok.mp (runs_ofExcept hreads).1.symm, hentry.symm⟩, htotal.trans (by rw [hentry])⟩

theorem extractEntry_ok {service : ImportService} {x x' : Extraction}
    (h : Runs A (extractEntry service temporary archive plan x) w (.ok x') w') :
    plan.kind = .directory ∧ x' = x ∨
      plan.kind ≠ .directory ∧ x'.totalActual = x.totalActual + plan.bytes ∧
        ∃ reads, archive.readsAt plan.index = some reads ∧ (delivered reads).length = plan.bytes := by
  obtain ⟨_, w₁, -, h⟩ := runs_bind_ok h
  cases hkind : plan.kind with
  | directory =>
    rw [hkind] at h
    obtain ⟨hr, -⟩ := runs_pure h
    cases hr
    exact .inl ⟨rfl, rfl⟩
  | asset mime =>
    rw [hkind] at h
    obtain ⟨st, w₂, hstream, h⟩ := runs_bind_ok h
    obtain ⟨_, w₃, -, h⟩ := runs_bind_ok h
    obtain ⟨found, w₄, -, h⟩ := runs_bind_ok h
    obtain ⟨hr, -⟩ := runs_pure h
    cases hr
    obtain ⟨hreads, htotal⟩ := streamPlan_ok hstream
    exact .inr ⟨by simp, htotal, hreads⟩
  | metadata =>
    rw [hkind] at h
    obtain ⟨st, w₂, hstream, h⟩ := runs_bind_ok h
    obtain ⟨_, w₃, -, h⟩ := runs_bind_ok h
    obtain ⟨hr, -⟩ := runs_pure h
    cases hr
    obtain ⟨hreads, htotal⟩ := streamPlan_ok hstream
    exact .inr ⟨by simp, htotal, hreads⟩
  | executable language =>
    rw [hkind] at h
    obtain ⟨st, w₂, hstream, h⟩ := runs_bind_ok h
    obtain ⟨hr, -⟩ := runs_pure h
    cases hr
    obtain ⟨hreads, htotal⟩ := streamPlan_ok hstream
    exact .inr ⟨by simp, htotal, hreads⟩

theorem streamed_eq {e : ZipEntry} (hadm : Admitted limits source e) (hplan : Planned n e plan)
    (hentry : archive.entries[n]? = some (some e))
    (hread : plan.kind ≠ .directory →
      ∃ reads, archive.readsAt plan.index = some reads ∧ (delivered reads).length = plan.bytes) :
    e.streamed = e.size := by
  unfold ZipEntry.streamed
  split
  next hdir => exact (hadm.directory hdir).symm
  next hfile =>
    obtain ⟨reads, hreads, hlength⟩ := hread fun hkind => hfile (hplan.kind_iff.mp hkind)
    have hopened : e.reads = some reads := by
      simpa [ZipArchive.readsAt, hplan.index_eq, hentry] using hreads
    rw [hopened, Option.map_some, Option.getD_some, hlength, hplan.bytes_eq]

theorem extractEntries_ok {service : ImportService} {es : List ZipEntry} {x x' : Extraction}
    (h : Runs A (extractEntries service temporary archive plans x) w (.ok x') w')
    (hplanned : PlannedFrom n es plans) (hadm : ∀ e ∈ es, Admitted service.limits source e)
    (hentries : ∀ j e, es[j]? = some e → archive.entries[n + j]? = some (some e)) :
    x'.totalActual = x.totalActual + (es.map ZipEntry.size).sum ∧
      (es.map ZipEntry.streamed).sum = (es.map ZipEntry.size).sum := by
  induction hplanned generalizing x w with
  | nil =>
    obtain ⟨hr, -⟩ := runs_pure h
    cases hr
    exact ⟨rfl, rfl⟩
  | @cons n e plan es plans hplan _ ih =>
    obtain ⟨x₁, w₁, hentry, h⟩ := runs_bind_ok h
    obtain ⟨he, hes⟩ := List.forall_mem_cons.mp hadm
    obtain ⟨htotal', hsum⟩ := ih h hes fun j e' hj => by
      have := hentries (j + 1) e' (by simpa using hj)
      rwa [Nat.add_assoc, Nat.add_comm 1 j]
    have hhere : archive.entries[n]? = some (some e) := hentries 0 e rfl
    have hround := extractEntry_ok hentry
    have hstreamed : e.streamed = e.size := by
      refine streamed_eq he hplan hhere fun hkind => ?_
      obtain ⟨hd, -⟩ | ⟨-, -, hreads⟩ := hround
      · exact absurd hd hkind
      · exact hreads
    have htotal : x₁.totalActual = x.totalActual + e.size := by
      obtain ⟨hd, rfl⟩ | ⟨-, htotal, -⟩ := hround
      · rw [he.directory (hplan.kind_iff.mp hd), Nat.add_zero]
      · rw [htotal, hplan.bytes_eq]
    simp only [List.map_cons, List.sum_cons]
    omega

/-! ## The result -/

/-- Disjoint entries are together no longer than the file, and each expands at most by the
ratio. -/
theorem Preflighted.ratio {entries : List ZipEntry}
    (h : Preflighted limits source archive entries plans) :
    (entries.map ZipEntry.size).sum ≤ limits.maxCompressionRatio * source.length := by
  have hlength : ((entries.map ZipEntry.range).map extent).sum ≤ source.length := by
    refine sum_extent_le (fun r hr => ?_) h.separated
    obtain ⟨e, he, rfl⟩ := List.mem_map.mp hr
    exact ⟨(h.admitted e he).ordered, (h.admitted e he).inside⟩
  have hsize : ∀ e ∈ entries,
      e.size ≤ limits.maxCompressionRatio * extent e.range := fun e he =>
    calc e.size ≤ e.compressedSize * limits.maxCompressionRatio := (h.admitted e he).ratio
      _ ≤ extent e.range * limits.maxCompressionRatio :=
        Nat.mul_le_mul_right _ (h.admitted e he).covered
      _ = limits.maxCompressionRatio * extent e.range := Nat.mul_comm _ _
  calc (entries.map ZipEntry.size).sum
      ≤ (entries.map fun e => limits.maxCompressionRatio * extent e.range).sum :=
        List.sum_le_sum hsize
    _ = limits.maxCompressionRatio * ((entries.map ZipEntry.range).map extent).sum := by
        rw [List.sum_map_mul_left, List.map_map]
        rfl
    _ ≤ limits.maxCompressionRatio * source.length := Nat.mul_le_mul_left _ hlength

/-- Of everything an archive that is accepted should satisfy, only the place of the data
before the central directory can be missing. -/
theorem zip_bomb_bounded_iff {service : ImportService} {task : Nat} {temporary owner : AssetOwner}
    {source : CopiedSource} {A : World → Input → Prop} {w w' : World} {receipt : ImportReceipt}
    (h : Runs A (importZip service task temporary owner source) w (.ok receipt) w') :
    ∃ archive entries record, service.env.zip source.content = some archive ∧
      archive.entries = entries.map some ∧
      locateCentral service.limits source.content = .ok record ∧
      (Bounded service.limits source.content record.centralOffset entries ↔
        ∀ e ∈ entries, e.dataEnd ≤ record.centralOffset) := by
  obtain ⟨x, w₁, hextract, -⟩ := runs_bind_ok h
  obtain ⟨plans, w₂, hpre, hextract⟩ := runs_bind_ok hextract
  obtain ⟨_, w₃, -, hextract⟩ := runs_bind_ok hextract
  obtain ⟨_, w₄, -, hextract⟩ := runs_bind_ok hextract
  obtain ⟨archive', w₅, hzip', hextract⟩ := runs_bind_ok hextract
  obtain ⟨⟨record, hrecord⟩, archive, entries, hzip, hpre⟩ := preflightZip_ok hpre
  -- the archive is opened a second time, and is the same
  obtain rfl : archive = archive' := by
    have := required_ok.mp (runs_ofExcept hzip').1.symm
    exact Option.some.inj (hzip.symm.trans this)
  have hstreamed := (extractEntries_ok hextract hpre.planned hpre.admitted fun j e hj => by
    simp [hpre.exposed, hj]).2
  refine ⟨archive, entries, record, hzip, hpre.exposed, hrecord, fun hb => hb.beforeDirectory,
    fun hbefore => ⟨?_, hbefore, hstreamed, ?_, ?_⟩⟩
  · refine disjoint_of_sorted (fun r hr => ?_) hpre.separated
    obtain ⟨e, he, rfl⟩ := List.mem_map.mp hr
    exact (hpre.admitted e he).ordered
  · rw [hstreamed]
    exact hpre.total
  · rw [hstreamed]
    exact hpre.ratio

/-! ## An archive whose data runs over its directory -/

namespace Sample

/-- `n` in `width` bytes, the lowest first. -/
def le (width n : Nat) : Bytes := (List.range width).map fun k => UInt8.ofNat (n / 256 ^ k)

def crcBit (c : UInt32) : UInt32 := if c &&& 1 = 1 then (c >>> 1) ^^^ 0xedb88320 else c >>> 1

def crcByte (c : UInt32) (b : UInt8) : UInt32 := Nat.repeat crcBit 8 (c ^^^ b.toUInt32)

def crc32 (data : Bytes) : UInt32 := data.foldl crcByte 0xffffffff ^^^ 0xffffffff

def localRecord (name : String) (data : Bytes) : Bytes :=
  let raw := name.toList.map fun c => UInt8.ofNat c.toNat
  localSignature ++ le 2 20 ++ le 2 0 ++ le 2 0 ++ le 4 0 ++ le 4 (crc32 data).toNat ++
    le 4 data.length ++ le 4 data.length ++ le 2 raw.length ++ le 2 0 ++ raw

def centralRecord (name : String) (data : Bytes) (offset : Nat) : Bytes :=
  let raw := name.toList.map fun c => UInt8.ofNat c.toNat
  centralSignature ++ le 2 20 ++ le 2 20 ++ le 2 0 ++ le 2 0 ++ le 4 0 ++
    le 4 (crc32 data).toNat ++ le 4 data.length ++ le 4 data.length ++ le 2 raw.length ++
    le 2 0 ++ le 2 0 ++ le 2 0 ++ le 2 0 ++ le 4 0 ++ le 4 offset ++ raw

def endRecord (count size offset : Nat) : Bytes :=
  eocdSignature ++ le 2 0 ++ le 2 0 ++ le 2 count ++ le 2 count ++ le 4 size ++ le 4 offset ++ le 2 0

/-- The file at a central header, as a reader of stored files presents it. The header and
the start of the data must lie before the directory; a wrong checksum is an error of the
reader. -/
def entryAt (source : Bytes) (directory position : Nat) : Option ZipEntry :=
  let fixed := source.drop position
  let header := (leU32 fixed 42).toNat
  let start := header + 30 + (leU16 (source.drop header) 26).toNat +
    (leU16 (source.drop header) 28).toNat
  let data := (source.drop start).take (leU32 fixed 20).toNat
  let name := (fixed.drop 46).take (leU16 fixed 28).toNat
  if header < directory ∧ start ≤ directory then
    some {
      encrypted := decide (leU16 fixed 8 &&& 1 ≠ 0)
      compression := if leU16 fixed 10 = 0 then .stored else .unsupported
      isDir := decide (name.getLast? = some 0x2f)
      isSymlink := false
      unixMode := none
      extraData := some ((fixed.drop (46 + name.length)).take (leU16 fixed 30).toNat)
      size := (leU32 fixed 24).toNat
      compressedSize := (leU32 fixed 20).toNat
      crc32 := leU32 fixed 16
      nameRaw := name
      headerStart := header
      dataStart := some start
      centralHeaderStart := position
      reads := some (if crc32 data = leU32 fixed 16 then [some data] else [none]) }
  else none

def entriesFrom (source : Bytes) (directory : Nat) : Nat → Nat → List (Option ZipEntry)
  | 0, _ => []
  | n + 1, position =>
    let fixed := source.drop position
    entryAt source directory position :: entriesFrom source directory n
      (position + 46 + (leU16 fixed 28).toNat + (leU16 fixed 30).toNat + (leU16 fixed 32).toNat)

/-- A reader of archives of stored files that end without a comment. -/
def storedZip : ZipCrate := fun source =>
  let eocd := source.drop (source.length - eocdBytes)
  let directory := (leU32 eocd 16).toNat
  let entries := entriesFrom source directory (leU16 eocd 10).toNat directory
  some ⟨entries, some (entries.map fun e => (e.map ZipEntry.size).getD 0).sum⟩

def service : ImportService where
  assets := Assets.Sample.store
  limits := .default
  env := {
    unicode := ⟨id, fun c => [c.toUpper], fun c => [c.toLower]⟩
    zip := storedZip
    validatePng := fun _ _ _ => .ok []
    validJson := fun _ => true }
  valid := ImportLimits.default_valid

def session : AssetOwner := ⟨importTemporaryOwnerType, "session"⟩

def owner : AssetOwner := ⟨"character", "one"⟩

/-- A root without objects, with the session of the import. -/
def world : World where
  assets := ⟨Assets.Sample.files, { Catalog.empty with temporarySessions := [⟨session, 0, 0⟩] }, none⟩
  staging := []
  leaseLost := false

def imported (archive : Bytes) : ImportOp ImportReceipt :=
  importZip service 0 session owner ⟨archive, ""⟩

def honest : Bytes :=
  localRecord "a.lua" [] ++ localRecord "b.lua" [0x2d] ++ [0x2d] ++ centralRecord "a.lua" [] 0 ++
    centralRecord "b.lua" [0x2d] 35 ++ endRecord 2 102 71

def overlappingData : Bytes := 0x2d :: centralRecord "a.lua" [] 0

/-- The same bytes up to the directory, with a second file that goes on into it. -/
def overlapping : Bytes :=
  localRecord "a.lua" [] ++ localRecord "b.lua" overlappingData ++ overlappingData ++
    centralRecord "b.lua" overlappingData 35 ++ endRecord 2 102 71

def steps : List Input := List.replicate 40 {}

variable {archive : Bytes}

theorem accepted_of_ended
    (h : ((runOn steps (imported archive) world).1.ended.bind (·.toOption)).isSome = true) :
    ∃ receipt w, Runs (fun _ _ => True) (imported archive) world (.ok receipt) w := by
  obtain ⟨receipt, hr⟩ := Option.isSome_iff_exists.mp h
  obtain ⟨r, hended, hr⟩ := Option.bind_eq_some_iff.mp hr
  cases r with
  | error e => cases hr
  | ok receipt => exact ⟨receipt, _, runs_runOn steps (fun _ _ _ => trivial) hended⟩

theorem dataEnds_eq {opened : ZipArchive} {entries : List ZipEntry} {ends : List Nat}
    (h : (storedZip archive).map (fun a => a.entries.map (Option.map ZipEntry.dataEnd)) =
      some (ends.map some))
    (hzip : storedZip archive = some opened) (hentries : opened.entries = entries.map some) :
    entries.map ZipEntry.dataEnd = ends := by
  rw [hzip, Option.map_some, hentries, List.map_map] at h
  have hsome : (entries.map ZipEntry.dataEnd).map some = ends.map some := by
    rw [List.map_map]
    exact Option.some.inj h
  exact List.map_injective_iff.mpr (Option.some_injective _) hsome

theorem centralOffset_eq {record : EndRecord} {offset : Nat}
    (h : (locateCentral .default archive).map (·.centralOffset) = .ok offset)
    (hrecord : locateCentral .default archive = .ok record) : record.centralOffset = offset := by
  rw [hrecord] at h
  exact Except.ok.inj h

end Sample

open Sample in
/-- The service accepts an archive in which the data of the second file covers the central
header of the first: it ends at 122, and the directory starts at 71. -/
theorem central_directory_overlapped :
    (∃ receipt w, Runs (fun _ _ => True) (imported overlapping) world (.ok receipt) w) ∧
      ¬ ∃ archive entries record, storedZip overlapping = some archive ∧
        archive.entries = entries.map some ∧
        locateCentral .default overlapping = .ok record ∧
        Bounded .default overlapping record.centralOffset entries := by
  refine ⟨accepted_of_ended (by decide +kernel), ?_⟩
  rintro ⟨archive, entries, record, hzip, hentries, hrecord, hb⟩
  have hends : entries.map ZipEntry.dataEnd = [35, 122] :=
    dataEnds_eq (by decide +kernel) hzip hentries
  have hoffset : record.centralOffset = 71 := centralOffset_eq (by decide +kernel) hrecord
  obtain ⟨e, he, hend⟩ : ∃ e ∈ entries, e.dataEnd = 122 := by
    simpa using (by simp [hends] : 122 ∈ entries.map ZipEntry.dataEnd)
  have := hb.beforeDirectory e he
  omega

open Sample in
theorem zip_bomb_bounded_honest :
    ∃ archive entries record, storedZip honest = some archive ∧
      archive.entries = entries.map some ∧ locateCentral .default honest = .ok record ∧
      Bounded .default honest record.centralOffset entries := by
  obtain ⟨receipt, w, hrun⟩ : ∃ receipt w,
      Runs (fun _ _ => True) (imported honest) world (.ok receipt) w :=
    accepted_of_ended (by decide +kernel)
  obtain ⟨archive, entries, record, hzip, hentries, hrecord, hiff⟩ := zip_bomb_bounded_iff hrun
  simp only [service] at hzip hrecord hiff
  have hends : entries.map ZipEntry.dataEnd = [35, 71] :=
    dataEnds_eq (by decide +kernel) hzip hentries
  have hoffset : record.centralOffset = 71 := centralOffset_eq (by decide +kernel) hrecord
  refine ⟨archive, entries, record, hzip, hentries, hrecord, hiff.mpr fun e he => ?_⟩
  have hmem : e.dataEnd ∈ entries.map ZipEntry.dataEnd := List.mem_map_of_mem he
  rw [hends] at hmem
  simp only [List.mem_cons, List.not_mem_nil, or_false] at hmem
  omega

end Lorepia.Import
