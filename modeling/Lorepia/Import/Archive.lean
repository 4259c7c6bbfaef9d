import Lorepia.Lib.Extents
import Lorepia.Import.Paths

/-!
# Preflight of a ZIP archive (`service.rs`, 447–855)

Two passes look at an archive before anything is decompressed. `preflight_zip_central` reads
the central directory itself. `preflight_zip` takes each entry as the `zip` crate presents it,
compares it with its local header in the file, and checks sizes, ratios, paths and that the
ranges of the local entries do not overlap.

The crate is a parameter: any function from a file to the entries it exposes, with what
reading each of them returns. Nothing is assumed of it here.
-/

namespace Lorepia.Import

open Proc Assets Extents

/-! ## Bytes -/

def byteOf (b : Bytes) (i : Nat) : UInt8 := b.getD i 0

def leU16 (b : Bytes) (i : Nat) : UInt16 :=
  (byteOf b i).toUInt16 ||| ((byteOf b (i + 1)).toUInt16 <<< 8)

def leU32 (b : Bytes) (i : Nat) : UInt32 :=
  (leU16 b i).toUInt32 ||| ((leU16 b (i + 2)).toUInt32 <<< 16)

/-- `read_exact` of `n` bytes from a position of the file. -/
def readExact (source : Bytes) (position n : Nat) : Except ImportError Bytes :=
  if position + n ≤ source.length then .ok ((source.drop position).take n) else .error malformed

def localSignature : Bytes := [0x50, 0x4b, 0x03, 0x04]
def centralSignature : Bytes := [0x50, 0x4b, 0x01, 0x02]
def eocdSignature : Bytes := [0x50, 0x4b, 0x05, 0x06]

def eocdBytes : Nat := 22
def centralBytes : Nat := 46

def encryptedFlag : UInt16 := 0x0001
def deflateOptionsFlag : UInt16 := 0x0002 ||| 0x0004
def dataDescriptorFlag : UInt16 := 0x0008
def strongEncryptionFlag : UInt16 := 0x0040
def utf8Flag : UInt16 := 0x0800
def centralDirectoryEncryptionFlag : UInt16 := 0x2000

/-! ## Kinds of entries -/

inductive EntryKind where
  | directory
  | asset (mime : AssetMime)
  | metadata
  | executable (language : ExecutableLanguage)
  deriving DecidableEq

def extension (logical : String) : Option String :=
  if '.' ∈ logical.toList then
    some (String.ofList ((logical.toList.reverse.takeWhile (· ≠ '.')).reverse.map Char.toLower))
  else none

def classifyEntry (path : PortablePath) : Except ImportError EntryKind :=
  if path.isDirectory then .ok .directory
  else
    match extension path.logical with
    | some "png" => .ok (.asset .png)
    | some "jpg" | some "jpeg" => .ok (.asset .jpeg)
    | some "webp" => .ok (.asset .webP)
    | some "gif" => .ok (.asset .gif)
    | some "wav" => .ok (.asset .wav)
    | some "mp3" => .ok (.asset .mp3)
    | some "ogg" => .ok (.asset .ogg)
    | some "flac" => .ok (.asset .flac)
    | some "json" => .ok .metadata
    | some "js" | some "mjs" | some "cjs" => .ok (.executable .javaScript)
    | some "lua" => .ok (.executable .lua)
    | some "wasm" => .ok (.executable .webAssembly)
    | _ => .error (.new .unsupportedFileType)

theorem classifyEntry_directory {path : PortablePath} {kind : EntryKind}
    (h : classifyEntry path = .ok kind) : kind = .directory ↔ path.isDirectory = true := by
  unfold classifyEntry at h
  split at h
  next hdir =>
    cases h
    simp [hdir]
  next hdir =>
    split at h <;> cases h <;> simp [hdir]

def ratioExceeded (uncompressed compressed ratio : Nat) : Bool :=
  if uncompressed = 0 then false
  else if compressed = 0 then true
  else decide (min maxUnsigned (compressed * ratio) < uncompressed)

theorem le_of_not_ratioExceeded {uncompressed compressed ratio : Nat}
    (h : ratioExceeded uncompressed compressed ratio = false) : uncompressed ≤ compressed * ratio := by
  unfold ratioExceeded at h
  split at h
  · omega
  · split at h
    · cases h
    · have := of_decide_eq_false h
      omega

/-! ## The central directory -/

def validateZipFlags (flags method : UInt16) : Except ImportError Unit := do
  check (flags &&& (encryptedFlag ||| strongEncryptionFlag ||| centralDirectoryEncryptionFlag) = 0)
    .unsafeEntryType
  check (flags &&& dataDescriptorFlag = 0 ∧ flags &&& ~~~(deflateOptionsFlag ||| utf8Flag) = 0 ∧
    ¬(method = 0 ∧ flags &&& deflateOptionsFlag ≠ 0)) .archiveMalformed
  check (method = 0 ∨ method = 8) .unsupportedCompression

/-- The fields of an extra block, none of which may be Zip64's. A field takes at least four
bytes, so there are no more of them than `fuel`, the length of the block. -/
def rejectZip64Fields : Nat → Bytes → Except ImportError Unit
  | 0, _ => .ok ()
  | fuel + 1, extra =>
    if extra = [] then .ok ()
    else do
      check (4 ≤ extra.length) .archiveMalformed
      let next := 4 + (leU16 extra 2).toNat
      check (leU16 extra 0 ≠ 1 ∧ next ≤ extra.length) .archiveMalformed
      rejectZip64Fields fuel (extra.drop next)

def rejectZip64Extra (extra : Option Bytes) : Except ImportError Unit :=
  checkSome (fun extra => rejectZip64Fields extra.length extra) extra

/-- The record at the end of the archive, as far as it is used. -/
structure EndRecord where
  entryCount : Nat
  centralOffset : Nat
  centralEnd : Nat
  deriving DecidableEq

/-- The last place of the tail where an end record can start. -/
def eocdInTail (tail : Bytes) : Option Nat :=
  (List.range (tail.length - eocdBytes + 1)).reverse.find? fun offset =>
    decide ((tail.drop offset).take 4 = eocdSignature) &&
      decide (offset + eocdBytes + (leU16 tail (offset + 20)).toNat = tail.length)

/-- The first part of `preflight_zip_central`: where the central directory is. -/
def locateCentral (limits : ImportLimits) (source : Bytes) : Except ImportError EndRecord := do
  check (eocdBytes ≤ source.length) .archiveMalformed
  let tailBytes := min source.length (eocdBytes + 65535)
  let tail := source.drop (source.length - tailBytes)
  let inTail ← required malformed (eocdInTail tail)
  let eocdOffset := source.length - tailBytes + inTail
  let eocd := (tail.drop inTail).take eocdBytes
  let entryCount := leU16 eocd 10
  check (leU16 eocd 4 = 0 ∧ leU16 eocd 6 = 0 ∧ leU16 eocd 8 = entryCount ∧ entryCount ≠ 0xffff ∧
    leU32 eocd 12 ≠ 0xffffffff ∧ leU32 eocd 16 ≠ 0xffffffff) .archiveMalformed
  check (entryCount ≠ 0) .unsupportedFileType
  check (entryCount.toNat ≤ limits.maxArchiveEntries) .entryCountLimit
  let centralOffset := (leU32 eocd 16).toNat
  let centralEnd ← checkedAdd centralOffset (leU32 eocd 12).toNat malformed
  check (centralEnd = eocdOffset) .archiveMalformed
  pure ⟨entryCount.toNat, centralOffset, centralEnd⟩

/-- What the loop over the central headers has seen. -/
structure CentralScan where
  position : Nat
  total : Nat
  paths : PathSets
  deriving DecidableEq

/-- One round of the loop of `preflight_zip_central`. -/
def centralHeader (u : Unicode) (limits : ImportLimits) (source : Bytes) (scan : CentralScan) :
    Except ImportError CentralScan := do
  let fixed ← readExact source scan.position centralBytes
  check (fixed.take 4 = centralSignature) .archiveMalformed
  let method := leU16 fixed 10
  validateZipFlags (leU16 fixed 8) method
  let nameBytes := (leU16 fixed 28).toNat
  let extraBytes := (leU16 fixed 30).toNat
  check (leU32 fixed 20 ≠ 0xffffffff ∧ leU32 fixed 24 ≠ 0xffffffff ∧ leU16 fixed 34 = 0 ∧
    leU32 fixed 42 ≠ 0xffffffff ∧ nameBytes ≠ 0 ∧ nameBytes ≤ min maxUnsigned (limits.maxPathBytes + 1) ∧
    extraBytes ≤ limits.maxZipExtraBytes ∧ leU16 fixed 32 = 0) .archiveMalformed
  let compressed := (leU32 fixed 20).toNat
  let uncompressed := (leU32 fixed 24).toNat
  check (¬(method = 0 ∧ compressed ≠ uncompressed)) .archiveMalformed
  check (uncompressed ≤ limits.maxEntryBytes) .entrySizeLimit
  let total ← checkedAdd scan.total uncompressed (.new .totalSizeLimit)
  check (total ≤ limits.maxTotalUncompressedBytes) .totalSizeLimit
  check (ratioExceeded uncompressed compressed limits.maxCompressionRatio = false)
    .compressionRatioLimit
  let name ← readExact source (scan.position + centralBytes) nameBytes
  let extra ← readExact source (scan.position + centralBytes + nameBytes) extraBytes
  rejectZip64Extra (some extra)
  let path ← validatePath u limits name (decide (name.getLast? = some 0x2f))
  let paths ← insertUnique u path scan.paths
  let _ ← classifyEntry path
  pure ⟨scan.position + centralBytes + nameBytes + extraBytes, total, paths⟩

def centralHeaders (u : Unicode) (limits : ImportLimits) (source : Bytes) :
    Nat → CentralScan → Except ImportError CentralScan
  | 0, scan => .ok scan
  | n + 1, scan => do
    let scan ← centralHeader u limits source scan
    centralHeaders u limits source n scan

/-- `preflight_zip_central`; the number of entries. -/
def preflightZipCentral (u : Unicode) (limits : ImportLimits) (source : Bytes) :
    Except ImportError Nat := do
  let record ← locateCentral limits source
  let scan ← centralHeaders u limits source record.entryCount ⟨record.centralOffset, 0, .empty⟩
  check (scan.position = record.centralEnd) .archiveMalformed
  pure record.entryCount

/-! ## The crate -/

inductive CompressionMethod where
  | stored
  | deflated
  | unsupported
  deriving DecidableEq

/-- An entry as the crate presents it: the header fields, and what reading it returns. A read
is a chunk of the decompressed bytes or an error; an empty chunk and the end of the list are
the end of the entry. The reader itself may be refused. -/
structure ZipEntry where
  encrypted : Bool
  compression : CompressionMethod
  isDir : Bool
  isSymlink : Bool
  unixMode : Option UInt32
  extraData : Option Bytes
  size : Nat
  compressedSize : Nat
  crc32 : UInt32
  nameRaw : Bytes
  headerStart : Nat
  dataStart : Option Nat
  centralHeaderStart : Nat
  reads : Option (List (Option Bytes))
  deriving DecidableEq

/-- An opened archive; an entry may be refused. -/
structure ZipArchive where
  entries : List (Option ZipEntry)
  decompressedSize : Option Nat
  deriving DecidableEq

/-- `ZipArchive::new` of the crate. -/
abbrev ZipCrate := Bytes → Option ZipArchive

def portableEntryType (mode : Option UInt32) (isDirectory : Bool) : Bool :=
  match mode with
  | none => true
  | some mode =>
    let fileType := mode &&& 0xf000
    if isDirectory then fileType = 0 || fileType = 0x4000
    else fileType = 0 || fileType = 0x8000

def expectedMethod : CompressionMethod → Except ImportError UInt16
  | .stored => .ok 0
  | .deflated => .ok 8
  | .unsupported => .error (.new .unsupportedCompression)

def validateLocalHeader (limits : ImportLimits) (source : Bytes) (entry : ZipEntry)
    (dataStart : Nat) : Except ImportError Unit := do
  let fixed ← readExact source entry.headerStart 30
  check (fixed.take 4 = localSignature) .archiveMalformed
  let flags := leU16 fixed 6
  check (flags &&& (encryptedFlag ||| dataDescriptorFlag ||| strongEncryptionFlag |||
      centralDirectoryEncryptionFlag) = 0 ∧
    flags &&& ~~~(utf8Flag ||| deflateOptionsFlag) = 0 ∧
    ¬(entry.compression = .stored ∧ flags &&& deflateOptionsFlag ≠ 0)) .archiveMalformed
  let method ← expectedMethod entry.compression
  check (leU16 fixed 8 = method ∧ leU32 fixed 14 = entry.crc32 ∧
    (leU32 fixed 18).toNat = entry.compressedSize ∧ (leU32 fixed 22).toNat = entry.size)
    .archiveMalformed
  let nameBytes := (leU16 fixed 26).toNat
  let extraBytes := (leU16 fixed 28).toNat
  check (nameBytes = entry.nameRaw.length ∧ extraBytes ≤ limits.maxZipExtraBytes) .archiveMalformed
  let name ← readExact source (entry.headerStart + 30) nameBytes
  check (name = entry.nameRaw) .archiveMalformed
  let extra ← readExact source (entry.headerStart + 30 + nameBytes) extraBytes
  rejectZip64Extra (some extra)
  let start ← checkedAdd entry.headerStart 30 malformed
  let start ← checkedAdd start nameBytes malformed
  let start ← checkedAdd start extraBytes malformed
  check (start = dataStart) .archiveMalformed

structure EntryPlan where
  index : Nat
  path : PortablePath
  kind : EntryKind
  bytes : Nat
  deriving DecidableEq

/-- What the loop of `preflight_zip` has seen. -/
structure Preflight where
  plans : List EntryPlan
  paths : PathSets
  total : Nat
  ranges : List Range
  minimumHeader : Nat
  deriving DecidableEq

def Preflight.start : Preflight := ⟨[], .empty, 0, [], maxUnsigned⟩

/-- The checks `preflight_zip` makes of one entry; `none` is one the crate refuses. -/
def preflightEntry (u : Unicode) (limits : ImportLimits) (source : Bytes) (p : Preflight)
    (index : Nat) (entry : Option ZipEntry) : Except ImportError Preflight := do
  let entry ← required malformed entry
  check (entry.encrypted = false) .unsafeEntryType
  check (entry.compression = .stored ∨ entry.compression = .deflated) .unsupportedCompression
  check (entry.isSymlink = false ∧ portableEntryType entry.unixMode entry.isDir = true)
    .unsafeEntryType
  rejectZip64Extra entry.extraData
  check (entry.size ≠ 0xffffffff ∧ entry.compressedSize ≠ 0xffffffff) .archiveMalformed
  check (entry.size ≤ limits.maxEntryBytes) .entrySizeLimit
  let total ← checkedAdd p.total entry.size (.new .totalSizeLimit)
  check (total ≤ limits.maxTotalUncompressedBytes) .totalSizeLimit
  check (ratioExceeded entry.size entry.compressedSize limits.maxCompressionRatio = false)
    .compressionRatioLimit
  let path ← validatePath u limits entry.nameRaw entry.isDir
  let paths ← insertUnique u path p.paths
  let kind ← classifyEntry path
  check (¬(entry.isDir = true ∧ entry.size ≠ 0)) .unsafeEntryType
  let dataStart ← required malformed entry.dataStart
  let dataEnd ← checkedAdd dataStart entry.compressedSize malformed
  check (entry.headerStart ≤ dataStart ∧ dataEnd ≤ entry.centralHeaderStart ∧
    dataEnd ≤ source.length) .archiveMalformed
  validateLocalHeader limits source entry dataStart
  pure {
    plans := p.plans ++ [⟨index, path, kind, entry.size⟩]
    paths := paths
    total := total
    ranges := p.ranges ++ [(entry.headerStart, dataEnd)]
    minimumHeader := min p.minimumHeader entry.headerStart }

/-- What `preflight_zip` checks after its loop. -/
def finishPreflight (archive : ZipArchive) (p : Preflight) :
    Except ImportError (List EntryPlan) := do
  check (¬(p.plans ≠ [] ∧ p.minimumHeader ≠ 0)) .archiveMalformed
  check (Separated (p.ranges.insertionSort before)) .archiveMalformed
  let total ← required malformed archive.decompressedSize
  check (total = p.total) .archiveMalformed
  pure p.plans

/-- The loop of `preflight_zip`. -/
def preflightEntries (u : Unicode) (limits : ImportLimits) (temporary : AssetOwner)
    (source : Bytes) : Nat → List (Option ZipEntry) → Preflight → ImportOp Preflight
  | _, [], p => pure p
  | index, entry :: rest, p => do
    heedCancel temporary
    access .archiveMalformed
    let p ← ofExcept (preflightEntry u limits source p index entry)
    preflightEntries u limits temporary source (index + 1) rest p

def preflightZip (u : Unicode) (zip : ZipCrate) (limits : ImportLimits) (temporary : AssetOwner)
    (source : Bytes) : ImportOp (List EntryPlan) := do
  access .archiveMalformed
  let count ← ofExcept (preflightZipCentral u limits source)
  access .archiveMalformed
  let archive ← ofExcept (required malformed (zip source))
  ofExcept (check (archive.entries.length = count) .archiveMalformed)
  let p ← preflightEntries u limits temporary source 0 archive.entries .start
  ofExcept (finishPreflight archive p)

end Lorepia.Import
