import Lorepia.Lib.Within
import Lorepia.Assets.Store

/-!
# Imports: data, limits and steps (`model.rs`, `error.rs`)

An import copies a stream into a directory of its own under the staging root, checks it
there, and hands the files it accepts to the asset store under a temporary owner; the last
step turns the temporary owner's references into the final owner's.

The state of an import is the root of the asset store, the directories under the staging
root, and the flag that a heartbeat found the lease of the temporary owner lost. The files
of a staging directory are written and read by one import only, so their contents are passed
along as values; each access is still a step that may fail.
-/

namespace Lorepia.Import

open Proc Assets

/-! ## Errors -/

inductive ImportErrorCode where
  | busy
  | cancelled
  | sourceTooLarge
  | unsupportedFormat
  | archiveMalformed
  | unsupportedCompression
  | entryCountLimit
  | entrySizeLimit
  | totalSizeLimit
  | compressionRatioLimit
  | unsafePath
  | duplicatePath
  | unsafeEntryType
  | unsupportedFileType
  | pngMalformed
  | pngDimensionLimit
  | pngMetadataLimit
  | pngAnimationUnsupported
  | metadataMalformed
  | assetRejected
  | stagingFailure
  | cleanupFailure
  | internal
  deriving DecidableEq

structure ImportError where
  code : ImportErrorCode
  cleanupPending : Bool
  rejectedEntries : Nat
  deriving DecidableEq

def ImportError.new (code : ImportErrorCode) : ImportError := ⟨code, false, 1⟩

/-- The method `cleanup_pending`. -/
def ImportError.withCleanupPending (e : ImportError) : ImportError := { e with cleanupPending := true }

/-- A check that fails with the code. -/
def check (c : Prop) [Decidable c] (code : ImportErrorCode) : Except ImportError Unit :=
  ensure c (.new code)

theorem check_ok {c : Prop} [Decidable c] {code : ImportErrorCode} {u : Unit} :
    check c code = .ok u ↔ c := by
  unfold check
  exact ensure_ok

def malformed : ImportError := .new .archiveMalformed

/-- `checked_add` on `u64`. -/
def checkedAdd (a b : Nat) (e : ImportError) : Except ImportError Nat :=
  if a + b ≤ maxUnsigned then .ok (a + b) else .error e

theorem checkedAdd_ok {a b c : Nat} {e : ImportError} (h : checkedAdd a b e = .ok c) : c = a + b := by
  unfold checkedAdd at h
  split at h
  · exact (Except.ok.inj h).symm
  · cases h

/-! ## Limits -/

structure ImportLimits where
  maxSourceBytes : Nat
  maxArchiveEntries : Nat
  maxEntryBytes : Nat
  maxTotalUncompressedBytes : Nat
  maxCompressionRatio : Nat
  maxPathBytes : Nat
  maxComponentBytes : Nat
  maxPathDepth : Nat
  maxZipExtraBytes : Nat
  copyBufferBytes : Nat
  maxPngBytes : Nat
  maxPngChunks : Nat
  maxPngChunkBytes : Nat
  maxPngMetadataBytes : Nat
  maxPngWidth : Nat
  maxPngHeight : Nat
  maxPngPixels : Nat
  maxPngDecodeBytes : Nat
  maxMetadataBytes : Nat
  deriving DecidableEq

def ImportLimits.default : ImportLimits where
  maxSourceBytes := 256 * 1024 * 1024
  maxArchiveEntries := 2048
  maxEntryBytes := 64 * 1024 * 1024
  maxTotalUncompressedBytes := 512 * 1024 * 1024
  maxCompressionRatio := 200
  maxPathBytes := 512
  maxComponentBytes := 128
  maxPathDepth := 16
  maxZipExtraBytes := 16 * 1024
  copyBufferBytes := 64 * 1024
  maxPngBytes := 64 * 1024 * 1024
  maxPngChunks := 4096
  maxPngChunkBytes := 32 * 1024 * 1024
  maxPngMetadataBytes := 4 * 1024 * 1024
  maxPngWidth := 16384
  maxPngHeight := 16384
  maxPngPixels := 67108864
  maxPngDecodeBytes := 256 * 1024 * 1024
  maxMetadataBytes := 8 * 1024 * 1024

def ImportLimits.validate (l : ImportLimits) : Except ImportError Unit :=
  check (l.maxSourceBytes ≠ 0 ∧ l.maxArchiveEntries ≠ 0 ∧ l.maxEntryBytes ≠ 0 ∧
      l.maxEntryBytes ≤ l.maxTotalUncompressedBytes ∧ l.maxCompressionRatio ≠ 0 ∧
      l.maxPathBytes ≠ 0 ∧ l.maxComponentBytes ≠ 0 ∧ l.maxPathDepth ≠ 0 ∧
      l.maxZipExtraBytes ≠ 0 ∧ (4 * 1024 ≤ l.copyBufferBytes ∧ l.copyBufferBytes ≤ 1024 * 1024) ∧
      l.maxPngBytes ≠ 0 ∧ l.maxPngChunks ≠ 0 ∧ l.maxPngChunkBytes ≠ 0 ∧
      l.maxPngMetadataBytes ≠ 0 ∧ l.maxPngWidth ≠ 0 ∧ l.maxPngHeight ≠ 0 ∧
      l.maxPngPixels ≠ 0 ∧ l.maxPngDecodeBytes ≠ 0 ∧ l.maxMetadataBytes ≠ 0)
    .internal

theorem ImportLimits.default_valid : ImportLimits.default.validate = .ok () := by decide

/-! ## Receipts -/

inductive ImportSourceKind where
  | zipArchive
  | pngCard
  deriving DecidableEq

inductive ExecutableLanguage where
  | javaScript
  | lua
  | webAssembly
  deriving DecidableEq

structure AcceptedAsset where
  logicalPath : String
  hash : AssetHash
  bytes : Nat
  mime : AssetMime
  deriving DecidableEq

structure AcceptedMetadata where
  logicalPath : String
  sha256 : String
  bytes : Nat
  deriving DecidableEq

structure QuarantinedExecutable where
  metadataContractVersion : Nat
  logicalPath : String
  language : ExecutableLanguage
  sha256 : String
  bytes : Nat
  disposition : String
  executable : Bool
  policy : String
  deriving DecidableEq

def QuarantinedExecutable.new (logicalPath : String) (language : ExecutableLanguage)
    (sha256 : String) (bytes : Nat) : QuarantinedExecutable where
  metadataContractVersion := 1
  logicalPath := logicalPath
  language := language
  sha256 := sha256
  bytes := bytes
  disposition := "INERT_QUARANTINED"
  executable := false
  policy := "DISABLED_BY_SECURITY_POLICY"

structure ImportCounts where
  accepted : Nat
  quarantined : Nat
  rejected : Nat
  deriving DecidableEq

structure ImportReceipt where
  protocolVersion : Nat
  policyVersion : String
  sourceKind : ImportSourceKind
  sourceSha256 : String
  sourceBytes : Nat
  counts : ImportCounts
  assets : List AcceptedAsset
  metadata : List AcceptedMetadata
  quarantined : List QuarantinedExecutable
  executableEntriesExecuted : Nat
  deriving DecidableEq

/-- The stream as `copy_source` has staged it. Its length is the number of bytes copied. -/
structure CopiedSource where
  content : Bytes
  sha256 : String
  deriving DecidableEq

/-- The first eight bytes, with zeros for those that are not there. -/
def CopiedSource.start (source : CopiedSource) : Bytes :=
  (source.content ++ List.replicate 8 0).take 8

/-- The function `receipt`. -/
def receipt (kind : ImportSourceKind) (source : CopiedSource) (assets : List AcceptedAsset)
    (metadata : List AcceptedMetadata) (quarantined : List QuarantinedExecutable) :
    ImportReceipt where
  protocolVersion := 1
  policyVersion := "lorepia-import-v1"
  sourceKind := kind
  sourceSha256 := source.sha256
  sourceBytes := source.content.length
  counts := ⟨(assets.length + metadata.length) % 2 ^ 32, quarantined.length % 2 ^ 32, 0⟩
  assets := assets
  metadata := metadata
  quarantined := quarantined
  executableEntriesExecuted := 0

/-! ## Steps -/

/-- The state of an import. -/
structure World where
  assets : Root
  staging : List String
  leaseLost : Bool

def assetRoot : Lens World Root where
  get w := w.assets
  set w root := { w with assets := root }
  get_set _ _ := rfl
  set_get _ := rfl
  set_set _ _ _ := rfl

abbrev ImportOp (α : Type) := Proc World Input ImportError α

def access (code : ImportErrorCode) : ImportOp Unit :=
  atomic fun i w => if i.fails then some (.error (.new code), w) else some (.ok (), w)

/-- `map_asset_error`. The store's `MutationBusy` is not modelled. -/
def mapAssetError : AssetError → ImportError
  | .cancelled => .new .cancelled
  | _ => .new .assetRejected

def attemptAssets {α : Type} (p : Op α) : ImportOp (Except AssetError α) := p.within assetRoot

def callAssets {α : Type} (p : Op α) : ImportOp α := do
  match ← attemptAssets p with
  | .ok a => pure a
  | .error e => fail (mapAssetError e)

/-- What the caller's `is_cancelled` answers, and whether a heartbeat is due. The source
counts checks and looks at the clock: every 64th check is a heartbeat, and so is one after
30 seconds. Here any check may be one. -/
def pollCancel : ImportOp (Bool × Bool) := atomic fun i w => some (.ok (i.cancels, i.fails), w)

def loseLease : ImportOp Unit := atomic fun _ w => some (.ok (), { w with leaseLost := true })

/-- `guarded_cancel`: the caller has cancelled, or the lease is lost. -/
def guardedCancel (temporary : AssetOwner) : ImportOp Bool := do
  let (cancelled, due) ← pollCancel
  if cancelled then pure true
  else if due then do
    match ← attemptAssets (renewTemporaryOwnerSession temporary) with
    | .ok true => pure false
    | _ => do
      loseLease
      pure true
  else pure false

/-- `if is_cancelled() { return Err(Cancelled) }`. -/
def heedCancel (temporary : AssetOwner) : ImportOp Unit := do
  if ← guardedCancel temporary then fail (.new .cancelled) else pure ()

def ensureSessionLive (temporary : AssetOwner) : ImportOp Unit := do
  if ← callAssets (renewTemporaryOwnerSession temporary) then pure ()
  else fail (.new .assetRejected)

end Lorepia.Import
