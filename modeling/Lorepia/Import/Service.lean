import Lorepia.Import.Archive

/-!
# The import service (`service.rs`)

`import_reader` copies the stream, opens it as a card or as an archive, ingests what it
accepts under a temporary owner, and promotes the temporary owner's references to the final
owner's in one transaction of the catalog. On an error it rolls the temporary owner back.
Either way it removes its staging directory at the end.

The PNG policy and the JSON parser are parameters. Inside an ingest the closure that guards
the cancellation is represented by its answers: it may report a cancellation, of which
`noteCancelCause` says afterwards whether it was the caller's or a lost lease; the renewals
of the lease it makes there are left out.
-/

namespace Lorepia.Import

open Proc Assets

/-- The parts of an import that are not modelled. `validatePng` returns the metadata of a
file under its logical path, `validJson` is whether the text is one JSON value. -/
structure ImportEnv where
  unicode : Unicode
  zip : ZipCrate
  validatePng : ImportLimits → Bytes → String → Except ImportError (List AcceptedMetadata)
  validJson : Bytes → Bool

/-- An opened service; `ImportService::open` validates the limits. -/
structure ImportService where
  assets : AssetStore
  limits : ImportLimits
  env : ImportEnv
  valid : limits.validate = .ok ()

def copyBufferBytes : Nat := 64 * 1024

/-! ## Copying the source -/

/-- What one read of the caller's stream returns. -/
inductive SourceRead where
  | chunk (bytes : Bytes)
  | interrupted
  | failed
  deriving DecidableEq

/-- The loop of `copy_source`. After the given reads the stream is at its end; an empty
chunk is the end too. -/
def copyReads (limits : ImportLimits) (temporary : AssetOwner) :
    List SourceRead → Bytes → ImportOp Bytes
  | [], content => do
    heedCancel temporary
    pure content
  | .interrupted :: _, _ => do
    heedCancel temporary
    fail (.new .cancelled)
  | .failed :: _, _ => do
    heedCancel temporary
    fail (.new .stagingFailure)
  | .chunk bytes :: rest, content => do
    heedCancel temporary
    if bytes = [] then pure content
    else do
      ofExcept (check (content.length + bytes.length ≤ limits.maxSourceBytes) .sourceTooLarge)
      access .stagingFailure
      copyReads limits temporary rest (content ++ bytes)

def copySource (service : ImportService) (temporary : AssetOwner) (reads : List SourceRead) :
    ImportOp CopiedSource := do
  access .stagingFailure
  let content ← copyReads service.limits temporary reads []
  access .stagingFailure
  pure ⟨content, (service.assets.env.sha256 content).text⟩

/-! ## Reading entries -/

/-- What `stream_entry` has read of an entry, and of all entries. -/
structure Streamed where
  entryActual : Nat
  totalActual : Nat
  content : Bytes
  deriving DecidableEq

def Streamed.add (limits : ImportLimits) (declared : Nat) (st : Streamed) (chunk : Bytes) :
    Except ImportError Streamed := do
  let entryActual ← checkedAdd st.entryActual chunk.length (.new .entrySizeLimit)
  check (entryActual ≤ declared ∧ entryActual ≤ limits.maxEntryBytes) .entrySizeLimit
  let totalActual ← checkedAdd st.totalActual chunk.length (.new .totalSizeLimit)
  check (totalActual ≤ limits.maxTotalUncompressedBytes) .totalSizeLimit
  pure ⟨entryActual, totalActual, st.content ++ chunk⟩

def accessOutput (output : Bool) : ImportOp Unit :=
  if output then access .stagingFailure else pure ()

/-- The loop of `stream_entry`; `output` is whether the bytes are written to a file. -/
def streamReads (limits : ImportLimits) (temporary : AssetOwner) (declared : Nat) (output : Bool) :
    List (Option Bytes) → Streamed → ImportOp Streamed
  | [], st => do
    heedCancel temporary
    pure st
  | none :: _, _ => do
    heedCancel temporary
    fail malformed
  | some chunk :: rest, st => do
    heedCancel temporary
    if chunk = [] then pure st
    else do
      let st ← ofExcept (st.add limits declared chunk)
      accessOutput output
      streamReads limits temporary declared output rest st

def streamEntry (limits : ImportLimits) (temporary : AssetOwner) (reads : List (Option Bytes))
    (output : Bool) (declared total : Nat) : ImportOp Streamed := do
  accessOutput output
  let st ← streamReads limits temporary declared output reads ⟨0, total, []⟩
  ofExcept (check (st.entryActual = declared) .archiveMalformed)
  accessOutput output
  pure st

/-- `validate_png`. It asks for a cancellation many times. -/
def validatePng (service : ImportService) (temporary : AssetOwner) (content : Bytes)
    (logicalPath : String) : ImportOp (List AcceptedMetadata) := do
  access .pngMalformed
  heedCancel temporary
  ofExcept (service.env.validatePng service.limits content logicalPath)

def cardMetadata (service : ImportService) (temporary : AssetOwner) (mime : AssetMime)
    (content : Bytes) (logicalPath : String) : ImportOp (List AcceptedMetadata) :=
  if mime = .png then validatePng service temporary content logicalPath else pure []

def validateJson (service : ImportService) (content : Bytes) : ImportOp Unit := do
  access .metadataMalformed
  ofExcept (check (content.length ≤ service.limits.maxMetadataBytes) .entrySizeLimit)
  ofExcept (check (service.env.validJson content = true) .metadataMalformed)

structure StagedAsset where
  logicalPath : String
  content : Bytes
  mime : AssetMime
  bytes : Nat
  deriving DecidableEq

/-- What the loop over the plans has collected. -/
structure Extraction where
  totalActual : Nat
  staged : List StagedAsset
  metadata : List AcceptedMetadata
  quarantined : List QuarantinedExecutable
  deriving DecidableEq

def Extraction.start : Extraction := ⟨0, [], [], []⟩

/-- `by_index`, and what reading the entry returns. -/
def ZipArchive.readsAt (archive : ZipArchive) (index : Nat) : Option (List (Option Bytes)) :=
  archive.entries[index]?.bind fun entry => entry.bind ZipEntry.reads

def streamPlan (service : ImportService) (temporary : AssetOwner) (archive : ZipArchive)
    (plan : EntryPlan) (output : Bool) (total : Nat) : ImportOp Streamed := do
  ensureSessionLive temporary
  let reads ← ofExcept (required malformed (archive.readsAt plan.index))
  streamEntry service.limits temporary reads output plan.bytes total

/-- One round of the loop of `import_zip` over its plans. -/
def extractEntry (service : ImportService) (temporary : AssetOwner) (archive : ZipArchive)
    (plan : EntryPlan) (x : Extraction) : ImportOp Extraction := do
  heedCancel temporary
  match plan.kind with
  | .directory => pure x
  | .asset mime => do
    let st ← streamPlan service temporary archive plan true x.totalActual
    ofExcept (check (st.entryActual = plan.bytes) .archiveMalformed)
    let found ← cardMetadata service temporary mime st.content plan.path.logical
    pure { x with
      totalActual := st.totalActual
      staged := x.staged ++ [⟨plan.path.logical, st.content, mime, st.entryActual⟩]
      metadata := x.metadata ++ found }
  | .metadata => do
    let st ← streamPlan service temporary archive plan true x.totalActual
    validateJson service st.content
    pure { x with
      totalActual := st.totalActual
      metadata := x.metadata ++
        [⟨plan.path.logical, (service.assets.env.sha256 st.content).text, st.entryActual⟩] }
  | .executable language => do
    let st ← streamPlan service temporary archive plan false x.totalActual
    pure { x with
      totalActual := st.totalActual
      quarantined := x.quarantined ++
        [.new plan.path.logical language (service.assets.env.sha256 st.content).text
          st.entryActual] }

def extractEntries (service : ImportService) (temporary : AssetOwner) (archive : ZipArchive) :
    List EntryPlan → Extraction → ImportOp Extraction
  | [], x => pure x
  | plan :: rest, x => do
    let x ← extractEntry service temporary archive plan x
    extractEntries service temporary archive rest x

/-! ## Ingesting and promoting -/

/-- Whether the closure that cancelled an ingest had found the lease lost. -/
def noteCancelCause : ImportOp Unit :=
  atomic fun i w => some (.ok (), { w with leaseLost := w.leaseLost || i.fails })

/-- A staged file is opened and ingested for the temporary owner. `with_source_name` makes
the checks that the ingest makes first. -/
def ingestFile (service : ImportService) (task : Nat) (temporary : AssetOwner)
    (logicalPath : String) (mime : AssetMime) (content : Bytes) : ImportOp IngestOutcome := do
  access .stagingFailure
  match ← attemptAssets (ingest service.assets task ⟨mime, some logicalPath, some temporary⟩
      (content.toChunks copyBufferBytes)) with
  | .ok outcome => pure outcome
  | .error .cancelled => do
    noteCancelCause
    fail (.new .cancelled)
  | .error e => fail (mapAssetError e)

def acceptedAsset (logicalPath : String) (outcome : IngestOutcome) : AcceptedAsset :=
  ⟨logicalPath, outcome.object.hash, outcome.object.size, outcome.object.mime⟩

def ingestStagedAssets (service : ImportService) (task : Nat) (temporary : AssetOwner) :
    List StagedAsset → List AcceptedAsset → ImportOp (List AcceptedAsset)
  | [], accepted => pure accepted
  | staged :: rest, accepted => do
    heedCancel temporary
    ensureSessionLive temporary
    let outcome ← ingestFile service task temporary staged.logicalPath staged.mime staged.content
    ofExcept (check (outcome.object.size = staged.bytes) .internal)
    ingestStagedAssets service task temporary rest
      (accepted ++ [acceptedAsset staged.logicalPath outcome])

/-- The end of `import_zip`: the references become the final owner's. -/
def promote (temporary owner : AssetOwner) (accepted : List AcceptedAsset) : ImportOp Unit :=
  let uniqueAssets := (accepted.map (·.hash)).dedup.length
  if uniqueAssets = 0 then callAssets (finishEmptyTemporaryOwnerSession temporary)
  else do
    let _ ← callAssets (commitTemporaryOwnerRefs temporary owner uniqueAssets)

/-- `import_zip`, up to the promotion. -/
def extractZip (service : ImportService) (temporary : AssetOwner) (source : CopiedSource) :
    ImportOp Extraction := do
  let plans ← preflightZip service.env.unicode service.env.zip service.limits temporary source.content
  ensureSessionLive temporary
  access .archiveMalformed
  let archive ← ofExcept (required malformed (service.env.zip source.content))
  extractEntries service temporary archive plans .start

def importZip (service : ImportService) (task : Nat) (temporary owner : AssetOwner)
    (source : CopiedSource) : ImportOp ImportReceipt := do
  let x ← extractZip service temporary source
  let accepted ← ingestStagedAssets service task temporary x.staged []
  heedCancel temporary
  ensureSessionLive temporary
  promote temporary owner accepted
  pure (receipt .zipArchive source accepted x.metadata x.quarantined)

def importDirectPng (service : ImportService) (task : Nat) (temporary owner : AssetOwner)
    (source : CopiedSource) : ImportOp ImportReceipt := do
  let metadata ← validatePng service temporary source.content "card.png"
  ensureSessionLive temporary
  let outcome ← ingestFile service task temporary "card.png" .png source.content
  heedCancel temporary
  ensureSessionLive temporary
  let _ ← callAssets (commitTemporaryOwnerRefs temporary owner 1)
  pure (receipt .pngCard source [acceptedAsset "card.png" outcome] metadata [])

/-! ## The whole import -/

def pngSignature : Bytes := [0x89, 0x50, 0x4e, 0x47, 0x0d, 0x0a, 0x1a, 0x0a]

/-- The closure of `import_reader`: everything between the session's start and its end. -/
def importStaged (service : ImportService) (task : Nat) (temporary owner : AssetOwner)
    (reads : List SourceRead) : ImportOp ImportReceipt := do
  let source ← copySource service temporary reads
  ensureSessionLive temporary
  if source.start = pngSignature then importDirectPng service task temporary owner source
  else if source.start.take 4 = localSignature ∨ source.start.take 4 = eocdSignature then
    importZip service task temporary owner source
  else fail (.new .unsupportedFormat)

def validateFinalOwner (owner : AssetOwner) : Except ImportError Unit := do
  (validateOwner owner).mapError mapAssetError
  check (owner.ownerType ≠ importTemporaryOwnerType) .assetRejected

/-- `try_admit`: another import of this service may be running. -/
def tryAdmit : ImportOp Unit := access .busy

/-- What `create_dir` returns. -/
inductive Created where
  | created
  | alreadyExists
  | failed
  deriving DecidableEq

def createDir (name : String) : ImportOp Created :=
  atomic fun i w =>
    if i.fails then some (.ok .failed, w)
    else if name ∈ w.staging then some (.ok .alreadyExists, w)
    else some (.ok .created, { w with staging := name :: w.staging })

/-- `Uuid::new_v4().simple()`. -/
def newId : ImportOp String := atomic fun i w => some (.ok i.uuid, w)

structure StagingSession where
  id : String
  deriving DecidableEq

def StagingSession.name (session : StagingSession) : String := session.id ++ ".partial"

def StagingSession.temporaryOwner (session : StagingSession) : AssetOwner :=
  ⟨importTemporaryOwnerType, session.id⟩

/-- The attempts of `StagingSession::allocate`. -/
def allocateSession : Nat → ImportOp StagingSession
  | 0 => fail (.new .stagingFailure)
  | n + 1 => do
    let session : StagingSession := ⟨← newId⟩
    ofExcept ((validateOwner session.temporaryOwner).mapError fun _ => .new .internal)
    callAssets (beginTemporaryOwnerSession session.temporaryOwner)
    match ← createDir session.name with
    | .created => pure session
    | .alreadyExists => do
      callAssets (finishEmptyTemporaryOwnerSession session.temporaryOwner)
      allocateSession n
    | .failed => do
      callAssets (finishEmptyTemporaryOwnerSession session.temporaryOwner)
      fail (.new .stagingFailure)

def maxStagingAttempts : Nat := 32

/-- `StagingSession::cleanup`: whether the directory is gone. -/
def StagingSession.cleanup (session : StagingSession) : ImportOp Bool :=
  atomic fun i w =>
    if i.fails then some (.ok false, w)
    else some (.ok true, { w with staging := w.staging.filter (· ≠ session.name) })

/-- `cleanup`, and the second one of `drop` if the first fails. -/
def StagingSession.close (session : StagingSession) : ImportOp Bool := do
  if ← session.cleanup then pure true
  else do
    let _ ← session.cleanup
    pure false

def openSession (task : Nat) (owner : AssetOwner) : ImportOp StagingSession := do
  ofExcept (validateFinalOwner owner)
  tryAdmit
  match ← attemptAssets (recoverTemporaryOwnerType task importTemporaryOwnerType) with
  | .ok () => pure ()
  | .error _ => fail (ImportError.new .cleanupFailure).withCleanupPending
  allocateSession maxStagingAttempts

def startLease : ImportOp Unit := atomic fun _ w => some (.ok (), { w with leaseLost := false })

def leaseLost : ImportOp Bool := atomic fun _ w => some (.ok w.leaseLost, w)

/-- What is done after the import has ended with `result`. -/
def closeSession (task : Nat) (session : StagingSession) (result : Except ImportError ImportReceipt) :
    ImportOp ImportReceipt := do
  match result with
  | .ok receipt => do
    if ← session.close then pure receipt
    else fail (ImportError.new .cleanupFailure).withCleanupPending
  | .error e => do
    match ← attemptAssets (rollbackTemporaryOwner task session.temporaryOwner) with
    | .error _ => fail e.withCleanupPending
    | .ok () =>
      if ← session.close then fail e else fail e.withCleanupPending

def importReader (service : ImportService) (task : Nat) (reads : List SourceRead)
    (owner : AssetOwner) : ImportOp ImportReceipt := do
  let session ← openSession task owner
  startLease
  let result ← (importStaged service task session.temporaryOwner owner reads).attempt
  if ← leaseLost then closeSession task session (.error (.new .assetRejected))
  else closeSession task session result

end Lorepia.Import
