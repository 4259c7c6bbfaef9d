import Lorepia.Lib.Runs
import Lorepia.Backup.Model

/-!
# restore_backup (`restore.rs`)

The restore as a program over the disk. Every rename, removal, file write and journal
write is one action; `sync_directory` and `sync_tree` are what makes the actions durable
in this order and have no action of their own. Directories other than the three roots
exist exactly when a file lies below them, so `create_dir_all` does nothing, and no path
is a symbolic link, so the `reject_symlink` checks only fail on a missing directory.

`remove_dir_all` deletes the files of a tree in the order in which the directory lists
them, which is an argument of the invocation.
-/

namespace Lorepia.Backup

variable {env : Env}

/-! ## Journal (journal.rs) -/

/-- `validate_progress` (journal.rs:40–91), without the portability of the destination's
name, which `restore_backup` has checked before. -/
def validateProgress (progress : BackupProgress) : Bool :=
  validLowerHex progress.sessionId 32 &&
  decide (progress.verifiedObjects ≤ maxBackupAssetObjects) &&
  decide (progress.verifiedBytes ≤ progress.requiredBytes) &&
  progress.lastVerifiedObjectHash.all (validLowerHex · 64) &&
  match progress.operation with
  | .exporting =>
    progress.sourceManifestSha256.isNone &&
      progress.phase ∈ [Phase.prepared, .productSnapshot, .assetCatalogSnapshot, .objects,
        .readyToPublish, .verified]
  | .restore =>
    progress.sourceManifestSha256.any (validLowerHex · 64) &&
      progress.phase ∈ [Phase.prepared, .copied, .verified, .oldMoved, .newPublished, .complete]

/-- `write_progress`; the record is far below the journal's size limit. -/
def writeProgress (event : Event) (progress : BackupProgress) : Restore Unit := do
  Prog.require (validateProgress progress = true) .journalConflict
  Prog.act event fun d => { d with journal := some progress }

def notify : Restore Unit := Prog.heed (.cancelled .announcing) .cancelled

/-! ## Files -/

/-- The buffers in which a file is read, `fuel` of them at most. -/
def chunksFrom : Nat → Bytes → List Bytes
  | 0, _ => []
  | _, [] => []
  | fuel + 1, bytes => bytes.take copyBufferBytes :: chunksFrom fuel (bytes.drop copyBufferBytes)

def chunks (bytes : Bytes) : List Bytes := chunksFrom bytes.length bytes

/-- `hash_file_cancellable`: the observer is asked before each read, the last of which
finds the end of the file. -/
def hashFile (env : Env) (during : Activity) (bytes : Bytes) : Restore (String × Nat) := do
  Prog.heedTimes (.cancelled during) .cancelled ((chunks bytes).length + 1)
  pure (env.sha256 bytes, bytes.length)

def stage (f : Tree → Tree) : Restore Unit :=
  Prog.act .stageFile fun d => { d with staging := d.staging.map f }

def stagedFile (path : String) : Restore (Option Bytes) :=
  Prog.read fun d => d.staging.bind fun t => t[path]?

/-- `remove_regular_file_if_present`, below staging. -/
def removeStagedFile (path : String) : Restore Unit := do
  let file ← stagedFile path
  Prog.when (file.isSome = true) (stage fun t => t.erase path)

/-- The copy loop of `copy_verified`. -/
def copyChunks (path : String) : List Bytes → Restore Unit
  | [] => Prog.heed (.cancelled .copying) .cancelled
  | chunk :: rest => do
    Prog.heed (.cancelled .copying) .cancelled
    stage fun t => t.insert path ((t[path]?).getD [] ++ chunk)
    copyChunks path rest

/-- `copy_verified` (restore.rs:639–680). -/
def copyVerified (env : Env) (entry : BackupEntry) (target : String) : Restore Unit := do
  let temporary := copyingPath target
  removeStagedFile temporary
  stage fun t => t.insert temporary []
  copyChunks temporary (chunks entry.content)
  let copied ← stagedFile temporary
  let (actualHash, actualSize) ← hashFile env .copying (copied.getD [])
  if actualHash ≠ entry.sha256 ∨ actualSize ≠ entry.size then do
    stage fun t => t.erase temporary
    Prog.fail (.entryMismatch entry.path "copy hash or size")
  else
    stage fun t => (t.erase temporary).insert target ((t[temporary]?).getD [])

/-! ## Copying and validating -/

def alreadyValid (env : Env) (entry : BackupEntry) (target : String) : Restore Bool := do
  let file ← stagedFile target
  match file with
  | some bytes => do
    let (hash, size) ← hashFile env .copying bytes
    pure (hash == entry.sha256 && size == entry.size)
  | none => pure false

/-- Bring an entry to staging (restore.rs:602–617). -/
def stageEntry (env : Env) (entry : BackupEntry) (target : String) : Restore Unit := do
  let valid ← alreadyValid env entry target
  Prog.when (valid = false) do
    removeStagedFile target
    copyVerified env entry target

def countEntry (entry : BackupEntry) (progress : BackupProgress) :
    Except BackupError BackupProgress :=
  if progress.verifiedBytes + entry.size < 2 ^ 64 then
    if entry.kind = .assetObject then
      .ok { progress with
        verifiedBytes := progress.verifiedBytes + entry.size
        verifiedObjects := progress.verifiedObjects + 1
        lastVerifiedObjectHash := some entry.sha256 }
    else .ok { progress with verifiedBytes := progress.verifiedBytes + entry.size }
  else .error .sizeOverflow

/-- Stop with the error of a check that does not look at the disk. -/
def liftExcept {α : Type} : Except BackupError α → Restore α
  | .ok a => pure a
  | .error e => Prog.fail e

/-- The loop of `copy_data_entries`. -/
def copyEntries (env : Env) : List (String × BackupEntry) → BackupProgress →
    Restore BackupProgress
  | [], progress => pure progress
  | (target, entry) :: rest, progress => do
    stageEntry env entry target
    let progress ← liftExcept (countEntry entry progress)
    writeProgress .writeJournal progress
    notify
    copyEntries env rest progress

/-- `copy_data_entries` (restore.rs:574–637). -/
def copyDataEntries (pkg : Package env) (progress : BackupProgress) : Restore BackupProgress := do
  let staging ← Prog.read Disk.staging
  Prog.require (staging.isSome = true) .notFound
  copyEntries env (dataEntries pkg.entries)
    { progress with lastVerifiedObjectHash := none, verifiedObjects := 0, verifiedBytes := 0 }

/-- The loop of `validate_restored_data`. -/
def checkEntries (env : Env) (during : Activity) (root : Tree) :
    List (String × BackupEntry) → Restore Unit
  | [] => pure ()
  | (path, entry) :: rest => do
    Prog.heed (.cancelled during) .cancelled
    let (hash, size) ← hashFile env during ((root[path]?).getD [])
    Prog.require (hash = entry.sha256 ∧ size = entry.size)
      (.entryMismatch path "restored hash or size")
    checkEntries env during root rest

/-- `validate_restored_data` (restore.rs:682–745). -/
def validateRestoredData (pkg : Package env) (during : Activity) (root : Disk → Option Tree) :
    Restore Unit := do
  Prog.heed (.cancelled during) .cancelled
  let tree ← Prog.read root
  match tree with
  | none => Prog.fail .notFound
  | some tree => do
    Prog.require (tree.keys = (dataEntries pkg.entries).map Prod.fst)
      (.invalidManifest "restored data has missing or unexpected files")
    checkEntries env during tree (dataEntries pkg.entries)
    Prog.heed (.cancelled during) .cancelled
    Prog.require (env.validateProductDatabase ((tree[restoredProductPath]?).getD []) = true)
      (.invalidDatabase "product")
    Prog.heed (.cancelled during) .cancelled
    Prog.require (env.validateAssetCatalog ((tree[restoredAssetCatalogPath]?).getD []) = true)
      (.invalidDatabase "asset catalog")

/-- The first loop of `verify_package_contents`. -/
def hashEntries (env : Env) : List BackupEntry → Restore Unit
  | [] => pure ()
  | entry :: rest => do
    let (hash, size) ← hashFile env .checkingPackage entry.content
    Prog.require (hash = entry.sha256) (.entryMismatch entry.path "hash")
    Prog.require (size = entry.size) (.entryMismatch entry.path "size")
    hashEntries env rest

/-- `verify_package_contents` (restore.rs:379–422). The databases, the catalog and the
secret scan of a verified package have nothing to report. -/
def verifyPackageContents (pkg : Package env) : Restore Unit := do
  hashEntries env pkg.entries
  Prog.heedTimes (.cancelled .checkingPackage) .cancelled pkg.scanPoints

/-! ## The stages of restore_backup (restore.rs:44–285) -/

/-- One call of `restore_backup`: its options, what the space probe answers, the order in
which the old directory lists its files, and where the call is interrupted. -/
structure Invocation where
  options : RestoreOptions
  availableBytes : Option Nat
  removalOrder : List String
  schedule : Schedule

/-- Whether the call resumes an earlier one; leftovers without a journal are cleared
(restore.rs:80–92). -/
def clearLeftovers : Restore Bool := do
  let d ← Prog.read id
  if d.journal.isSome then pure true
  else do
    Prog.when (d.staging.isSome = true) do
      Prog.require (d.old.isNone = true ∧ d.staging.all (·.isEmpty) = true) .journalConflict
      Prog.act .removeStaging fun d => { d with staging := none }
    Prog.require (d.old.isNone = true) .journalConflict
    pure false

/-- Undo a move of the old tree that was not followed by the publication of the new one
(restore.rs:97–118). -/
def undoMove (d : Disk) (journal : BackupProgress) : Restore BackupProgress :=
  if d.old.isSome ∧ d.destination.isNone then do
    Prog.require
      (d.staging.isSome ∧ (journal.phase = .verified ∨ journal.phase = .oldMoved))
      .journalConflict
    Prog.act .recoverOld fun d => { d with destination := d.old, old := none }
    let journal := { journal with phase := .verified, replacedExisting := true }
    writeProgress .writeJournal journal
    pure journal
  else if journal.phase = .oldMoved ∧ journal.replacedExisting = true ∧
      d.destination.isSome ∧ d.staging.isSome ∧ d.old.isNone then do
    let journal := { journal with phase := .verified }
    writeProgress .writeJournal journal
    pure journal
  else pure journal

/-- Read the journal of an earlier call (restore.rs:92–122). -/
def resumeJournal (destinationName : String) : Restore (Option BackupProgress) := do
  let d ← Prog.read id
  match d.journal with
  | none => pure none
  | some journal => do
    Prog.require (validateProgress journal = true) .journalConflict
    Prog.require (journal.operation = .restore ∧ journal.destinationName = destinationName)
      .journalConflict
    let journal ← undoMove d journal
    pure (some journal)

def newProgress (pkg : Package env) (destinationName : String) (destination : Option Tree) :
    BackupProgress :=
  { operation := .restore, sessionId := pkg.sessionId, phase := .prepared, destinationName
    sourceManifestSha256 := some pkg.manifestHash, lastVerifiedObjectHash := none
    verifiedObjects := 0, verifiedBytes := 0, requiredBytes := pkg.totalEntryBytes
    availableBytes := none, replacedExisting := destination.isSome }

/-- The progress to go on from (restore.rs:132–162). -/
def startProgress (pkg : Package env) (destinationName : String) (options : RestoreOptions) :
    Option BackupProgress → Restore BackupProgress
  | some journal => do
    Prog.require
      (journal.sessionId = pkg.sessionId ∧ journal.sourceManifestSha256 = some pkg.manifestHash ∧
        journal.verifiedBytes ≤ pkg.totalEntryBytes)
      .journalConflict
    pure journal
  | none => do
    let destination ← Prog.read Disk.destination
    Prog.require (¬ (destination.isSome ∧ options.policy = .failIfPresent)) .existingData
    pure (newProgress pkg destinationName destination)

/-- `enforce_restore_space` (restore.rs:762–788). -/
def enforceRestoreSpace (requiredBytes : Nat) (availableBytes : Option Nat)
    (unknownPolicy : UnknownSpacePolicy) : Except BackupError Unit :=
  match availableBytes with
  | some available =>
    if requiredBytes ≤ available then .ok ()
    else .error (.insufficientSpace requiredBytes available)
  | none =>
    if unknownPolicy = .proceedWithExplicitUnknown then .ok () else .error .freeSpaceUnknown

/-- The bytes still to be copied, with the reserve (restore.rs:165–181). -/
def requiredSpace (pkg : Package env) (progress : BackupProgress) : Except BackupError Nat :=
  if progress.phase < .copied ∧ pkg.totalEntryBytes < progress.verifiedBytes then
    .error .journalConflict
  else
    let remaining :=
      if progress.phase < .copied then pkg.totalEntryBytes - progress.verifiedBytes else 0
    if remaining + spaceReserveBytes < 2 ^ 64 then .ok (remaining + spaceReserveBytes)
    else .error .sizeOverflow

def reserveSpace (pkg : Package env) (inv : Invocation) (progress : BackupProgress) :
    Except BackupError BackupProgress := do
  let required ← requiredSpace pkg progress
  enforceRestoreSpace required inv.availableBytes inv.options.unknownSpacePolicy
  pure { progress with
    requiredBytes := pkg.totalEntryBytes, availableBytes := inv.availableBytes }

/-- A publish rename that became visible before its journal update (restore.rs:194–202). -/
def reconcile (pkg : Package env) (progress : BackupProgress) : Restore BackupProgress := do
  let d ← Prog.read id
  if progress.phase = .oldMoved ∧ d.destination.isSome ∧ d.staging.isNone then do
    validateRestoredData pkg .reconciling Disk.destination
    let progress := { progress with phase := .newPublished }
    writeProgress .writeJournal progress
    notify
    pure progress
  else pure progress

def copyStage (pkg : Package env) (progress : BackupProgress) : Restore BackupProgress :=
  if progress.phase < .copied then do
    let progress ← copyDataEntries pkg progress
    let progress := { progress with phase := .copied }
    writeProgress .writeJournal progress
    notify
    pure progress
  else pure progress

def verifyStage (pkg : Package env) (progress : BackupProgress) : Restore BackupProgress :=
  if progress.phase < .verified then do
    validateRestoredData pkg .checkingStaging Disk.staging
    let progress := { progress with phase := .verified }
    writeProgress .writeJournal progress
    notify
    pure progress
  else pure progress

def moveOldStage (options : RestoreOptions) (progress : BackupProgress) :
    Restore BackupProgress :=
  if progress.phase < .oldMoved then do
    let d ← Prog.read id
    Prog.when (d.destination.isSome = true) do
      Prog.require (options.policy = .replace) .existingData
      Prog.require (d.old.isNone = true) .journalConflict
      Prog.act .moveOld fun d => { d with destination := none, old := d.destination }
    let progress := { progress with phase := .oldMoved }
    writeProgress .writeJournal progress
    notify
    pure progress
  else pure progress

def publishStage (progress : BackupProgress) : Restore BackupProgress :=
  if progress.phase < .newPublished then do
    let d ← Prog.read id
    Prog.require (d.destination.isNone ∧ d.staging.isSome) .journalConflict
    Prog.act .publish fun d => { d with destination := d.staging, staging := none }
    let progress := { progress with phase := .newPublished }
    writeProgress .writeJournal progress
    notify
    pure progress
  else pure progress

/-- `rollback_publish` (restore.rs:747–760). -/
def rollbackPublish : Restore Bool := do
  let d ← Prog.read id
  if d.destination.isSome ∧ d.staging.isSome then pure false
  else do
    Prog.when (d.destination.isSome = true) (Prog.act .unpublish fun d =>
      { d with staging := d.destination, destination := none })
    Prog.when (d.old.isSome = true) (Prog.act .restoreOld fun d =>
      { d with destination := d.old, old := none })
    pure true

/-- The files `remove_dir_all` deletes before the directory itself. -/
def discardFiles : List String → Restore Unit
  | [] => pure ()
  | path :: rest => do
    Prog.act .discardOldFile fun d => { d with old := d.old.map fun t => t.erase path }
    discardFiles rest

/-- The progress after a rollback: everything is to be copied again. -/
def restarted (progress : BackupProgress) : BackupProgress :=
  { progress with
    phase := .prepared, lastVerifiedObjectHash := none, verifiedObjects := 0, verifiedBytes := 0 }

def rollBack (progress : BackupProgress) (error : BackupError) : Restore RestoreReport := do
  let moved ← rollbackPublish
  Prog.require (moved = true) .rollbackFailed
  writeProgress .rolledBack (restarted progress)
  Prog.fail error

def completeRestore (pkg : Package env) (inv : Invocation) (resumed : Bool)
    (progress : BackupProgress) : Restore RestoreReport := do
  let old ← Prog.read Disk.old
  Prog.when (old.isSome = true) do
    discardFiles inv.removalOrder
    Prog.act .discardOld fun d => { d with old := none }
  let progress := { progress with phase := .complete }
  writeProgress .writeJournal progress
  notify
  Prog.act .removeJournal fun d => { d with journal := none }
  pure
    { sessionId := pkg.sessionId, manifestSha256 := pkg.manifestHash
      restoredBytes := pkg.totalEntryBytes, replacedExisting := progress.replacedExisting
      resumed }

def finish (pkg : Package env) (inv : Invocation) (resumed : Bool) (progress : BackupProgress) :
    Restore RestoreReport := do
  let validated ← Prog.attempt (validateRestoredData pkg .finalValidation Disk.destination)
  match validated with
  | .error error => rollBack progress error
  | .ok _ => completeRestore pkg inv resumed progress

/-- The part of `restore_backup` that brings the new tree to the destination. -/
def publishNew (pkg : Package env) (inv : Invocation) (progress : BackupProgress) :
    Restore BackupProgress := do
  let progress ← reconcile pkg progress
  let progress ← copyStage pkg progress
  let progress ← verifyStage pkg progress
  let progress ← moveOldStage inv.options progress
  publishStage progress

/-- Reserve space, write the journal, and check the package (restore.rs:163–192). -/
def announce (pkg : Package env) (inv : Invocation) (resumed : Bool) (progress : BackupProgress) :
    Restore BackupProgress := do
  let progress ← liftExcept (reserveSpace pkg inv progress)
  Prog.when (resumed = false) (Prog.act .makeStaging fun d => { d with staging := some ∅ })
  writeProgress .writeJournal progress
  notify
  verifyPackageContents pkg
  pure progress

def restoreBackup (pkg : Package env) (destinationName : String) (inv : Invocation) :
    Restore RestoreReport := do
  let resumed ← clearLeftovers
  let saved ← resumeJournal destinationName
  let progress ← startProgress pkg destinationName inv.options saved
  let progress ← announce pkg inv resumed progress
  let progress ← publishNew pkg inv progress
  finish pkg inv resumed progress

/-! ## Invocations one after another -/

/-- How a call ended and what it did. -/
structure Outcome where
  result : Except (Stop BackupError) RestoreReport
  trace : List Event

def restores (pkg : Package env) (destinationName : String) : Server Disk Invocation Outcome where
  exec inv d :=
    let (result, w) := restoreBackup pkg destinationName inv inv.schedule { state := d }
    ({ result, trace := w.trace }, w.state)

end Lorepia.Backup
