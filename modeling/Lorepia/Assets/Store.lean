import Lorepia.Lib.Concurrent
import Lorepia.Assets.Model

/-!
# The operations of the asset store (`store.rs`, `secure_fs.rs`)

A root directory holds the object tree, the staging and the quarantine directory, and the
catalog. Everything a store does to it is a sequence of atomic steps: a step on the file
system, a statement of the catalog (each its own transaction), a read of the catalog, or
the begin and end of a transaction that spans steps on the file system. Each step is told
whether it fails, whether the caller has cancelled, the time and a fresh random name. A step
that fails leaves the root as it is.

A transaction takes the catalog's write lock at `BEGIN IMMEDIATE`; the statements of others
wait for it. Its writes are always the last thing before the commit, so they are executed
with it (`commit`).

A directory is the map from its names to its entries. An entry that is no regular file is
`special`. Hard links share a file: two entries have the same `inode` exactly when one was
linked to the other. The store never writes to a file after it has linked it, so a link is a
copy of the entry. The directories of a shard are not modelled: a file in a shard without
directories is a file that does not exist.
-/

namespace Lorepia.Assets

open Proc

/-! ## The root -/

structure FileData where
  inode : Nat
  bytes : Bytes
  deriving DecidableEq

inductive Entry where
  | file (data : FileData)
  | special
  deriving DecidableEq

/-- The three directories. No file has an inode from `nextInode` on. -/
structure Files where
  objects : ObjectPath → Option Entry
  staging : String → Option Entry
  quarantine : String → Option Entry
  nextInode : Nat

/-- A root directory with its catalog. `writer` is the call whose transaction holds the
catalog's write lock. -/
structure Root where
  files : Files
  catalog : Catalog
  writer : Option Nat

/-- The answers of the environment to one step. -/
structure Input where
  fails : Bool := false
  cancels : Bool := false
  now : Nat := 0
  uuid : String := ""
  deriving DecidableEq

abbrev Op (α : Type) := Proc Root Input AssetError α

/-! ## Steps -/

def fs {α : Type} (f : Files → Except AssetError α × Files) : Op α :=
  atomic fun i s =>
    if i.fails then some (.error (.io .other), s)
    else some ((f s.files).1, { s with files := (f s.files).2 })

def query {α : Type} (f : Catalog → α) : Op α :=
  atomic fun i s => if i.fails then some (.error .database, s) else some (.ok (f s.catalog), s)

/-- A statement or a transaction without file system steps. It waits for the write lock. -/
def execute {α : Type} (x : Sql α) : Op α :=
  atomic fun i s =>
    if s.writer.isSome then none
    else if i.fails then some (.error .database, s)
    else some ((x.commit s.catalog).1, { s with catalog := (x.commit s.catalog).2 })

/-- `BEGIN IMMEDIATE`. -/
def begin (task : Nat) : Op Unit :=
  atomic fun i s =>
    if s.writer.isSome then none
    else if i.fails then some (.error .database, s)
    else some (.ok (), { s with writer := some task })

/-- The writes of a transaction and its `COMMIT`; an error rolls it back. -/
def commit {α : Type} (task : Nat) (x : Sql α) : Op α :=
  atomic fun i s =>
    if s.writer ≠ some task then none
    else if i.fails then some (.error .database, { s with writer := none })
    else some ((x.commit s.catalog).1, { s with catalog := (x.commit s.catalog).2, writer := none })

def rollback (task : Nat) : Op Unit :=
  atomic fun _ s => if s.writer ≠ some task then none else some (.ok (), { s with writer := none })

/-- A transaction with file system steps; its writes depend on what they find. -/
def transaction {α β : Type} (task : Nat) (body : Op α) (writes : α → Sql β) : Op β := do
  begin task
  match ← body.attempt with
  | .ok a => commit task (writes a)
  | .error e => do
    rollback task
    fail e

def nowMs : Op Nat :=
  atomic fun i s => if i.fails then some (.error (.io .other), s) else some (.ok i.now, s)

/-- `is_cancelled`. -/
def heed : Op Unit :=
  atomic fun i s => if i.cancels then some (.error .cancelled, s) else some (.ok (), s)

/-- `Uuid::new_v4().simple()`. -/
def newUuid : Op String := atomic fun i s => some (.ok i.uuid, s)

/-! ## Files (`secure_fs.rs`) -/

def put {κ : Type} [DecidableEq κ] (dir : κ → Option Entry) (name : κ) (entry : Option Entry) :
    κ → Option Entry :=
  fun n => if n = name then entry else dir n

def unsafeEntry : AssetError := .unsafeFilesystem "entry is not a regular no-follow file"

/-- `open_file`; no entry is `none`. -/
def openEntry : Option Entry → Except AssetError (Option FileData)
  | none => .ok none
  | some (.file data) => .ok (some data)
  | some .special => .error unsafeEntry

/-- `open_file` where a missing file is an error. -/
def requireFile : Option FileData → Except AssetError FileData
  | some data => .ok data
  | none => .error (.io .notFound)

def openObject (path : ObjectPath) : Op (Option FileData) := fs fun d => (openEntry (d.objects path), d)

def openQuarantined (name : String) : Op (Option FileData) :=
  fs fun d => (openEntry (d.quarantine name), d)

def openStaged (name : String) : Op (Option FileData) := fs fun d => (openEntry (d.staging name), d)

/-- `fsync` of a directory, which this model's steps do not need. -/
def sync : Op Unit := fs fun d => (.ok (), d)

/-- `remove_file`: a missing entry is an error. -/
def removed {κ : Type} [DecidableEq κ] (dir : κ → Option Entry) (name : κ) :
    Except AssetError Unit × (κ → Option Entry) :=
  match dir name with
  | none => (.error (.io .notFound), dir)
  | some _ => (.ok (), put dir name none)

def removeObject (path : ObjectPath) : Op Unit :=
  fs fun d => ((removed d.objects path).1, { d with objects := (removed d.objects path).2 })

def removeStaged (name : String) : Op Unit :=
  fs fun d => ((removed d.staging name).1, { d with staging := (removed d.staging name).2 })

def removeQuarantined (name : String) : Op Unit :=
  fs fun d => ((removed d.quarantine name).1, { d with quarantine := (removed d.quarantine name).2 })

/-- `linkat`: the target must not exist. -/
def linked {κ : Type} [DecidableEq κ] (source : Option Entry) (dir : κ → Option Entry) (name : κ) :
    Except AssetError Unit × (κ → Option Entry) :=
  match source, dir name with
  | none, _ => (.error (.io .notFound), dir)
  | some _, some _ => (.error (.io .alreadyExists), dir)
  | some e, none => (.ok (), put dir name (some e))

def sameInode (source : FileData) (published : Option FileData) : Except AssetError Unit := do
  let published ← requireFile published
  ensure (source.inode = published.inode)
    (.unsafeFilesystem "source entry changed while a no-follow hard link was being published")

/-- `hard_link_to` from the staging directory into the object tree. -/
def publishStaged (name : String) (path : ObjectPath) : Op Unit := do
  let source ← openStaged name
  let source ← ofExcept (requireFile source)
  fs fun d => ((linked (d.staging name) d.objects path).1,
    { d with objects := (linked (d.staging name) d.objects path).2 })
  let published ← openObject path
  ofExcept (sameInode source published)

/-- `hard_link_to` from the object tree into the quarantine directory. -/
def linkQuarantined (path : ObjectPath) (name : String) : Op Unit := do
  let source ← openObject path
  let source ← ofExcept (requireFile source)
  fs fun d => ((linked (d.objects path) d.quarantine name).1,
    { d with quarantine := (linked (d.objects path) d.quarantine name).2 })
  let published ← openQuarantined name
  ofExcept (sameInode source published)

def moveFileNoReplace (path : ObjectPath) (name : String) : Op Unit := do
  linkQuarantined path name
  sync
  removeObject path
  sync

/-- `create_new_file` in the staging directory. -/
def createStaged (name : String) : Op Unit :=
  fs fun d =>
    match d.staging name with
    | some _ => (.error (.io .alreadyExists), d)
    | none =>
      (.ok (), { d with
        staging := put d.staging name (some (.file ⟨d.nextInode, []⟩))
        nextInode := d.nextInode + 1 })

def writeStaged (name : String) (chunk : Bytes) : Op Unit :=
  fs fun d =>
    match d.staging name with
    | some (.file f) =>
      (.ok (), { d with staging := put d.staging name (some (.file { f with bytes := f.bytes ++ chunk })) })
    | _ => (.ok (), d)

/-! ## Quarantine (store.rs:1750–2083) -/

/-- The result of `file_exists`. -/
def fileExists (found : Option FileData) : Bool := found.isSome

/-- `complete_quarantine_move`, the transaction at its end. -/
def finalizeMove (intent : QuarantineIntent) : Sql Unit := do
  Catalog.upsertQuarantine ⟨intent.name, intent.originalHash, intent.reason, intent.createdAtMs⟩
  match intent.originalHash with
  | some hash => Catalog.setState hash (.quarantined intent.name)
  | none => pure ()
  Catalog.deleteIntent intent.name

def completeQuarantineMove (intent : QuarantineIntent) (source : ObjectPath) : Op Unit := do
  if intent.phase = .prepared then
    let target ← openQuarantined intent.name
    let found ← openObject source
    match fileExists found, fileExists target with
    | true, false => moveFileNoReplace source intent.name
    | false, true => pure ()
    | true, true => do
      let first ← openObject source
      let first ← ofExcept (requireFile first)
      let second ← openQuarantined intent.name
      let second ← ofExcept (requireFile second)
      if first.inode ≠ second.inode then
        fail (.unsafeFilesystem "quarantine recovery found two different files for one intent")
      else do
        removeObject source
        sync
    | false, false =>
      fail (.unsafeFilesystem "quarantine intent lost both its source and destination")
    execute (Catalog.setIntentMoved intent.name)
  execute (finalizeMove intent)

/-- `quarantine_file`; the quarantine name. -/
def quarantineFile (source : ObjectPath) (originalHash : Option AssetHash)
    (reason : QuarantineReason) (now : Nat) : Op String := do
  let found ← openObject source
  let _ ← ofExcept (requireFile found)
  let label := (originalHash.map AssetHash.text).getD "unknown"
  let name := label ++ "-" ++ (← newUuid) ++ ".quarantine"
  ofExcept (validateInternalName name)
  ofExcept (validateObjectRelativePath source)
  let intent : QuarantineIntent := ⟨name, .move source, .prepared, originalHash, reason, now⟩
  execute (Catalog.insertIntent intent)
  completeQuarantineMove intent source
  pure name

/-- `complete_quarantine_purge`, the transaction at its end. -/
def finalizePurge (name : String) : Sql Unit := do
  let _ ← Catalog.updateObjects (fun o => o.state = .quarantined name)
    fun o => { o with state := .missing }
  Catalog.deleteQuarantine name
  Catalog.deleteIntent name

def completeQuarantinePurge (intent : QuarantineIntent) : Op Unit := do
  if intent.phase = .prepared then
    match ← openQuarantined intent.name with
    | some _ => do
      removeQuarantined intent.name
      sync
    | none => sync
    execute (Catalog.setIntentMoved intent.name)
  execute (finalizePurge intent.name)

def purgeQuarantineFile (name : String) : Op Unit := do
  match ← query fun c => c.quarantine.find? fun r => r.name = name with
  | none => pure ()
  | some row => do
    let intent : QuarantineIntent :=
      ⟨name, .purge, .prepared, row.originalHash, row.reason, row.createdAtMs⟩
    execute (Catalog.insertIntent intent)
    completeQuarantinePurge intent

def completeIntent (intent : QuarantineIntent) : Op Unit :=
  match intent.operation with
  | .move source => do
    ofExcept (validateObjectRelativePath source)
    completeQuarantineMove intent source
  | .purge => completeQuarantinePurge intent

def completeIntents : List QuarantineIntent → Op Unit
  | [] => pure ()
  | intent :: rest => do
    completeIntent intent
    completeIntents rest

/-- `ORDER BY created_at_ms, name`. -/
def intentOrder (a b : QuarantineIntent) : Prop :=
  a.createdAtMs < b.createdAtMs ∨ a.createdAtMs = b.createdAtMs ∧ a.name ≤ b.name

instance : DecidableRel intentOrder := fun _ _ => inferInstanceAs (Decidable (_ ∨ _))

def recoverQuarantineIntents : Op Unit := do
  let intents ← query fun c => c.intents.insertionSort intentOrder
  let intents ← ofExcept (intents.mapM decodeQuarantineIntent)
  completeIntents intents

/-! ## Ingest (store.rs:427–572, 1617–1748) -/

def probeBytes : Nat := 64 * 1024
def tailBytes : Nat := 16

/-- What `copy_and_hash` has seen so far. The digest is of all bytes. -/
structure Copied where
  size : Nat
  start : Bytes
  tail : Bytes
  content : Bytes
  deriving DecidableEq

def updateTail (tail chunk : Bytes) : Bytes :=
  if tailBytes ≤ chunk.length then chunk.drop (chunk.length - tailBytes)
  else
    let tail := tail ++ chunk
    tail.drop (tail.length - tailBytes)

def Copied.add (c : Copied) (chunk : Bytes) : Copied where
  size := c.size + chunk.length
  start := if c.start.length < probeBytes then c.start ++ chunk.take (probeBytes - c.start.length) else c.start
  tail := updateTail c.tail chunk
  content := c.content ++ chunk

def readSource (chunk : Bytes) : Op Bytes := fs fun d => (.ok chunk, d)

/-- The loop of `copy_and_hash`. The reader returns the given chunks, one for each read,
and then the end of the data; an empty chunk is the end too. -/
def copyChunks (store : AssetStore) (name : String) : List Bytes → Copied → Op Copied
  | [], c => do
    heed
    let _ ← readSource []
    pure c
  | chunk :: rest, c => do
    heed
    let chunk ← readSource chunk
    if chunk = [] then
      pure c
    else if store.limits.maxObjectBytes < c.size + chunk.length then
      fail (.limitExceeded "per-object quota" store.limits.maxObjectBytes)
    else do
      writeStaged name chunk
      copyChunks store name rest (c.add chunk)

def copyAndHash (store : AssetStore) (name : String) (reads : List Bytes) : Op Copied := do
  let copied ← copyChunks store name reads ⟨0, [], [], []⟩
  if copied.size = 0 then fail .unsupportedContent else pure copied

/-- `hash_open_file`; the caller may cancel it. -/
def hashOpenFile (store : AssetStore) (data : FileData) : Op (AssetHash × Nat) := do
  heed
  let data ← fs fun d => (.ok data, d)
  if store.limits.maxObjectBytes < data.bytes.length then
    fail (.limitExceeded "per-object quota" store.limits.maxObjectBytes)
  else
    pure (store.env.sha256 data.bytes, data.bytes.length)

/-- `PublishExpectation`. -/
structure Expectation where
  hash : AssetHash
  size : Nat
  now : Nat
  deriving DecidableEq

def prepareDestination (store : AssetStore) (expected : Expectation) : Op Bool := do
  match ← openObject (relativeObjectPath expected.hash) with
  | none => pure false
  | some data => do
    let actual ← hashOpenFile store data
    if actual = (expected.hash, expected.size) then
      pure true
    else do
      let _ ← quarantineFile (relativeObjectPath expected.hash) (some expected.hash)
        .pathMismatch expected.now
      pure false

def publishOrDeduplicate (store : AssetStore) (name : String) (expected : Expectation) :
    Op Bool := do
  match ← (publishStaged name (relativeObjectPath expected.hash)).attempt with
  | .ok () => pure false
  | .error (.io .alreadyExists) => do
    let found ← openObject (relativeObjectPath expected.hash)
    let data ← ofExcept (requireFile found)
    let actual ← hashOpenFile store data
    if actual = (expected.hash, expected.size) then pure true
    else fail (.hashMetadataConflict expected.hash.text)
  | .error e => fail e

def destinationMatchesExpectation (store : AssetStore) (expected : Expectation) : Op Bool := do
  match ← openObject (relativeObjectPath expected.hash) with
  | none => pure false
  | some data => do
    let actual ← hashOpenFile store data
    if actual = (expected.hash, expected.size) then pure true
    else fail (.hashMetadataConflict expected.hash.text)

/-- `active_bytes` without what the row of the hash contributes to it. -/
def activeBytesWithoutHash (c : Catalog) (hash : AssetHash) : Int :=
  c.totals.activeBytes - ((c.object? hash).map AssetObject.activeSize).getD 0

/-- The projected total, in saturating 64-bit arithmetic. -/
def projectedBytes (c : Catalog) (expected : Expectation) : Nat :=
  let before := activeBytesWithoutHash c expected.hash
  if before < 0 then maxUnsigned else min maxUnsigned (before.toNat + expected.size)

/-- The file is published, unless it is there already; whether it was. -/
def publication (store : AssetStore) (name : String) (expected : Expectation)
    (initiallyDeduplicated : Bool) : Op Bool := do
  let matched ←
    if initiallyDeduplicated then destinationMatchesExpectation store expected else pure false
  if matched then pure true else publishOrDeduplicate store name expected

/-- The check of the quota and the publication, inside the transaction. -/
def publishWithinQuota (store : AssetStore) (name : String) (expected : Expectation)
    (initiallyDeduplicated : Bool) : Op Bool := do
  let projected ← query fun c => projectedBytes c expected
  if store.limits.maxTotalBytes < projected then
    fail (.limitExceeded "total asset quota" store.limits.maxTotalBytes)
  else do
    let deduplicated ← publication store name expected initiallyDeduplicated
    sync
    pure deduplicated

def recordObject (expected : Expectation) (mime : AssetMime) (owner : Option AssetOwner)
    (deduplicated : Bool) : Sql Bool := do
  Catalog.upsertObject
    ⟨expected.hash, expected.size, mime, relativeObjectPath expected.hash, .active, expected.now,
      expected.now⟩
  match owner with
  | some owner => Catalog.insertRef ⟨owner, expected.hash, expected.now⟩
  | none => pure ()
  pure deduplicated

structure IngestOutcome where
  object : AssetObject
  deduplicated : Bool
  deriving DecidableEq

/-- `ensure_object_parent`: the directories of the shard are created and synced. -/
def ensureObjectParent : Op Unit := sync

/-- What `ingest` does with its staged file. -/
def ingestStaged (store : AssetStore) (task : Nat) (request : IngestRequest) (reads : List Bytes)
    (name : String) : Op IngestOutcome := do
  let copied ← copyAndHash store name reads
  sync
  let mime ← ofExcept
    (store.env.validateMime request.declaredMime copied.start copied.tail copied.size)
  let hash := store.env.sha256 copied.content
  let now ← nowMs
  ensureObjectParent
  let expected : Expectation := ⟨hash, copied.size, now⟩
  let initiallyDeduplicated ← prepareDestination store expected
  let deduplicated ← transaction task (publishWithinQuota store name expected initiallyDeduplicated)
    (recordObject expected mime request.owner)
  match ← query (·.object? hash) with
  | some object => pure ⟨object, deduplicated⟩
  | none => fail (.notFound hash.text)

/-- The attempts of `allocate_staging`. -/
def allocateAttempts (task now : Nat) : Nat → Op String
  | 0 => fail (.invalidInput "staging file" "could not allocate a unique staging name")
  | n + 1 => do
    let name := (← newUuid) ++ ".partial"
    let inserted ← execute (Catalog.insertStaging ⟨name, now, task⟩)
    if inserted then
      match ← (createStaged name).attempt with
      | .ok () => pure name
      | .error (.io kind) => do
        execute (Catalog.deleteStaging name)
        if kind = .alreadyExists then allocateAttempts task now n else fail (.io kind)
      | .error e => fail e
    else allocateAttempts task now n

def allocateStaging (task : Nat) : Op String := do
  let now ← nowMs
  allocateAttempts task now 8

def ignoreNotFound (p : Op Unit) : Op Unit := do
  match ← p.attempt with
  | .ok () => pure ()
  | .error (.io .notFound) => pure ()
  | .error e => fail e

def cleanupStagedFile (name : String) : Op Unit := do
  ignoreNotFound (removeStaged name)
  sync
  execute (Catalog.deleteStaging name)

def ingest (store : AssetStore) (task : Nat) (request : IngestRequest) (reads : List Bytes) :
    Op IngestOutcome := do
  ofExcept (validateRequest request)
  let name ← allocateStaging task
  let result ← (ingestStaged store task request reads name).attempt
  let cleanup ← (cleanupStagedFile name).attempt
  match result, cleanup with
  | .ok outcome, .ok () => pure outcome
  | .error e, _ => fail e
  | .ok _, .error e => fail e

/-! ## References (store.rs:621–705) -/

structure AssetReference where
  owner : AssetOwner
  hash : AssetHash
  deriving DecidableEq

/-- The transaction of `add_refs`. -/
def addRefsWrites (now : Nat) : List AssetReference → Sql Unit
  | [] => pure ()
  | reference :: rest => do
    Tx.check (validateOwner reference.owner)
    match ← Tx.query (·.object? reference.hash) with
    | none => Tx.check (.error (.notFound reference.hash.text))
    | some object =>
      Tx.require (object.state = .active) (.notActive reference.hash.text object.state.asStr)
    Catalog.insertRef ⟨reference.owner, reference.hash, now⟩
    addRefsWrites now rest

def addRefs (refs : List AssetReference) : Op Unit :=
  if refs = [] then pure ()
  else do
    let now ← nowMs
    execute (addRefsWrites now refs)

/-- The transaction of `remove_refs`; the number of rows. -/
def removeRefsWrites : List AssetReference → Nat → Sql Nat
  | [], total => pure total
  | reference :: rest, total => do
    Tx.check (validateOwner reference.owner)
    let n ← Catalog.deleteRefs fun r => r.owner = reference.owner ∧ r.hash = reference.hash
    removeRefsWrites rest (min maxUnsigned (total + n))

def removeRefs (refs : List AssetReference) : Op Nat :=
  if refs = [] then pure 0 else execute (removeRefsWrites refs 0)

def removeOwnerRefs (owner : AssetOwner) : Op Nat := do
  ofExcept (validateOwner owner)
  execute (Catalog.deleteRefs fun r => r.owner = owner)

/-! ## Temporary owners (store.rs:707–1102) -/

def temporarySessionError (reason : String) : AssetError :=
  .invalidInput "temporary owner session" reason

def beginTemporaryOwnerSession (owner : AssetOwner) : Op Unit := do
  ofExcept (validateOwner owner)
  let now ← nowMs
  execute do
    let sessions ← Tx.query (·.temporarySessions.length)
    Tx.require (sessions < maxTemporaryOwnerSessions)
      (temporarySessionError "live session limit of 128 has been reached")
    let inserted ← Catalog.insertTemporarySession ⟨owner, now, now⟩
    Tx.require (inserted = true) (temporarySessionError "session already exists")

def renewTemporaryOwnerSession (owner : AssetOwner) : Op Bool := do
  ofExcept (validateOwner owner)
  let now ← nowMs
  let updated ← execute (Catalog.renewTemporarySession owner now)
  pure (updated == 1)

def finishEmptyTemporaryOwnerSession (owner : AssetOwner) : Op Unit := do
  ofExcept (validateOwner owner)
  execute do
    let refs ← Tx.query fun c => c.refs.countP fun r => r.owner = owner
    Tx.require (refs = 0) (temporarySessionError "empty session unexpectedly owns asset references")
    let removed ← Catalog.deleteTemporarySessions fun s => s.owner = owner
    Tx.require (removed = 1) (temporarySessionError "session is not live")

def firstInactive (c : Catalog) (owner : AssetOwner) : Option AssetObject :=
  let candidates := c.objects.filter fun o =>
    o.state ≠ .active && c.refs.any fun r => r.owner = owner ∧ r.hash = o.hash
  (Catalog.page (·.hash.text) none 1 candidates).head?

def temporaryRefsError (reason : String) : AssetError :=
  .invalidInput "temporary owner references" reason

/-- The transaction of `commit_temporary_owner_refs`. -/
def commitTemporaryOwnerWrites (temporary final : AssetOwner) (expected now : Nat) : Sql Nat := do
  let live ← Tx.query fun c => c.temporarySessions.any fun s => s.owner = temporary
  Tx.require (live = true) (temporarySessionError "session is not live")
  let count ← Tx.query fun c => c.refs.countP fun r => r.owner = temporary
  Tx.require (expected ≤ maxInteger) (temporaryRefsError "expected unique reference count is too large")
  Tx.require (count = expected)
    (temporaryRefsError "admitted unique reference count did not match the expected batch")
  match ← Tx.query (firstInactive · temporary) with
  | some o => Tx.check (.error (.notActive o.hash.text o.state.asStr))
  | none => pure ()
  let hashes ← Tx.query fun c => (c.refs.filter fun r => r.owner = temporary).map (·.hash)
  Catalog.insertRefs (hashes.map fun hash => ⟨final, hash, now⟩)
  let promoted ← Catalog.deleteRefs fun r => r.owner = temporary
  Tx.require (promoted ≠ 0 ∧ promoted = expected)
    (.incompatibleCatalog "temporary owner promotion count changed inside one transaction")
  let removed ← Catalog.deleteTemporarySessions fun s => s.owner = temporary
  Tx.require (removed = 1)
    (.incompatibleCatalog "temporary owner session disappeared during promotion")
  pure promoted

def commitTemporaryOwnerRefs (temporary final : AssetOwner) (expected : Nat) : Op Nat := do
  ofExcept (validateOwner temporary)
  ofExcept (validateOwner final)
  ofExcept (ensure (temporary.ownerType ≠ final.ownerType)
    (.invalidInput "temporary owner" "temporary and final owner types must differ"))
  ofExcept (ensure (expected ≠ 0)
    (temporaryRefsError "expected unique reference count must be greater than zero"))
  let now ← nowMs
  execute (commitTemporaryOwnerWrites temporary final expected now)

/-- Some owner other than `owner` refers to the hash. -/
def hasOtherReference (c : Catalog) (owner : AssetOwner) (hash : AssetHash) : Bool :=
  c.refs.any fun r => r.hash = hash ∧ r.owner ≠ owner

/-- The object is active and only `owner` refers to it. -/
def removable (c : Catalog) (owner : AssetOwner) (hash : AssetHash) : Bool :=
  ((c.object? hash).any fun o => o.state = .active) && !hasOtherReference c owner hash

/-- The steps of one round of a rollback on the files: an object that only the temporary
owner refers to is unlinked. -/
def unlinkOwned (owner : AssetOwner) (hash : AssetHash) : Op Bool := do
  let orphaned ← query fun c => removable c owner hash
  if orphaned then
    match ← (removeObject (relativeObjectPath hash)).attempt with
    | .ok () => sync
    | .error (.io .notFound) => pure ()
    | .error e => fail e
  pure orphaned

/-- The writes of one round of a rollback; the number of objects removed. -/
def forgetOwned (owner : AssetOwner) (hash : AssetHash) (orphaned : Bool) : Sql Nat := do
  let _ ← Catalog.deleteRefs fun r => r.owner = owner ∧ r.hash = hash
  if orphaned then do
    let referenced ← Tx.query (·.referenced hash)
    Catalog.deleteObjects fun o => o.hash = hash && !referenced
  else pure 0

/-- The next hash `owner` refers to. -/
def nextOwned (c : Catalog) (owner : AssetOwner) : Option AssetHash :=
  ((Catalog.page (·.hash.text) none 1 (c.refs.filter fun r => r.owner = owner)).head?).map (·.hash)

/-- One round of `rollback_temporary_owner_locked`; the end of the loop is `some`. -/
def rollbackRound (task : Nat) (owner : AssetOwner) : Op (Option Unit) := do
  match ← query (nextOwned · owner) with
  | none => pure (some ())
  | some hash => do
    let _ ← transaction task (unlinkOwned owner hash) (forgetOwned owner hash)
    pure none

/-- `rollback_temporary_owner_locked`. The count of removed objects is not modelled. -/
def rollbackTemporaryOwnerLocked (task : Nat) (owner : AssetOwner) : Op Unit := do
  repeatUntil (rollbackRound task owner)
  let _ ← execute (Catalog.deleteTemporarySessions fun s => s.owner = owner)

def rollbackTemporaryOwner (task : Nat) (owner : AssetOwner) : Op Unit := do
  ofExcept (validateOwner owner)
  rollbackTemporaryOwnerLocked task owner

/-- The next owner whose lease has expired, or that holds references without a lease; the
flag is whether it has a lease. -/
def recoveryCandidate (c : Catalog) (ownerType : String) (staleBefore : Nat) :
    Option (String × Bool) :=
  let expired := (c.temporarySessions.filter fun s =>
    s.owner.ownerType = ownerType && s.leaseUpdatedAtMs < staleBefore).map fun s => (s.owner.ownerId, true)
  let orphaned := (c.refs.filter fun r =>
    r.owner.ownerType = ownerType && !c.temporarySessions.any fun s => s.owner = r.owner).map
      fun r => (r.owner.ownerId, false)
  (Catalog.page Prod.fst none 1 (expired ++ orphaned)).head?

/-- The transaction that claims a session; `none` ends the recovery, `some none` tries
again. -/
def claimCandidate (ownerType : String) (staleBefore : Nat) : Sql (Option (Option AssetOwner)) := do
  match ← Tx.query (recoveryCandidate · ownerType staleBefore) with
  | none => pure none
  | some (ownerId, hasLease) =>
    let owner : AssetOwner := ⟨ownerType, ownerId⟩
    if hasLease then do
      let claimed ← Catalog.deleteTemporarySessions fun s =>
        s.owner = owner && s.leaseUpdatedAtMs < staleBefore
      pure (if claimed = 1 then some (some owner) else some none)
    else pure (some (some owner))

/-- One round of the loop of `recover_temporary_owner_type_before`. -/
def recoverRound (task : Nat) (ownerType : String) (staleBefore : Nat) : Op (Option Unit) := do
  match ← execute (claimCandidate ownerType staleBefore) with
  | none => pure (some ())
  | some none => pure none
  | some (some owner) => do
    ofExcept (validateOwner owner)
    rollbackTemporaryOwnerLocked task owner
    pure none

def recoverTemporaryOwnerTypeBefore (task : Nat) (ownerType : String) (staleBefore : Int) :
    Op Unit := do
  ofExcept (ensure (0 ≤ staleBefore)
    (.invalidInput "temporary owner stale cutoff" "must be non-negative milliseconds since epoch"))
  ofExcept (validateOwner ⟨ownerType, "recovery-probe"⟩)
  repeatUntil (recoverRound task ownerType staleBefore.toNat)

def recoverTemporaryOwnerType (task : Nat) (ownerType : String) : Op Unit := do
  let now ← nowMs
  recoverTemporaryOwnerTypeBefore task ownerType (now - temporaryOwnerLeaseTimeoutMs)

def recoverOwnerTypes (task : Nat) (cutoff : Int) : List String → Op Unit
  | [] => pure ()
  | ownerType :: rest => do
    recoverTemporaryOwnerTypeBefore task ownerType cutoff
    recoverOwnerTypes task cutoff rest

def expiredOwnerTypes (c : Catalog) (cutoff : Int) : List String :=
  Catalog.page id none maxTemporaryOwnerSessions
    ((c.temporarySessions.filter fun s => s.leaseUpdatedAtMs < cutoff).map (·.owner.ownerType)).dedup

def recoverExpiredTemporaryOwnerSessions (task : Nat) : Op Unit := do
  let now ← nowMs
  let cutoff : Int := now - temporaryOwnerLeaseTimeoutMs
  let ownerTypes ← query (expiredOwnerTypes · cutoff)
  recoverOwnerTypes task cutoff ownerTypes

/-! ## Reconciliation (store.rs:78–127, 1196–1306, 1466–1528) -/

inductive FindingKind where
  | missing
  | corrupt
  | restored
  | metadataPathRepaired
  | filesystemOrphanQuarantined
  | invalidEntryQuarantined
  | unsafeEntry
  deriving DecidableEq

structure ReconcileFinding where
  hash : Option AssetHash
  kind : FindingKind
  detail : String
  deriving DecidableEq

/-- What opening an object's file finds. -/
inductive Opened where
  | missing
  | unsafeEntry
  | file (data : FileData)
  deriving DecidableEq

/-- `open_file` as the reconciliations take its errors. -/
def openForReconcile (path : ObjectPath) : Op Opened := do
  match ← (openObject path).attempt with
  | .ok none => pure .missing
  | .ok (some data) => pure (.file data)
  | .error (.unsafeFilesystem _) => pure .unsafeEntry
  | .error e => fail e

def repairObjectPath (object : AssetObject) : Op (List ReconcileFinding) :=
  if object.relativePath ≠ relativeObjectPath object.hash then do
    execute (Catalog.repairPath object.hash (relativeObjectPath object.hash))
    pure [⟨some object.hash, .metadataPathRepaired,
      "catalog path was reset to the hash-derived locator"⟩]
  else pure []

/-- `UPDATE asset_objects SET state = 'active', quarantine_name = NULL, verified_at_ms`. -/
def restoreObject (hash : AssetHash) (now : Nat) : Sql Unit := do
  let _ ← Catalog.updateObjects (fun o => o.hash = hash)
    fun o => { o with state := .active, verifiedAtMs := now }

/-- `reconcile_catalog_page`, the check of one object's file. -/
def reconcileFile (store : AssetStore) (now : Nat) (object : AssetObject) :
    Op (List ReconcileFinding) := do
  match ← openForReconcile (relativeObjectPath object.hash) with
  | .missing =>
    if object.state ≠ .missing then do
      execute (Catalog.setState object.hash .missing)
      pure [⟨some object.hash, .missing, "catalogue entry has no object file"⟩]
    else pure []
  | .unsafeEntry =>
    pure [⟨some object.hash, .unsafeEntry, "object locator is not a regular no-follow file"⟩]
  | .file data => do
    let actual ← hashOpenFile store data
    if actual ≠ (object.hash, object.size) then do
      let _ ← quarantineFile (relativeObjectPath object.hash) (some object.hash)
        .catalogMismatch now
      pure [⟨some object.hash, .corrupt, "corrupt object moved to quarantine"⟩]
    else do
      execute (restoreObject object.hash now)
      pure (if object.state ≠ .active then
        [⟨some object.hash, .restored, "valid object file restored the active state"⟩] else [])

def reconcileObjects (store : AssetStore) (now : Nat) :
    List AssetObject → Op (List ReconcileFinding)
  | [] => pure []
  | object :: rest => do
    heed
    let repaired ← repairObjectPath object
    let found ← reconcileFile store now object
    let findings ← reconcileObjects store now rest
    pure (repaired ++ found ++ findings)

structure ReconcilePage where
  checked : Nat
  findings : List ReconcileFinding
  nextCursor : Option AssetHash
  deriving DecidableEq

/-- `reconcile_catalog_page`. It reads one row more than it checks, as far as a page
reaches. -/
def reconcileCatalogPage (store : AssetStore) (after : Option AssetHash) (limit : Nat) :
    Op ReconcilePage := do
  ofExcept (validatePageSize limit)
  let fetch := min (limit + 1) maxPageSize
  let rows ← query fun c => Catalog.page (·.hash.text) (after.map (·.text)) (fetch + 1) c.objects
  let objects := (rows.take fetch).take limit
  let hasMore := decide (limit < (rows.take fetch).length) || decide (fetch < rows.length)
  let now ← nowMs
  let findings ← reconcileObjects store now objects
  pure ⟨objects.length, findings, if hasMore then objects.getLast?.map (·.hash) else none⟩

/-- A name in a listing: its text, and whether that is the name itself or only the nearest
text to a name that is not UTF-8. -/
structure DirEntry where
  name : String
  utf8 : Bool
  deriving DecidableEq

def namedHash (name : String) : Option AssetHash := (AssetHash.parse name).toOption

def isExpectedHash (shard name : String) : Bool :=
  (namedHash name).any fun h => shard.toList.isPrefixOf h.text.toList

def shardPath (shard name : String) : ObjectPath := ⟨shardFirst shard, shardSecond shard, name⟩

/-- The catalog has a row for the file, which is where that row's object belongs. -/
def catalogued (shard name : String) : Op Bool :=
  match if isExpectedHash shard name then namedHash name else none with
  | some h => query fun c => (c.object? h).isSome
  | none => pure false

def reconcileShardEntry (shard : String) (entry : DirEntry) (now : Nat) :
    Op (Option ReconcileFinding) :=
  if entry.utf8 then do
    match ← openForReconcile (shardPath shard entry.name) with
    | .missing => pure none
    | .unsafeEntry =>
      pure (some ⟨none, .unsafeEntry, "unsafe entry left untouched: " ++ entry.name⟩)
    | .file _ => do
      if ← catalogued shard entry.name then pure none
      else do
        let expected := isExpectedHash shard entry.name
        let reason : QuarantineReason := if expected then .noCatalogRow else .invalidName
        let _ ← quarantineFile (shardPath shard entry.name) (namedHash entry.name) reason now
        pure (some ⟨namedHash entry.name,
          if expected then .filesystemOrphanQuarantined else .invalidEntryQuarantined, reason.text⟩)
  else pure (some ⟨none, .unsafeEntry, "non-UTF-8 shard entry left untouched"⟩)

/-- A `ShardReconciler`: the entries it has not examined yet. The source lists the directory
page by page; here `pending` is everything the listing will return. -/
structure ShardReconciler where
  shard : String
  pending : List DirEntry
  deriving DecidableEq

/-- `begin_shard_reconciliation`; the listing is what `read_dir` returns. -/
def beginShardReconciliation (shard : String) (listing : List DirEntry) : Op ShardReconciler := do
  ofExcept (validateShard shard)
  sync
  pure ⟨shard, listing⟩

/-- The loop of `next_page`. The entry at the front is popped once it is examined, so an
error leaves it there: the entries left are the second part of the result. -/
def examineEntries (shard : String) (now : Nat) :
    Nat → List DirEntry → Op (Except AssetError (List ReconcileFinding) × List DirEntry)
  | 0, pending => pure (.ok [], pending)
  | _ + 1, [] => pure (.ok [], [])
  | n + 1, entry :: rest => do
    match ← heed.attempt with
    | .error e => pure (.error e, entry :: rest)
    | .ok () =>
      match ← (reconcileShardEntry shard entry now).attempt with
      | .error e => pure (.error e, entry :: rest)
      | .ok finding => do
        let (findings, left) ← examineEntries shard now n rest
        pure (findings.map (finding.toList ++ ·), left)

structure ShardReconcilePage where
  examined : Nat
  findings : List ReconcileFinding
  nextCursor : Option String
  hasMore : Bool
  deriving DecidableEq

/-- The page after the entries of `pending` up to `left` have been examined. -/
def shardPage (pending left : List DirEntry) (findings : List ReconcileFinding) :
    ShardReconcilePage :=
  let examined := pending.length - left.length
  let hasMore := !left.isEmpty
  ⟨examined, findings, if hasMore then (pending.take examined).getLast?.map (·.name) else none,
    hasMore⟩

/-- `next_page`; the reply and the reconciler it leaves. -/
def nextPage (r : ShardReconciler) (limit : Nat) :
    Op (Except AssetError ShardReconcilePage × ShardReconciler) := do
  match ← (do
      ofExcept (validatePageSize limit)
      sync
      nowMs : Op Nat).attempt with
  | .error e => pure (.error e, r)
  | .ok now => do
    let (findings, left) ← examineEntries r.shard now limit r.pending
    pure (findings.map (shardPage r.pending left), { r with pending := left })

/-! ## Sweeping and cleaning (store.rs:1308–1436, 1530–1616) -/

def orphan (c : Catalog) (before : Nat) (o : AssetObject) : Bool :=
  o.createdAtMs ≤ before && !c.referenced o.hash

def unlinkOrphan (hash : AssetHash) (before : Nat) : Op Bool := do
  let remainsOrphan ← query fun c => c.objects.any fun o => o.hash = hash && orphan c before o
  if remainsOrphan then
    match ← openObject (relativeObjectPath hash) with
    | some _ => do
      removeObject (relativeObjectPath hash)
      sync
    | none => pure ()
  pure remainsOrphan

/-- `DELETE FROM asset_objects WHERE hash AND NOT EXISTS(reference)`. -/
def forgetOrphan (hash : AssetHash) (orphaned : Bool) : Sql Bool := do
  if orphaned then do
    let referenced ← Tx.query (·.referenced hash)
    let _ ← Catalog.deleteObjects fun o => o.hash = hash && !referenced
  pure orphaned

def sweepHashes (task : Nat) (before : Nat) : List AssetHash → Op (List AssetHash)
  | [] => pure []
  | hash :: rest => do
    heed
    let gone ← transaction task (unlinkOrphan hash before) (forgetOrphan hash)
    let removed ← sweepHashes task before rest
    pure (if gone then hash :: removed else removed)

structure MarkSweepPage where
  removed : List AssetHash
  nextCursor : Option AssetHash
  deriving DecidableEq

def markSweepPage (task : Nat) (after : Option AssetHash) (limit : Nat) (orphanedBefore : Int) :
    Op MarkSweepPage := do
  ofExcept (validatePageSize limit)
  ofExcept (ensure (0 ≤ orphanedBefore) (.invalidInput "orphan cutoff" "must not be negative"))
  let before := orphanedBefore.toNat
  let rows ← query fun c =>
    Catalog.page (·.hash.text) (after.map (·.text)) (limit + 1) (c.objects.filter (orphan c before))
  let hashes := (rows.take limit).map (·.hash)
  let removed ← sweepHashes task before hashes
  pure ⟨removed, if limit < rows.length then hashes.getLast? else none⟩

structure CleanupPage where
  removedNames : List String
  nextCursor : Option String
  deriving DecidableEq

/-- One file of `cleanup_staging_page`. -/
def cleanupStagingFile (name : String) : Op Unit := do
  ofExcept (validateInternalName name)
  match ← openStaged name with
  | some _ => do
    removeStaged name
    sync
  | none => sync
  execute (Catalog.deleteStaging name)

/-- One file of `purge_quarantine_page`. -/
def purgeNamed (name : String) : Op Unit := do
  ofExcept (validateInternalName name)
  purgeQuarantineFile name

def forEachName (clean : String → Op Unit) : List String → Op Unit
  | [] => pure ()
  | name :: rest => do
    clean name
    forEachName clean rest

/-- `cleanup_internal`: the two tables differ in where the names are read and in what is
done with each. -/
def cleanupInternal (names : Catalog → Nat → List String) (clean : String → Op Unit)
    (after : Option String) (limit : Nat) (createdBefore : Int) : Op CleanupPage := do
  ofExcept (validatePageSize limit)
  ofExcept (ensure (0 ≤ createdBefore) (.invalidInput "cleanup cutoff" "must not be negative"))
  let rows ← query fun c => Catalog.page id after (limit + 1) (names c createdBefore.toNat)
  let names := rows.take limit
  forEachName clean names
  pure ⟨names, if limit < rows.length then names.getLast? else none⟩

def stagingNames (c : Catalog) (before : Nat) : List String :=
  (c.staging.filter fun r => r.createdAtMs ≤ before).map (·.name)

def quarantineNames (c : Catalog) (before : Nat) : List String :=
  (c.quarantine.filter fun r => r.createdAtMs ≤ before).map (·.name)

def cleanupStagingPage (after : Option String) (limit : Nat) (createdBefore : Int) :
    Op CleanupPage :=
  cleanupInternal stagingNames cleanupStagingFile after limit createdBefore

def purgeQuarantinePage (after : Option String) (limit : Nat) (createdBefore : Int) :
    Op CleanupPage :=
  cleanupInternal quarantineNames purgeNamed after limit createdBefore

/-! ## Backup snapshots (store.rs:171–411) -/

def releasePins (sessionId : String) : Sql Nat :=
  Catalog.deleteRefs fun r => r.owner = ⟨backupOwnerType, sessionId⟩

/-- `ORDER BY lease_updated_at_ms, session_id`. -/
def leaseOrder (a b : BackupSession) : Prop :=
  a.leaseUpdatedAtMs < b.leaseUpdatedAtMs ∨
    a.leaseUpdatedAtMs = b.leaseUpdatedAtMs ∧ a.sessionId ≤ b.sessionId

instance : DecidableRel leaseOrder := fun _ _ => inferInstanceAs (Decidable (_ ∨ _))

def staleSessions (c : Catalog) (staleBefore : Int) (limit : Nat) : List String :=
  (((c.backupSessions.filter fun s => s.leaseUpdatedAtMs ≤ staleBefore).insertionSort
    leaseOrder).take limit).map (·.sessionId)

/-- Delete the sessions with their pins; the number of pins, a number of rows, for which the
source's check against overflow cannot fail. -/
def dropSessions : List String → Nat → Sql Nat
  | [], released => pure released
  | sessionId :: rest, released => do
    let removed ← releasePins sessionId
    Catalog.deleteBackupSession sessionId
    dropSessions rest (released + removed)

structure BackupSnapshotCleanup where
  removedSessions : List String
  releasedPins : Nat
  deriving DecidableEq

/-- `cleanup_stale_backup_sessions_in_transaction`. -/
def cleanupStaleBackupSessions (staleBefore : Int) (limit : Nat) : Sql BackupSnapshotCleanup := do
  let sessions ← Tx.query (staleSessions · staleBefore limit)
  let released ← dropSessions sessions 0
  pure ⟨sessions, released⟩

def cleanupStaleBackupSnapshots (staleBefore : Int) (limit : Nat) : Op BackupSnapshotCleanup := do
  ofExcept (ensure (0 ≤ staleBefore)
    (.invalidInput "backup snapshot stale cutoff" "must be non-negative milliseconds since epoch"))
  ofExcept (ensure (limit ≠ 0 ∧ limit ≤ maxBackupSnapshotSessions)
    (.invalidInput "backup snapshot cleanup limit" "must be between 1 and 128"))
  execute (cleanupStaleBackupSessions staleBefore limit)

def cleanupExpiredBackupSnapshots : Op BackupSnapshotCleanup := do
  let now ← nowMs
  cleanupStaleBackupSnapshots (now - backupSnapshotLeaseTimeoutMs) maxBackupSnapshotSessions

/-- The transaction of `begin_backup_snapshot`: every active object is pinned. -/
def pinActiveObjects (sessionId : String) (now : Nat) : Sql Unit := do
  let _ ← cleanupStaleBackupSessions (now - backupSnapshotLeaseTimeoutMs) maxBackupSnapshotSessions
  let exists? ← Tx.query fun c => c.backupSessions.any fun s => s.sessionId = sessionId
  if exists? then do
    let _ ← Catalog.renewBackupSession sessionId now
    let _ ← releasePins sessionId
  else do
    let live ← Tx.query (·.backupSessions.length)
    Tx.require (live < maxBackupSnapshotSessions)
      (.invalidInput "backup snapshot session" "live session limit of 128 has been reached")
    Catalog.insertBackupSession ⟨sessionId, now, now⟩
  let active ← Tx.query fun c => (c.objects.filter fun o => o.state = .active).map (·.hash)
  Catalog.insertRefs (active.map fun hash => ⟨⟨backupOwnerType, sessionId⟩, hash, now⟩)

/-- What is deleted from the copy of the catalog: backup leases and temporary owners. -/
def scrubSnapshot : Sql Unit := do
  let _ ← Catalog.deleteRefs fun r => r.owner.ownerType = backupOwnerType
  Tx.execute fun c => { c with backupSessions := [] }
  let sessions ← Tx.query (·.temporarySessions)
  let _ ← Catalog.deleteRefs fun r =>
    r.owner.ownerType = importTemporaryOwnerType || sessions.any fun s => s.owner = r.owner
  Tx.execute fun c => { c with temporarySessions := [] }

/-- `abandon_backup_snapshot_on_connection`. -/
def abandonWrites (sessionId : String) : Sql Nat := do
  let removed ← releasePins sessionId
  Catalog.deleteBackupSession sessionId
  pure removed

/-- The copy of the catalog through SQLite's backup API, and its scrubbing. -/
def copySnapshot : Op Catalog := do
  match ← heed.attempt with
  | .ok () => pure ()
  | .error _ => fail .snapshotCancelled
  let copy ← query id
  sync
  match scrubSnapshot.commit copy with
  | (.ok (), scrubbed) => pure scrubbed
  | (.error e, _) => fail e

/-- `begin_backup_snapshot`; the catalog of the snapshot file. -/
def beginBackupSnapshot (sessionId : String) : Op Catalog := do
  ofExcept (validateBackupSessionId sessionId)
  let now ← nowMs
  execute (pinActiveObjects sessionId now)
  match ← copySnapshot.attempt with
  | .ok snapshot => pure snapshot
  | .error e => do
    let _ ← execute (abandonWrites sessionId)
    fail e

/-- `renew_backup_snapshot`; the number of pins and the lease. -/
def renewBackupSnapshot (sessionId : String) : Op (Option (Nat × Nat)) := do
  ofExcept (validateBackupSessionId sessionId)
  let now ← nowMs
  execute do
    let updated ← Catalog.renewBackupSession sessionId now
    if updated = 0 then pure none
    else Tx.query fun c =>
      (c.backupSessions.find? fun s => s.sessionId = sessionId).map fun s =>
        (c.refs.countP fun r => r.owner = ⟨backupOwnerType, sessionId⟩, s.leaseUpdatedAtMs)

/-- `abandon_backup_snapshot`, and `release_backup_snapshot`. -/
def abandonBackupSnapshot (sessionId : String) : Op Nat := do
  ofExcept (validateBackupSessionId sessionId)
  execute (abandonWrites sessionId)

/-! ## Opening a store (store.rs:130–167) -/

/-- The first part of `AssetStore::open`: the audit of the ledger and the recovery of the
quarantine. What follows it only ends leases. -/
def openRecovered : Op Unit := do
  sync
  match ← query Catalog.verifyDerivedTotals with
  | .ok _ => pure ()
  | .error e => fail e
  recoverQuarantineIntents

/-- `AssetStore::open` on a root whose catalog has the current schema. -/
def openStore (task : Nat) : Op Unit := do
  openRecovered
  let _ ← cleanupExpiredBackupSnapshots
  recoverExpiredTemporaryOwnerSessions task

/-! ## A store for examples -/

namespace Sample

def hashOf (digit : Char) (h : lowerHex 64 (String.ofList (List.replicate 64 digit)) = true) :
    AssetHash :=
  ⟨_, h⟩

def hashA : AssetHash := hashOf 'a' (by decide)
def hashB : AssetHash := hashOf 'b' (by decide)

/-- Two contents with two hashes, and room for one and a half of them. -/
def store : AssetStore where
  env := {
    sha256 := fun bytes => if bytes = [1, 1] then hashA else hashB
    validateMime := fun declared _ _ _ => .ok declared }
  limits := ⟨2, 3, by decide, by decide, by decide⟩

def request : IngestRequest := ⟨.png, none, none⟩

def files : Files := ⟨fun _ => none, fun _ => none, fun _ => none, 0⟩

end Sample

end Lorepia.Assets
