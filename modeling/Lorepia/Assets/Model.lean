import Mathlib
import Lorepia.Lib.Tx
import Lorepia.Lib.Table

/-!
# The asset catalog (`catalog.rs`, `model.rs`)

The catalog is a SQLite database: one table for the objects, one for the references to
them, the staging and quarantine files, the quarantine intents, two tables of leases,
and the single row `asset_totals` that row triggers keep up to date. A statement is a
transaction (`Lib/Tx`) on these tables; it fires the triggers row by row and fails as a
whole when a `CHECK`, a key or a foreign key is violated.

`quarantine_name` is set exactly in state `quarantined`, so the state carries it; the
source path of an intent is present exactly for a move, so the operation carries it. A
path of the object tree is the pair of its shard directories and its file name: file
names have no separator, so the text of a path and its parts determine each other.
-/

namespace Lorepia.Assets

abbrev Bytes := List UInt8

/-! ## Constants -/

def maxOwnerTypeBytes : Nat := 64
def maxOwnerIdBytes : Nat := 512
def maxSourceNameBytes : Nat := 4096
def maxPageSize : Nat := 1000
def backupSnapshotLeaseTimeoutMs : Int := 24 * 60 * 60 * 1000
def maxBackupSnapshotSessions : Nat := 128
def temporaryOwnerLeaseTimeoutMs : Int := 24 * 60 * 60 * 1000
def maxTemporaryOwnerSessions : Nat := 128
def backupOwnerType : String := "lorepia-backup"
def importTemporaryOwnerType : String := "lorepia-import-session"

/-- `i64::MAX`, the largest INTEGER of the catalog. -/
def maxInteger : Int := 2 ^ 63 - 1

/-- `u64::MAX`. -/
def maxUnsigned : Nat := 2 ^ 64 - 1

/-! ## Errors (error.rs) -/

inductive IoKind where
  | notFound
  | alreadyExists
  | other
  deriving DecidableEq

/-- The errors of the store, without the paths in their messages. -/
inductive AssetError where
  | io (kind : IoKind)
  | database
  | invalidInput (field reason : String)
  | notFound (hash : String)
  | notActive (hash state : String)
  | mimeMismatch (declared detected : String)
  | unsupportedContent
  | limitExceeded (limitName : String) (limit : Nat)
  | cancelled
  | unsafeFilesystem (reason : String)
  | incompatibleCatalog (reason : String)
  | snapshotCancelled
  | hashMetadataConflict (hash : String)
  deriving DecidableEq

/-! ## Hashes, names and paths -/

def isLowerHex (c : Char) : Bool := c.isDigit || ('a' ≤ c && c ≤ 'f')

/-- `n` lowercase hexadecimal characters. -/
def lowerHex (n : Nat) (s : String) : Bool := s.toList.length == n && s.toList.all isLowerHex

structure AssetHash where
  text : String
  valid : lowerHex 64 text = true
  deriving DecidableEq

def AssetHash.parse (value : String) : Except AssetError AssetHash :=
  if h : lowerHex 64 value = true then .ok ⟨value, h⟩
  else .error (.invalidInput "asset hash" "must be exactly 64 lowercase hexadecimal characters")

/-- `objects/<first>/<second>/<name>`. -/
structure ObjectPath where
  first : String
  second : String
  name : String
  deriving DecidableEq

/-- The directories `s[..2]` and `s[2..4]` of a shard. -/
def shardFirst (s : String) : String := String.ofList (s.toList.take 2)
def shardSecond (s : String) : String := String.ofList ((s.toList.drop 2).take 2)

def relativeObjectPath (hash : AssetHash) : ObjectPath :=
  ⟨shardFirst hash.text, shardSecond hash.text, hash.text⟩

def validateShard (shard : String) : Except AssetError Unit :=
  ensure (lowerHex 4 shard = true)
    (.invalidInput "object shard" "must be four lowercase hexadecimal characters")

def validateInternalName (name : String) : Except AssetError Unit :=
  ensure (name ≠ "" ∧ name.toList.length ≤ 160 ∧
      name.toList.all (fun c => c.isLower || c.isDigit || c == '-' || c == '.') = true)
    (.invalidInput "internal filename" "contains unsafe characters")

def validateObjectRelativePath (path : ObjectPath) : Except AssetError Unit := do
  match validateShard (path.first ++ path.second) with
  | .ok () => pure ()
  | .error _ =>
    .error (.incompatibleCatalog "quarantine intent has an invalid object shard")
  match validateInternalName path.name with
  | .ok () => pure ()
  | .error _ =>
    .error (.incompatibleCatalog "quarantine intent has an invalid object filename")

def validatePageSize (limit : Nat) : Except AssetError Unit :=
  ensure (limit ≠ 0 ∧ limit ≤ maxPageSize) (.invalidInput "page size" "must be between 1 and 1000")

def validateBackupSessionId (value : String) : Except AssetError Unit :=
  ensure (lowerHex 32 value = true)
    (.invalidInput "backup session id" "must be exactly 32 lowercase hexadecimal characters")

/-! ## Owners and requests (model.rs) -/

structure AssetOwner where
  ownerType : String
  ownerId : String
  deriving DecidableEq

def validateOwnerType (value : String) : Except AssetError Unit := do
  ensure (value ≠ "" ∧ value.utf8ByteSize ≤ maxOwnerTypeBytes)
    (.invalidInput "owner type" "must be between 1 and 64 bytes")
  ensure (value.toList.all
      (fun c => c.isLower || c.isDigit || c == '_' || c == '-' || c == '.') = true)
    (.invalidInput "owner type"
      "must use lowercase ASCII letters, digits, dot, dash, or underscore")

def validateOwnerId (value : String) : Except AssetError Unit := do
  ensure (value ≠ "" ∧ value.utf8ByteSize ≤ maxOwnerIdBytes)
    (.invalidInput "owner id" "must be between 1 and 512 bytes")
  ensure ('\x00' ∉ value.toList) (.invalidInput "owner id" "must not contain NUL")

def validateOwner (owner : AssetOwner) : Except AssetError Unit := do
  validateOwnerType owner.ownerType
  validateOwnerId owner.ownerId

inductive AssetMime where
  | png | jpeg | webP | gif | wav | mp3 | ogg | flac
  deriving DecidableEq

structure IngestRequest where
  declaredMime : AssetMime
  sourceName : Option String
  owner : Option AssetOwner
  deriving DecidableEq

def validateRequest (request : IngestRequest) : Except AssetError Unit := do
  checkSome (fun name => ensure (name.utf8ByteSize ≤ maxSourceNameBytes ∧ '\x00' ∉ name.toList)
    (.invalidInput "source name" "must be at most 4096 bytes and contain no NUL"))
    request.sourceName
  checkSome validateOwner request.owner

/-- The limits of a store. `AssetLimits::new` is the only constructor, so its checks are
fields. -/
structure AssetLimits where
  maxObjectBytes : Nat
  maxTotalBytes : Nat
  positive : 0 < maxObjectBytes
  fits : maxObjectBytes ≤ maxTotalBytes
  bounded : maxTotalBytes ≤ maxInteger

/-- SHA-256, and `mime::validate` of the declared type, the first and the last bytes and
the size of a file. -/
structure Env where
  sha256 : Bytes → AssetHash
  validateMime : AssetMime → Bytes → Bytes → Nat → Except AssetError AssetMime

/-- An opened store. -/
structure AssetStore where
  env : Env
  limits : AssetLimits

/-! ## Tables -/

inductive AssetState where
  | active
  | missing
  | quarantined (name : String)
  deriving DecidableEq

def AssetState.asStr : AssetState → String
  | .active => "active"
  | .missing => "missing"
  | .quarantined _ => "quarantined"

structure AssetObject where
  hash : AssetHash
  size : Nat
  mime : AssetMime
  relativePath : ObjectPath
  state : AssetState
  verifiedAtMs : Nat
  createdAtMs : Nat
  deriving DecidableEq

structure AssetRef where
  owner : AssetOwner
  hash : AssetHash
  createdAtMs : Nat
  deriving DecidableEq

/-- A row of `asset_staging`. The table has no column `task`: it is the call that inserted
the row, which no statement reads and only proofs speak of. -/
structure StagingRow where
  name : String
  createdAtMs : Nat
  task : Nat
  deriving DecidableEq

/-- The reasons a store writes for a quarantine. -/
inductive QuarantineReason where
  | pathMismatch
  | catalogMismatch
  | noCatalogRow
  | invalidName
  deriving DecidableEq

def QuarantineReason.text : QuarantineReason → String
  | .pathMismatch => "object path content did not match its hash"
  | .catalogMismatch => "catalog hash or size mismatch"
  | .noCatalogRow => "filesystem object has no catalog row"
  | .invalidName => "object shard contains an invalid filename"

structure QuarantineRow where
  name : String
  originalHash : Option AssetHash
  reason : QuarantineReason
  createdAtMs : Nat
  deriving DecidableEq

inductive QuarantineOperation where
  | move (source : ObjectPath)
  | purge
  deriving DecidableEq

inductive QuarantinePhase where
  | prepared
  | moved
  deriving DecidableEq

structure QuarantineIntent where
  name : String
  operation : QuarantineOperation
  phase : QuarantinePhase
  originalHash : Option AssetHash
  reason : QuarantineReason
  createdAtMs : Nat
  deriving DecidableEq

/-- `decode_quarantine_intent`. A row that violates the contract is reported as an error of
the database. -/
def decodeQuarantineIntent (intent : QuarantineIntent) : Except AssetError QuarantineIntent :=
  let contract : Except AssetError Unit := do
    validateInternalName intent.name
    match intent.operation with
    | .move source => validateObjectRelativePath source
    | .purge => pure ()
    ensure (intent.reason.text ≠ "" ∧ intent.reason.text.utf8ByteSize ≤ 256 ∧
        '\x00' ∉ intent.reason.text.toList)
      (.unsafeFilesystem "quarantine intent metadata is outside the bounded contract")
  match contract with
  | .ok () => .ok intent
  | .error _ => .error .database

structure BackupSession where
  sessionId : String
  createdAtMs : Nat
  leaseUpdatedAtMs : Nat
  deriving DecidableEq

structure TemporarySession where
  owner : AssetOwner
  createdAtMs : Nat
  leaseUpdatedAtMs : Nat
  deriving DecidableEq

/-- The row of `asset_totals`. -/
@[ext] structure Totals where
  objectCount : Int
  activeBytes : Int
  referenceCount : Int
  missingCount : Int
  quarantineCount : Int
  stagingCount : Int
  deriving DecidableEq

structure Catalog where
  objects : List AssetObject
  refs : List AssetRef
  staging : List StagingRow
  quarantine : List QuarantineRow
  intents : List QuarantineIntent
  backupSessions : List BackupSession
  temporarySessions : List TemporarySession
  totals : Totals
  deriving DecidableEq

def Totals.zero : Totals := ⟨0, 0, 0, 0, 0, 0⟩

/-- The catalog `create_schema` makes. -/
def Catalog.empty : Catalog := ⟨[], [], [], [], [], [], [], .zero⟩

/-! ## Triggers (catalog.rs:213–287) -/

/-- `CASE WHEN state = 'active' THEN size ELSE 0 END`. -/
def AssetObject.activeSize (o : AssetObject) : Int := if o.state = .active then o.size else 0

/-- `CASE WHEN state = 'missing' THEN 1 ELSE 0 END`. -/
def AssetObject.missingOne (o : AssetObject) : Int := if o.state = .missing then 1 else 0

namespace Totals

def objectInserted (t : Totals) (new : AssetObject) : Totals :=
  { t with
    objectCount := t.objectCount + 1
    activeBytes := t.activeBytes + new.activeSize
    missingCount := t.missingCount + new.missingOne }

def objectUpdated (t : Totals) (old new : AssetObject) : Totals :=
  { t with
    activeBytes := t.activeBytes - old.activeSize + new.activeSize
    missingCount := t.missingCount - old.missingOne + new.missingOne }

def objectDeleted (t : Totals) (old : AssetObject) : Totals :=
  { t with
    objectCount := t.objectCount - 1
    activeBytes := t.activeBytes - old.activeSize
    missingCount := t.missingCount - old.missingOne }

def refInserted (t : Totals) : Totals := { t with referenceCount := t.referenceCount + 1 }

def refDeleted (t : Totals) : Totals := { t with referenceCount := t.referenceCount - 1 }

def stagingInserted (t : Totals) : Totals := { t with stagingCount := t.stagingCount + 1 }

def stagingDeleted (t : Totals) : Totals := { t with stagingCount := t.stagingCount - 1 }

def quarantineInserted (t : Totals) : Totals :=
  { t with quarantineCount := t.quarantineCount + 1 }

def quarantineDeleted (t : Totals) : Totals :=
  { t with quarantineCount := t.quarantineCount - 1 }

/-- The columns are `CHECK`ed non-negative and hold 64-bit integers. A number of rows cannot
leave that range: the largest database SQLite supports has fewer. -/
def InRange (t : Totals) : Prop :=
  0 ≤ t.objectCount ∧ (0 ≤ t.activeBytes ∧ t.activeBytes ≤ maxInteger) ∧
  0 ≤ t.referenceCount ∧ 0 ≤ t.missingCount ∧ 0 ≤ t.quarantineCount ∧ 0 ≤ t.stagingCount

instance (t : Totals) : Decidable t.InRange := inferInstanceAs (Decidable (_ ∧ _))

/-- Write the row, unless that violates a constraint. -/
def checked (t : Totals) : Except AssetError Totals :=
  if t.InRange then .ok t else .error .database

def fire {α : Type} (trigger : Totals → α → Totals) : List α → Totals → Except AssetError Totals
  | [], t => .ok t
  | row :: rows, t => do
    let t ← (trigger t row).checked
    fire trigger rows t

end Totals

/-! ## Statements -/

abbrev Sql (α : Type) := Tx Catalog AssetError α

namespace Catalog

def object? (c : Catalog) (hash : AssetHash) : Option AssetObject :=
  c.objects.find? fun o => o.hash = hash

/-- Some row of `asset_refs` refers to the hash. -/
def referenced (c : Catalog) (hash : AssetHash) : Bool := c.refs.any fun r => r.hash = hash

def insertObject (new : AssetObject) : Sql Unit := fun c => do
  let totals ← (c.totals.objectInserted new).checked
  .ok ((), { c with objects := c.objects ++ [new], totals })

/-- `UPDATE asset_objects SET set WHERE cond`; the number of rows. -/
def updateObjects (cond : AssetObject → Bool) (set : AssetObject → AssetObject) :
    Sql Nat := fun c => do
  let totals ← Totals.fire (fun t o => t.objectUpdated o (set o)) (c.objects.filter cond) c.totals
  .ok (c.objects.countP cond, { c with objects := Table.update cond set c.objects, totals })

/-- `relative_path` is `UNIQUE`. -/
def pathIsFree (c : Catalog) (hash : AssetHash) (path : ObjectPath) : Bool :=
  c.objects.all fun o => o.hash = hash || o.relativePath ≠ path

/-- `INSERT INTO asset_objects ... ON CONFLICT(hash) DO UPDATE`: a row that is there keeps
its time of creation. -/
def upsertObject (new : AssetObject) : Sql Unit := do
  let free ← Tx.query (·.pathIsFree new.hash new.relativePath)
  Tx.require (free = true) .database
  match ← Tx.query (·.object? new.hash) with
  | none => insertObject new
  | some _ => do
    let _ ← updateObjects (fun o => o.hash = new.hash) fun old =>
      { old with
        size := new.size
        mime := new.mime
        relativePath := new.relativePath
        state := new.state
        verifiedAtMs := new.verifiedAtMs }

/-- `UPDATE asset_objects SET relative_path WHERE hash`. -/
def repairPath (hash : AssetHash) (path : ObjectPath) : Sql Unit := do
  let free ← Tx.query (·.pathIsFree hash path)
  Tx.require (free = true) .database
  let _ ← updateObjects (fun o => o.hash = hash) fun o => { o with relativePath := path }

/-- `UPDATE asset_objects SET state, quarantine_name WHERE hash`. -/
def setState (hash : AssetHash) (state : AssetState) : Sql Unit := do
  let _ ← updateObjects (fun o => o.hash = hash) fun o => { o with state }

/-- `DELETE FROM asset_objects`, which cascades to the references. -/
def deleteObjects (cond : AssetObject → Bool) : Sql Nat := fun c => do
  let gone := c.objects.filter cond
  let dangling : AssetRef → Bool := fun r => gone.any fun o => o.hash = r.hash
  let totals ← Totals.fire (fun t _ => t.refDeleted) (c.refs.filter dangling) c.totals
  let totals ← Totals.fire Totals.objectDeleted gone totals
  .ok (gone.length,
    { c with
      objects := c.objects.filter fun o => !cond o
      refs := c.refs.filter fun r => !dangling r
      totals })

/-- `INSERT OR IGNORE INTO asset_refs`; a hash that is not in the catalog violates the
foreign key. -/
def insertRef (new : AssetRef) : Sql Unit := fun c => do
  if c.refs.any fun r => r.owner = new.owner ∧ r.hash = new.hash then
    .ok ((), c)
  else
    ensure (c.objects.any (fun o => o.hash = new.hash) = true) .database
    let totals ← c.totals.refInserted.checked
    .ok ((), { c with refs := c.refs ++ [new], totals })

def insertRefs : List AssetRef → Sql Unit
  | [] => pure ()
  | new :: rest => do
    insertRef new
    insertRefs rest

/-- `DELETE FROM asset_refs`; the number of rows. -/
def deleteRefs (cond : AssetRef → Bool) : Sql Nat := fun c => do
  let totals ← Totals.fire (fun t _ => t.refDeleted) (c.refs.filter cond) c.totals
  .ok (c.refs.countP cond, { c with refs := c.refs.filter fun r => !cond r, totals })

/-- `INSERT OR IGNORE INTO asset_staging`; whether a row was inserted. -/
def insertStaging (new : StagingRow) : Sql Bool := fun c => do
  if c.staging.any fun r => r.name = new.name then
    .ok (false, c)
  else
    let totals ← c.totals.stagingInserted.checked
    .ok (true, { c with staging := c.staging ++ [new], totals })

def deleteStaging (name : String) : Sql Unit := fun c => do
  let cond : StagingRow → Bool := fun r => r.name = name
  let totals ← Totals.fire (fun t _ => t.stagingDeleted) (c.staging.filter cond) c.totals
  .ok ((), { c with staging := c.staging.filter fun r => !cond r, totals })

/-- `INSERT INTO asset_quarantine ... ON CONFLICT(name) DO UPDATE`; no trigger watches
updates of this table. -/
def upsertQuarantine (new : QuarantineRow) : Sql Unit := fun c => do
  if c.quarantine.any fun r => r.name = new.name then
    .ok ((), { c with
      quarantine := Table.update (fun r => r.name = new.name) (fun _ => new) c.quarantine })
  else
    let totals ← c.totals.quarantineInserted.checked
    .ok ((), { c with quarantine := c.quarantine ++ [new], totals })

def deleteQuarantine (name : String) : Sql Unit := fun c => do
  let cond : QuarantineRow → Bool := fun r => r.name = name
  let totals ← Totals.fire (fun t _ => t.quarantineDeleted) (c.quarantine.filter cond) c.totals
  .ok ((), { c with quarantine := c.quarantine.filter fun r => !cond r, totals })

def insertIntent (new : QuarantineIntent) : Sql Unit :=
  Tx.guarded (fun c => c.intents.all (fun i => i.name ≠ new.name) = true) .database
    fun c => { c with intents := c.intents ++ [new] }

/-- `UPDATE asset_quarantine_intents SET phase = 'moved' WHERE name`. -/
def setIntentMoved (name : String) : Sql Unit :=
  Tx.execute fun c => { c with
    intents := Table.update (fun i => i.name = name) (fun i => { i with phase := .moved }) c.intents }

def deleteIntent (name : String) : Sql Unit :=
  Tx.execute fun c => { c with intents := c.intents.filter fun i => i.name ≠ name }

def insertBackupSession (new : BackupSession) : Sql Unit :=
  Tx.guarded (fun c => c.backupSessions.all (fun s => s.sessionId ≠ new.sessionId) = true) .database
    fun c => { c with backupSessions := c.backupSessions ++ [new] }

def renewBackupSession (sessionId : String) (now : Nat) : Sql Nat := fun c =>
  .ok (c.backupSessions.countP fun s => s.sessionId = sessionId,
    { c with
      backupSessions := Table.update (fun s => s.sessionId = sessionId)
        (fun s => { s with leaseUpdatedAtMs := max s.leaseUpdatedAtMs now }) c.backupSessions })

def deleteBackupSession (sessionId : String) : Sql Unit :=
  Tx.execute fun c => { c with
    backupSessions := c.backupSessions.filter fun s => s.sessionId ≠ sessionId }

/-- `INSERT OR IGNORE`; whether a row was inserted. -/
def insertTemporarySession (new : TemporarySession) : Sql Bool := fun c =>
  if c.temporarySessions.any fun s => s.owner = new.owner then .ok (false, c)
  else .ok (true, { c with temporarySessions := c.temporarySessions ++ [new] })

def renewTemporarySession (owner : AssetOwner) (now : Nat) : Sql Nat := fun c =>
  .ok (c.temporarySessions.countP fun s => s.owner = owner,
    { c with
      temporarySessions := Table.update (fun s => s.owner = owner)
        (fun s => { s with leaseUpdatedAtMs := max s.leaseUpdatedAtMs now }) c.temporarySessions })

/-- `DELETE FROM asset_temporary_owner_sessions`; the number of rows. -/
def deleteTemporarySessions (cond : TemporarySession → Bool) : Sql Nat := fun c =>
  .ok (c.temporarySessions.countP cond,
    { c with temporarySessions := c.temporarySessions.filter fun s => !cond s })

/-- `WHERE key > after ORDER BY key LIMIT limit`. -/
def page {α : Type} (key : α → String) (after : Option String) (limit : Nat) (rows : List α) :
    List α :=
  ((rows.filter fun r => after.all fun a => a < key r).insertionSort
    fun a b => key a ≤ key b).take limit

/-! ## The audit (`verify_derived_totals`) -/

def computedTotals (c : Catalog) : Totals where
  objectCount := c.objects.length
  activeBytes := (c.objects.map AssetObject.activeSize).sum
  referenceCount := c.refs.length
  missingCount := (c.objects.map AssetObject.missingOne).sum
  quarantineCount := c.quarantine.length
  stagingCount := c.staging.length

/-- `decode_totals`: a negative value is refused; one beyond 64 bits cannot be computed. -/
def decodeTotals (t : Totals) : Except AssetError Totals := t.checked

def verifyDerivedTotals (c : Catalog) : Except AssetError Totals := do
  let recorded ← decodeTotals c.totals
  let computed ← decodeTotals c.computedTotals
  ensure (recorded = computed)
    (.incompatibleCatalog "quota ledger does not match catalog contents")
  pure recorded

end Catalog

end Lorepia.Assets
