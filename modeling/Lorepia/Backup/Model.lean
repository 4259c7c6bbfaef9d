import Mathlib
import Lorepia.Lib.Interrupt

/-!
# Backups: packages, journals and the disk (`model.rs`, `journal.rs`)

A directory is the finite map from the portable paths of its files to their
contents; its subdirectories are those its paths name. The restore keeps three
directories next to each other, the destination and two hidden siblings, and one
journal file.

A `Package` is one that `load_package_manifest` accepts and whose contents pass
`verify_package_contents`. What these two establish about its manifest is kept in the
structure's proof fields. The hash and the two database validators are parameters
(`Env`): nothing below depends on how they work.
-/

namespace Lorepia.Backup

abbrev Bytes := List UInt8

/-- The files of a directory by their portable relative path. -/
abbrev Tree := Std.ExtTreeMap String Bytes

/-! ## Limits (model.rs:17–24) -/

def maxBackupAssetObjects : Nat := 100000
def copyBufferBytes : Nat := 65536
def spaceReserveBytes : Nat := 1048576

/-! ## Types -/

inductive Operation where
  | exporting
  | restore
  deriving DecidableEq

inductive Phase where
  | prepared
  | productSnapshot
  | assetCatalogSnapshot
  | objects
  | copied
  | verified
  | readyToPublish
  | oldMoved
  | newPublished
  | complete
  deriving DecidableEq

/-- The declaration order, which `PartialOrd` derives. -/
def Phase.rank : Phase → Nat
  | .prepared => 0
  | .productSnapshot => 1
  | .assetCatalogSnapshot => 2
  | .objects => 3
  | .copied => 4
  | .verified => 5
  | .readyToPublish => 6
  | .oldMoved => 7
  | .newPublished => 8
  | .complete => 9

instance : LT Phase := ⟨fun a b => a.rank < b.rank⟩

instance (a b : Phase) : Decidable (a < b) := inferInstanceAs (Decidable (_ < _))

/-- The journal record (model.rs:51–65). Its version is always 1. -/
structure BackupProgress where
  operation : Operation
  sessionId : String
  phase : Phase
  destinationName : String
  sourceManifestSha256 : Option String
  lastVerifiedObjectHash : Option String
  verifiedObjects : Nat
  verifiedBytes : Nat
  requiredBytes : Nat
  availableBytes : Option Nat
  replacedExisting : Bool
  deriving DecidableEq

inductive UnknownSpacePolicy where
  | failClosed
  | proceedWithExplicitUnknown
  deriving DecidableEq

inductive RestorePolicy where
  | failIfPresent
  | replace
  deriving DecidableEq

structure RestoreOptions where
  policy : RestorePolicy
  unknownSpacePolicy : UnknownSpacePolicy
  deriving DecidableEq

/-- The errors of a restore (error.rs). `notFound` is the I/O error of a missing file. -/
inductive BackupError where
  | notFound
  | existingData
  | cancelled
  | insufficientSpace (required available : Nat)
  | freeSpaceUnknown
  | invalidManifest (reason : String)
  | entryMismatch (path kind : String)
  | invalidDatabase (database : String)
  | journalConflict
  | sizeOverflow
  | rollbackFailed
  deriving DecidableEq

structure RestoreReport where
  sessionId : String
  manifestSha256 : String
  restoredBytes : Nat
  replacedExisting : Bool
  resumed : Bool
  deriving DecidableEq

/-! ## Packages -/

/-- SHA-256 and the two database validators. -/
structure Env where
  sha256 : Bytes → String
  validateProductDatabase : Bytes → Bool
  validateAssetCatalog : Bytes → Bool

inductive EntryKind where
  | productDatabase
  | assetCatalog
  | progressReceipt
  | compatibilityReceipt
  | assetObject
  deriving DecidableEq

/-- An entry of the manifest, with the file of the package it names. -/
structure BackupEntry where
  path : String
  kind : EntryKind
  size : Nat
  sha256 : String
  content : Bytes
  deriving DecidableEq

def restoredProductPath : String := "product.sqlite3"
def restoredAssetCatalogPath : String := "assets/assets.sqlite3"

/-- `path.strip_prefix("data/")`. -/
def stripData (path : String) : Option String :=
  if "data/".toList.isPrefixOf path.toList then some (String.ofList (path.toList.drop 5)) else none

/-- The entries below `data/`, with their paths in the restored directory. -/
def dataEntries (entries : List BackupEntry) : List (String × BackupEntry) :=
  entries.filterMap fun entry => (stripData entry.path).map fun path => (path, entry)

/-- `Path::with_extension`, on a path with `/` between its components. -/
def withExtension (path extension : String) : String :=
  let reversed := path.toList.reverse
  let name := reversed.takeWhile (· != '/')
  let directory := reversed.dropWhile (· != '/')
  -- a leading dot does not start an extension
  let stem := (name.dropWhile (· != '.')).drop 1
  String.ofList (directory.reverse ++ (if stem.isEmpty then name else stem).reverse) ++ "." ++
    extension

/-- The name under which `copy_verified` writes a file. -/
def copyingPath (path : String) : String := withExtension path "copying"

def validLowerHex (value : String) (length : Nat) : Bool :=
  value.length == length && value.toList.all fun c => c.isDigit || ('a' ≤ c && c ≤ 'f')

/-- A verified package (restore.rs:286–500). -/
structure Package (env : Env) where
  sessionId : String
  manifestHash : String
  entries : List BackupEntry
  totalEntryBytes : Nat
  /-- How often the catalog comparison and the secret scan consult the observer. -/
  scanPoints : Nat
  session_hex : validLowerHex sessionId 32 = true
  hash_hex : validLowerHex manifestHash 64 = true
  total : totalEntryBytes = (entries.map BackupEntry.size).sum
  /-- `total_entry_bytes` is a `u64`. -/
  total_lt : totalEntryBytes < 2 ^ 64
  entry_hash : ∀ e ∈ entries, env.sha256 e.content = e.sha256
  entry_size : ∀ e ∈ entries, e.content.length = e.size
  entry_hex : ∀ e ∈ entries, validLowerHex e.sha256 64 = true
  objects : entries.countP (fun e => e.kind == .assetObject) ≤ maxBackupAssetObjects
  /-- Strict path order. -/
  ordered : ((dataEntries entries).map Prod.fst).Pairwise fun p q => compare p q = .lt
  /-- The restored files are the two databases and objects named by 64 hexadecimal
  digits, so no name is that of another file's copy in progress. -/
  copying_fresh : ∀ d ∈ dataEntries entries, ∀ d' ∈ dataEntries entries, copyingPath d.1 ≠ d'.1
  product : ∃ d ∈ dataEntries entries, d.1 = restoredProductPath ∧
    env.validateProductDatabase d.2.content = true
  catalog : ∃ d ∈ dataEntries entries, d.1 = restoredAssetCatalogPath ∧
    env.validateAssetCatalog d.2.content = true

def Package.tree {env : Env} (pkg : Package env) : Tree :=
  Std.ExtTreeMap.ofList ((dataEntries pkg.entries).map fun d => (d.1, d.2.content))

/-! ## The disk -/

/-- The journal file, the destination and its two siblings `.restore-partial` and
`.restore-old`. -/
structure Disk where
  journal : Option BackupProgress := none
  destination : Option Tree := none
  staging : Option Tree := none
  old : Option Tree := none
  deriving DecidableEq

/-- What the program is doing when it consults the observer. -/
inductive Activity where
  | announcing
  | checkingPackage
  | reconciling
  | copying
  | checkingStaging
  | finalValidation
  deriving DecidableEq

/-- The atomic actions of a restore, and the cancellations it accepts. -/
inductive Event where
  | removeStaging
  | recoverOld
  | makeStaging
  | writeJournal
  | stageFile
  | moveOld
  | publish
  /-- `rollback_publish` moves the destination back to staging. -/
  | unpublish
  /-- `rollback_publish` moves the old tree back to the destination. -/
  | restoreOld
  /-- The journal write that records a finished rollback. -/
  | rolledBack
  | discardOldFile
  | discardOld
  | removeJournal
  | cancelled (during : Activity)
  deriving DecidableEq

abbrev Restore := Prog Disk Event BackupError

end Lorepia.Backup
