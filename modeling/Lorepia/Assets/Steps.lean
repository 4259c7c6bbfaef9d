import Lorepia.Assets.Store

/-!
# What every step of an operation does to the catalog

`Acts R k` says what a step of call `k` may do: nothing while another call holds the write
lock, and otherwise `R` to the catalog. An `R` that the statements around staged files,
quarantines and leases respect (`Bookkeeping`) holds of every step of the operations that
execute only those; the others need it of their writes of objects and references too.
-/

namespace Lorepia.Assets

open Proc Tx

def Acts (R : Catalog → Catalog → Prop) (k : Nat) (s s' : Root) : Prop :=
  (∀ j, j ≠ k → s'.writer = some j → s.writer = some j ∧ s'.catalog = s.catalog) ∧
    R s.catalog s'.catalog

section Steps

variable {R : Catalog → Catalog → Prop} {k : Nat} {α β : Type}

theorem Acts.of_writer {s s' : Root} (hw : ∀ j, s'.writer = some j → j = k)
    (hr : R s.catalog s'.catalog) : Acts R k s s' :=
  ⟨fun j hj h => absurd (hw j h) hj, hr⟩

variable [Std.Refl R]

theorem Acts.of_same {s s' : Root} (hc : s'.catalog = s.catalog) (hw : s'.writer = s.writer) :
    Acts R k s s' := by
  refine ⟨fun j _ h => ⟨hw ▸ h, hc⟩, ?_⟩
  rw [hc]
  exact Std.Refl.refl _

@[simp] theorem acts_fs (f : Files → Except AssetError α × Files) : (fs f).Always (Acts R k) :=
  always_atomic fun i s r s' h => by
    split at h <;> cases h <;> exact .of_same rfl rfl

@[simp] theorem acts_query (f : Catalog → α) : (query f).Always (Acts R k) :=
  always_atomic fun i s r s' h => by
    split at h <;> cases h <;> exact .of_same rfl rfl

@[simp] theorem acts_execute {x : Sql α} (hx : Respects R x) : (execute x).Always (Acts R k) :=
  always_atomic fun i s r s' h => by
    split at h
    · cases h
    · next hw =>
      have hnone : s.writer = none := by simpa using hw
      split at h
      · cases h
        exact .of_same rfl rfl
      · cases h
        exact .of_writer (fun j hj => by simp [hnone] at hj) (hx.commit _)

@[simp] theorem acts_begin : (begin k).Always (Acts R k) :=
  always_atomic fun i s r s' h => by
    split at h
    · cases h
    · split at h
      · cases h
        exact .of_same rfl rfl
      · cases h
        exact .of_writer (fun j hj => (Option.some.inj hj).symm) (Std.Refl.refl _)

theorem acts_commit {x : Sql α} (hx : Respects R x) : (commit k x).Always (Acts R k) :=
  always_atomic fun i s r s' h => by
    split at h
    · cases h
    · split at h
      · cases h
        exact .of_writer (fun j hj => by simp at hj) (Std.Refl.refl _)
      · cases h
        exact .of_writer (fun j hj => by simp at hj) (hx.commit _)

@[simp] theorem acts_rollback : (rollback k).Always (Acts R k) :=
  always_atomic fun i s r s' h => by
    split at h
    · cases h
    · cases h
      exact .of_writer (fun j hj => by simp at hj) (Std.Refl.refl _)

theorem acts_transaction {body : Op α} {writes : α → Sql β} (hbody : body.Always (Acts R k))
    (hwrites : ∀ a, Respects R (writes a)) : (transaction k body writes).Always (Acts R k) := by
  refine always_bind acts_begin fun _ => always_bind (always_attempt hbody) fun r => ?_
  cases r with
  | ok a => exact acts_commit (hwrites a)
  | error e => exact always_bind acts_rollback fun _ => always_fail e

@[simp] theorem acts_nowMs : nowMs.Always (Acts R k) :=
  always_atomic fun i s r s' h => by
    split at h <;> cases h <;> exact .of_same rfl rfl

@[simp] theorem acts_heed : heed.Always (Acts R k) :=
  always_atomic fun i s r s' h => by
    split at h <;> cases h <;> exact .of_same rfl rfl

@[simp] theorem acts_newUuid : newUuid.Always (Acts R k) :=
  always_atomic fun i s r s' h => by
    cases h
    exact .of_same rfl rfl

end Steps

/-! ## Bookkeeping -/

/-- The statements on the tables around the objects and their references respect `R`, and so
does taking an object out of use. -/
class Bookkeeping (R : Catalog → Catalog → Prop) : Prop extends Std.Refl R, IsTrans Catalog R where
  insertStaging (new : StagingRow) : Respects R (Catalog.insertStaging new)
  deleteStaging (name : String) : Respects R (Catalog.deleteStaging name)
  insertIntent (new : QuarantineIntent) : Respects R (Catalog.insertIntent new)
  setIntentMoved (name : String) : Respects R (Catalog.setIntentMoved name)
  deleteIntent (name : String) : Respects R (Catalog.deleteIntent name)
  upsertQuarantine (new : QuarantineRow) : Respects R (Catalog.upsertQuarantine new)
  deleteQuarantine (name : String) : Respects R (Catalog.deleteQuarantine name)
  insertTemporarySession (new : TemporarySession) : Respects R (Catalog.insertTemporarySession new)
  renewTemporarySession (owner : AssetOwner) (now : Nat) :
    Respects R (Catalog.renewTemporarySession owner now)
  deleteTemporarySessions (cond : TemporarySession → Bool) :
    Respects R (Catalog.deleteTemporarySessions cond)
  retire (cond : AssetObject → Bool) (state : AssetState) (h : state ≠ .active) :
    Respects R (Catalog.updateObjects cond fun o => { o with state })

attribute [simp] Bookkeeping.insertStaging Bookkeeping.deleteStaging Bookkeeping.insertIntent
  Bookkeeping.setIntentMoved Bookkeeping.deleteIntent Bookkeeping.upsertQuarantine
  Bookkeeping.deleteQuarantine Bookkeeping.insertTemporarySession
  Bookkeeping.renewTemporarySession Bookkeeping.deleteTemporarySessions

theorem Bookkeeping.mono {R R' : Catalog → Catalog → Prop} [Bookkeeping R] [IsTrans Catalog R']
    (hR : ∀ c c', R c c' → R' c c') : Bookkeeping R' where
  refl c := hR c c (Std.Refl.refl c)
  trans := IsTrans.trans
  insertStaging new := (insertStaging new).mono hR
  deleteStaging name := (deleteStaging name).mono hR
  insertIntent new := (insertIntent new).mono hR
  setIntentMoved name := (setIntentMoved name).mono hR
  deleteIntent name := (deleteIntent name).mono hR
  upsertQuarantine new := (upsertQuarantine new).mono hR
  deleteQuarantine name := (deleteQuarantine name).mono hR
  insertTemporarySession new := (insertTemporarySession new).mono hR
  renewTemporarySession owner now := (renewTemporarySession owner now).mono hR
  deleteTemporarySessions cond := (deleteTemporarySessions cond).mono hR
  retire cond state h := (retire cond state h).mono hR

section Operations

variable {R : Catalog → Catalog → Prop} [Bookkeeping R] {k : Nat}

theorem setState_respects (hash : AssetHash) {state : AssetState} (h : state ≠ .active) :
    Respects R (Catalog.setState hash state) :=
  .bind (Bookkeeping.retire _ state h) fun _ => .pure ()

@[simp] theorem finalizeMove_respects (intent : QuarantineIntent) :
    Respects R (finalizeMove intent) := by
  simp only [finalizeMove]
  split <;> repeat' with_reducible refine Respects.bind ?_ fun _ => ?_
  all_goals simp [setState_respects]

@[simp] theorem finalizePurge_respects (name : String) : Respects R (finalizePurge name) :=
  .bind (Bookkeeping.retire _ .missing (by simp)) fun _ =>
    .bind (Bookkeeping.deleteQuarantine name) fun _ => Bookkeeping.deleteIntent name

@[simp] theorem claimCandidate_respects (ownerType : String) (staleBefore : Nat) :
    Respects R (claimCandidate ownerType staleBefore) := by
  refine .bind (.query _) fun candidate => ?_
  split
  · exact .pure _
  · split
    · exact .bind (Bookkeeping.deleteTemporarySessions _) fun _ => .pure _
    · exact .pure _

@[simp] theorem linkQuarantined_acts (path : ObjectPath) (name : String) :
    (linkQuarantined path name).Always (Acts R k) := by
  simp only [linkQuarantined, openObject, openQuarantined]
  repeat' with_reducible refine always_bind ?_ fun _ => ?_
  all_goals simp

@[simp] theorem moveFileNoReplace_acts (path : ObjectPath) (name : String) :
    (moveFileNoReplace path name).Always (Acts R k) := by
  simp only [moveFileNoReplace, sync, removeObject]
  repeat' with_reducible refine always_bind ?_ fun _ => ?_
  all_goals simp

@[simp] theorem completeQuarantineMove_acts (intent : QuarantineIntent) (source : ObjectPath) :
    (completeQuarantineMove intent source).Always (Acts R k) := by
  simp only [completeQuarantineMove, openQuarantined, openObject, removeObject, sync]
  repeat' first | with_reducible refine always_bind ?_ fun _ => ?_ | split
  all_goals simp

@[simp] theorem quarantineFile_acts (source : ObjectPath) (hash : Option AssetHash)
    (reason : QuarantineReason) (now : Nat) :
    (quarantineFile source hash reason now).Always (Acts R k) := by
  simp only [quarantineFile, openObject]
  repeat' with_reducible refine always_bind ?_ fun _ => ?_
  all_goals simp

@[simp] theorem completeQuarantinePurge_acts (intent : QuarantineIntent) :
    (completeQuarantinePurge intent).Always (Acts R k) := by
  simp only [completeQuarantinePurge, openQuarantined, removeQuarantined, sync]
  repeat' first | with_reducible refine always_bind ?_ fun _ => ?_ | split
  all_goals simp

@[simp] theorem purgeQuarantineFile_acts (name : String) :
    (purgeQuarantineFile name).Always (Acts R k) := by
  simp only [purgeQuarantineFile]
  repeat' first | with_reducible refine always_bind ?_ fun _ => ?_ | split
  all_goals simp

@[simp] theorem completeIntent_acts (intent : QuarantineIntent) :
    (completeIntent intent).Always (Acts R k) := by
  simp only [completeIntent]
  repeat' first | with_reducible refine always_bind ?_ fun _ => ?_ | split
  all_goals simp

@[simp] theorem completeIntents_acts (intents : List QuarantineIntent) :
    (completeIntents intents).Always (Acts R k) := by
  induction intents with
  | nil => exact always_pure _
  | cons intent rest ih => exact always_bind (completeIntent_acts intent) fun _ => ih

@[simp] theorem recoverQuarantineIntents_acts : recoverQuarantineIntents.Always (Acts R k) :=
  always_bind (acts_query _) fun _ =>
    always_bind (always_ofExcept _) fun _ => completeIntents_acts _

@[simp] theorem copyChunks_acts (store : AssetStore) (name : String) (reads : List Bytes)
    (copied : Copied) : (copyChunks store name reads copied).Always (Acts R k) := by
  induction reads generalizing copied with
  | nil =>
    simp only [copyChunks, readSource]
    repeat' with_reducible refine always_bind ?_ fun _ => ?_
    all_goals simp
  | cons chunk rest ih =>
    simp only [copyChunks, readSource, writeStaged]
    repeat' first | with_reducible refine always_bind ?_ fun _ => ?_ | split
    all_goals simp [ih]

@[simp] theorem copyAndHash_acts (store : AssetStore) (name : String) (reads : List Bytes) :
    (copyAndHash store name reads).Always (Acts R k) := by
  simp only [copyAndHash]
  repeat' first | with_reducible refine always_bind ?_ fun _ => ?_ | split
  all_goals simp

@[simp] theorem hashOpenFile_acts (store : AssetStore) (data : FileData) :
    (hashOpenFile store data).Always (Acts R k) := by
  simp only [hashOpenFile]
  repeat' first | with_reducible refine always_bind ?_ fun _ => ?_ | split
  all_goals simp

@[simp] theorem prepareDestination_acts (store : AssetStore) (expected : Expectation) :
    (prepareDestination store expected).Always (Acts R k) := by
  simp only [prepareDestination, openObject]
  repeat' first | with_reducible refine always_bind ?_ fun _ => ?_ | split
  all_goals simp

@[simp] theorem publishStaged_acts (name : String) (path : ObjectPath) :
    (publishStaged name path).Always (Acts R k) := by
  simp only [publishStaged, openStaged, openObject]
  repeat' with_reducible refine always_bind ?_ fun _ => ?_
  all_goals simp

@[simp] theorem publishOrDeduplicate_acts (store : AssetStore) (name : String)
    (expected : Expectation) :
    (publishOrDeduplicate store name expected).Always (Acts R k) := by
  simp only [publishOrDeduplicate, openObject]
  repeat' first | with_reducible refine always_bind ?_ fun _ => ?_ | split
  all_goals simp

@[simp] theorem destinationMatchesExpectation_acts (store : AssetStore) (expected : Expectation) :
    (destinationMatchesExpectation store expected).Always (Acts R k) := by
  simp only [destinationMatchesExpectation, openObject]
  repeat' first | with_reducible refine always_bind ?_ fun _ => ?_ | split
  all_goals simp

@[simp] theorem publishWithinQuota_acts (store : AssetStore) (name : String)
    (expected : Expectation) (d : Bool) :
    (publishWithinQuota store name expected d).Always (Acts R k) := by
  simp only [publishWithinQuota, publication, sync]
  repeat' first | with_reducible refine always_bind ?_ fun _ => ?_ | split
  all_goals simp

@[simp] theorem allocateAttempts_acts (task now n : Nat) :
    (allocateAttempts task now n).Always (Acts R k) := by
  induction n with
  | zero => exact always_fail _
  | succ n ih =>
    simp only [allocateAttempts, createStaged]
    repeat' first | with_reducible refine always_bind ?_ fun _ => ?_ | split
    all_goals simp [ih]

@[simp] theorem allocateStaging_acts (task : Nat) : (allocateStaging task).Always (Acts R k) :=
  always_bind acts_nowMs fun _ => allocateAttempts_acts _ _ _

@[simp] theorem cleanupStagedFile_acts (name : String) :
    (cleanupStagedFile name).Always (Acts R k) := by
  simp only [cleanupStagedFile, ignoreNotFound, removeStaged, sync]
  repeat' first | with_reducible refine always_bind ?_ fun _ => ?_ | split
  all_goals simp

@[simp] theorem beginTemporaryOwnerSession_acts (owner : AssetOwner) :
    (beginTemporaryOwnerSession owner).Always (Acts R k) := by
  refine always_bind (always_ofExcept _) fun _ => always_bind acts_nowMs fun now => ?_
  refine acts_execute ?_
  repeat' with_reducible refine Respects.bind ?_ fun _ => ?_
  all_goals simp

@[simp] theorem renewTemporaryOwnerSession_acts (owner : AssetOwner) :
    (renewTemporaryOwnerSession owner).Always (Acts R k) := by
  simp only [renewTemporaryOwnerSession]
  repeat' with_reducible refine always_bind ?_ fun _ => ?_
  all_goals simp

@[simp] theorem finishEmptyTemporaryOwnerSession_acts (owner : AssetOwner) :
    (finishEmptyTemporaryOwnerSession owner).Always (Acts R k) := by
  refine always_bind (always_ofExcept _) fun _ => acts_execute ?_
  repeat' with_reducible refine Respects.bind ?_ fun _ => ?_
  all_goals simp

@[simp] theorem unlinkOwned_acts (owner : AssetOwner) (hash : AssetHash) :
    (unlinkOwned owner hash).Always (Acts R k) := by
  simp only [unlinkOwned, removeObject, sync]
  repeat' first | with_reducible refine always_bind ?_ fun _ => ?_ | split
  all_goals simp

@[simp] theorem rollbackRound_acts {owner : AssetOwner}
    (h : ∀ hash orphaned, Respects R (forgetOwned owner hash orphaned)) :
    (rollbackRound k owner).Always (Acts R k) := by
  refine always_bind (acts_query _) fun next => ?_
  cases next with
  | none => exact always_pure _
  | some hash =>
    exact always_bind (acts_transaction (unlinkOwned_acts owner hash) (h hash)) fun _ => always_pure _

@[simp] theorem rollbackTemporaryOwnerLocked_acts {owner : AssetOwner}
    (h : ∀ hash orphaned, Respects R (forgetOwned owner hash orphaned)) :
    (rollbackTemporaryOwnerLocked k owner).Always (Acts R k) :=
  always_bind (always_repeatUntil (rollbackRound_acts h)) fun _ =>
    always_bind (acts_execute (Bookkeeping.deleteTemporarySessions _)) fun _ => always_pure _

@[simp] theorem rollbackTemporaryOwner_acts {owner : AssetOwner}
    (h : ∀ hash orphaned, Respects R (forgetOwned owner hash orphaned)) :
    (rollbackTemporaryOwner k owner).Always (Acts R k) :=
  always_bind (always_ofExcept _) fun _ => rollbackTemporaryOwnerLocked_acts h

theorem ingest_acts {store : AssetStore} {request : IngestRequest}
    (h : ∀ expected mime deduplicated,
      Respects R (recordObject expected mime request.owner deduplicated)) (reads : List Bytes) :
    (ingest store k request reads).Always (Acts R k) := by
  have htransaction (name : String) (expected : Expectation) (mime : AssetMime) (d : Bool) :
      (transaction k (publishWithinQuota store name expected d)
        (recordObject expected mime request.owner)).Always (Acts R k) :=
    acts_transaction (publishWithinQuota_acts store name expected d) (h expected mime)
  have hstaged (name : String) : (ingestStaged store k request reads name).Always (Acts R k) := by
    simp only [ingestStaged, sync, ensureObjectParent]
    repeat' first | with_reducible refine always_bind ?_ fun _ => ?_ | split
    all_goals simp [htransaction]
  simp only [ingest]
  repeat' first | with_reducible refine always_bind ?_ fun _ => ?_ | split
  all_goals simp [hstaged]

@[simp] theorem openForReconcile_acts (path : ObjectPath) :
    (openForReconcile path).Always (Acts R k) := by
  simp only [openForReconcile, openObject]
  repeat' first | with_reducible refine always_bind ?_ fun _ => ?_ | split
  all_goals simp

@[simp] theorem catalogued_acts (shard name : String) :
    (catalogued shard name).Always (Acts R k) := by
  simp only [catalogued]
  repeat' first | with_reducible refine always_bind ?_ fun _ => ?_ | split
  all_goals simp

@[simp] theorem reconcileShardEntry_acts (shard : String) (entry : DirEntry) (now : Nat) :
    (reconcileShardEntry shard entry now).Always (Acts R k) := by
  simp only [reconcileShardEntry]
  repeat' first | with_reducible refine always_bind ?_ fun _ => ?_ | split
  all_goals simp

@[simp] theorem examineEntries_acts (shard : String) (now n : Nat) (pending : List DirEntry) :
    (examineEntries shard now n pending).Always (Acts R k) := by
  induction n generalizing pending with
  | zero => exact always_pure _
  | succ n ih =>
    cases pending with
    | nil => exact always_pure _
    | cons entry rest =>
      simp only [examineEntries]
      repeat' first | with_reducible refine always_bind ?_ fun _ => ?_ | split
      all_goals simp [ih]

@[simp] theorem nextPage_acts (r : ShardReconciler) (limit : Nat) :
    (nextPage r limit).Always (Acts R k) := by
  simp only [nextPage, sync]
  refine always_bind (always_attempt ?_) fun _ => ?_
  · repeat' with_reducible refine always_bind ?_ fun _ => ?_
    all_goals simp
  · split
    · exact always_pure _
    · exact always_bind (examineEntries_acts _ _ _ _) fun _ => always_pure _

@[simp] theorem beginShardReconciliation_acts (shard : String) (listing : List DirEntry) :
    (beginShardReconciliation shard listing).Always (Acts R k) := by
  simp only [beginShardReconciliation, sync]
  repeat' with_reducible refine always_bind ?_ fun _ => ?_
  all_goals simp

@[simp] theorem unlinkOrphan_acts (hash : AssetHash) (before : Nat) :
    (unlinkOrphan hash before).Always (Acts R k) := by
  simp only [unlinkOrphan, openObject, removeObject, sync]
  repeat' first | with_reducible refine always_bind ?_ fun _ => ?_ | split
  all_goals simp

@[simp] theorem cleanupStagingFile_acts (name : String) :
    (cleanupStagingFile name).Always (Acts R k) := by
  simp only [cleanupStagingFile, openStaged, removeStaged, sync]
  repeat' first | with_reducible refine always_bind ?_ fun _ => ?_ | split
  all_goals simp

@[simp] theorem purgeNamed_acts (name : String) :
    (purgeNamed name).Always (Acts R k) := by
  simp only [purgeNamed]
  repeat' with_reducible refine always_bind ?_ fun _ => ?_
  all_goals simp

theorem cleanupInternal_acts {clean : String → Op Unit}
    (hclean : ∀ name, (clean name).Always (Acts R k)) (names : Catalog → Nat → List String)
    (after : Option String) (limit : Nat) (before : Int) :
    (cleanupInternal names clean after limit before).Always (Acts R k) := by
  have hnames (list : List String) : (forEachName clean list).Always (Acts R k) := by
    induction list with
    | nil => exact always_pure _
    | cons name rest ih => exact always_bind (hclean name) fun _ => ih
  simp only [cleanupInternal]
  repeat' with_reducible refine always_bind ?_ fun _ => ?_
  all_goals simp [hnames]

@[simp] theorem cleanupStagingPage_acts (after : Option String) (limit : Nat) (before : Int) :
    (cleanupStagingPage after limit before).Always (Acts R k) :=
  cleanupInternal_acts cleanupStagingFile_acts _ _ _ _

@[simp] theorem purgeQuarantinePage_acts (after : Option String) (limit : Nat) (before : Int) :
    (purgeQuarantinePage after limit before).Always (Acts R k) :=
  cleanupInternal_acts purgeNamed_acts _ _ _ _

@[simp] theorem copySnapshot_acts :
    (copySnapshot).Always (Acts R k) := by
  simp only [copySnapshot, sync]
  repeat' first | with_reducible refine always_bind ?_ fun _ => ?_ | split
  all_goals simp

end Operations

end Lorepia.Assets
