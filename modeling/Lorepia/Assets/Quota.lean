import Lorepia.Assets.Ledger
import Lorepia.Assets.Steps

/-!
# Every operation keeps the ledger, and the quota

`Keeps` says what a step may do to the catalog: nothing while another call holds the write
lock, and otherwise something that keeps the ledger exact and adds to the active bytes only
within the quota or by a restore. Every step but the commit of an ingest is of that kind by
itself (`Always`); that commit is because nobody writes between its check and it. The runs
below interleave any number of calls, with failing steps, crashes and changes by others.
-/

namespace Lorepia.Assets

open Proc Tx

/-! ## Operations -/

/-- A reconciliation has turned a missing or quarantined object active. -/
def Restores (c c' : Catalog) : Prop :=
  ∃ o ∈ c.objects, o.state ≠ .active ∧ ∃ now, restoreObject o.hash now c = .ok ((), c')

/-- The ledger stays exact, and the active bytes grow only up to `max` or by a restore. -/
def Ledgers (max : Int) (c c' : Catalog) : Prop :=
  c.Sane → c'.Sane ∧ (c'.totals.activeBytes ≤ c.totals.activeBytes ∨
    c'.totals.activeBytes ≤ max ∨ Restores c c')

theorem Catalog.Settles.ledgers {max : Int} {c c' : Catalog} (h : Settles c c') :
    Ledgers max c c' :=
  fun hc => ⟨(h hc).1, .inl (h hc).2⟩

def Keeps (max : Int) (k : Nat) (s s' : Root) : Prop :=
  (∀ j, j ≠ k → s'.writer = some j → s.writer = some j ∧ s'.catalog = s.catalog) ∧
    Ledgers max s.catalog s'.catalog

section Steps

open Catalog

variable {max : Int} {k : Nat} {α β : Type}

instance : Std.Refl (Ledgers max) := ⟨fun _ h => ⟨h, .inl (le_refl _)⟩⟩

theorem Keeps.of_same {s s' : Root} (hc : s'.catalog = s.catalog) (hw : s'.writer = s.writer) :
    Keeps max k s s' :=
  Acts.of_same hc hw

theorem Keeps.of_writer {s s' : Root} (hw : ∀ j, s'.writer = some j → j = k)
    (hl : Ledgers max s.catalog s'.catalog) : Keeps max k s s' :=
  Acts.of_writer hw hl

instance : Bookkeeping Settles where
  refl := Std.Refl.refl
  trans := IsTrans.trans
  insertStaging := insertStaging_settles
  deleteStaging := deleteStaging_settles
  insertIntent := insertIntent_settles
  setIntentMoved := setIntentMoved_settles
  deleteIntent := deleteIntent_settles
  upsertQuarantine := upsertQuarantine_settles
  deleteQuarantine := deleteQuarantine_settles
  insertTemporarySession := insertTemporarySession_settles
  renewTemporarySession := renewTemporarySession_settles
  deleteTemporarySessions := deleteTemporarySessions_settles
  retire _ _ h := updateObjects_inactive_settles (fun _ => rfl) fun _ => h

/-- Steps that only settle keep the ledger. -/
@[simp] theorem keeps_of_settles {p : Op α} (h : p.Always (Acts Settles k)) :
    p.Always (Keeps max k) :=
  h.mono fun _ _ hs => ⟨hs.1, hs.2.ledgers⟩

theorem always_execute {x : Sql α} (hx : Respects (Ledgers max) x) :
    (execute x).Always (Keeps max k) :=
  acts_execute hx

end Steps

section Operations

open Catalog

variable {max : Int} {k : Nat}

@[simp] theorem addRefs_settles (refs : List AssetReference) :
    (addRefs refs).Always (Acts Settles k) := by
  simp only [addRefs]
  repeat' first | with_reducible refine always_bind ?_ fun _ => ?_ | split
  all_goals simp

@[simp] theorem removeRefs_settles (refs : List AssetReference) :
    (removeRefs refs).Always (Acts Settles k) := by
  simp only [removeRefs]
  repeat' first | with_reducible refine always_bind ?_ fun _ => ?_ | split
  all_goals simp

@[simp] theorem removeOwnerRefs_settles (owner : AssetOwner) :
    (removeOwnerRefs owner).Always (Acts Settles k) := by
  simp only [removeOwnerRefs]
  repeat' with_reducible refine always_bind ?_ fun _ => ?_
  all_goals simp

@[simp] theorem commitTemporaryOwnerRefs_settles (temporary final : AssetOwner) (expected : Nat) :
    (commitTemporaryOwnerRefs temporary final expected).Always (Acts Settles k) := by
  simp only [commitTemporaryOwnerRefs]
  repeat' with_reducible refine always_bind ?_ fun _ => ?_
  all_goals simp

@[simp] theorem recoverRound_settles (ownerType : String) (staleBefore : Nat) :
    (recoverRound k ownerType staleBefore).Always (Acts Settles k) := by
  simp only [recoverRound]
  repeat' first | with_reducible refine always_bind ?_ fun _ => ?_ | split
  all_goals simp

@[simp] theorem recoverTemporaryOwnerTypeBefore_settles (ownerType : String) (staleBefore : Int) :
    (recoverTemporaryOwnerTypeBefore k ownerType staleBefore).Always (Acts Settles k) := by
  simp only [recoverTemporaryOwnerTypeBefore]
  repeat' with_reducible refine always_bind ?_ fun _ => ?_
  all_goals simp

@[simp] theorem recoverTemporaryOwnerType_settles (ownerType : String) :
    (recoverTemporaryOwnerType k ownerType).Always (Acts Settles k) := by
  simp only [recoverTemporaryOwnerType]
  repeat' with_reducible refine always_bind ?_ fun _ => ?_
  all_goals simp

@[simp] theorem recoverOwnerTypes_settles (cutoff : Int) (types : List String) :
    (recoverOwnerTypes k cutoff types).Always (Acts Settles k) := by
  induction types with
  | nil => exact always_pure _
  | cons ownerType rest ih =>
    exact always_bind (recoverTemporaryOwnerTypeBefore_settles ownerType cutoff) fun _ => ih

@[simp] theorem recoverExpiredTemporaryOwnerSessions_settles :
    (recoverExpiredTemporaryOwnerSessions k).Always (Acts Settles k) := by
  simp only [recoverExpiredTemporaryOwnerSessions]
  repeat' with_reducible refine always_bind ?_ fun _ => ?_
  all_goals simp

@[simp] theorem repairObjectPath_settles (object : AssetObject) :
    (repairObjectPath object).Always (Acts Settles k) := by
  simp only [repairObjectPath]
  repeat' first | with_reducible refine always_bind ?_ fun _ => ?_ | split
  all_goals simp

theorem restoreObject_ledgers (hash : AssetHash) (now : Nat) :
    Respects (Ledgers max) (restoreObject hash now) := by
  intro c a c' h hc
  obtain ⟨n, c₁, hu, h⟩ := bind_ok.mp h
  obtain ⟨-, rfl⟩ := pure_ok.mp h
  obtain ⟨-, -, htotals⟩ := updateObjects_totals hc.exact hu
  refine ⟨updateObjects_sane (by intro; rfl) c n c₁ hc hu, ?_⟩
  by_cases hr : ∃ o ∈ c.objects, o.hash = hash ∧ o.state ≠ .active
  · obtain ⟨o, ho, rfl, hstate⟩ := hr
    exact .inr (.inr ⟨o, ho, hstate, now, bind_ok.mpr ⟨n, c₁, hu, pure_ok.mpr ⟨rfl, rfl⟩⟩⟩)
  · -- an object that is active already keeps its weight
    refine .inl ?_
    have hle : ((c.objects.filter fun o => o.hash = hash).map fun o =>
        (AssetObject.weight { o with state := .active, verifiedAtMs := now } - o.weight)).sum.activeBytes
          ≤ 0 := by
      refine sum_activeBytes_nonpos fun o ho => ?_
      obtain ⟨ho, hhash⟩ := List.mem_filter.mp ho
      have hstate : o.state = .active := by
        by_contra hne
        exact hr ⟨o, ho, of_decide_eq_true hhash, hne⟩
      simp [Totals.sub_def, AssetObject.weight, AssetObject.activeSize, hstate]
    rw [htotals, Totals.add_def]
    exact add_le_of_nonpos_right hle

@[simp] theorem reconcileFile_keeps (store : AssetStore) (now : Nat) (object : AssetObject) :
    (reconcileFile store now object).Always (Keeps max k) := by
  have hmissing : (execute (setState object.hash .missing)).Always (Acts Settles k) :=
    acts_execute (setState_settles _ (by simp))
  simp only [reconcileFile]
  repeat' first | with_reducible refine always_bind ?_ fun _ => ?_ | split
  all_goals simp [hmissing, always_execute, restoreObject_ledgers]

@[simp] theorem reconcileObjects_keeps (store : AssetStore) (now : Nat) (objects : List AssetObject) :
    (reconcileObjects store now objects).Always (Keeps max k) := by
  induction objects with
  | nil => exact always_pure _
  | cons object rest ih =>
    simp only [reconcileObjects]
    repeat' with_reducible refine always_bind ?_ fun _ => ?_
    all_goals simp [ih]

@[simp] theorem reconcileCatalogPage_keeps (store : AssetStore) (after : Option AssetHash)
    (limit : Nat) :
    (reconcileCatalogPage store after limit).Always (Keeps max k) := by
  simp only [reconcileCatalogPage]
  repeat' with_reducible refine always_bind ?_ fun _ => ?_
  all_goals simp

@[simp] theorem sweepHashes_settles (before : Nat) (hashes : List AssetHash) :
    (sweepHashes k before hashes).Always (Acts Settles k) := by
  induction hashes with
  | nil => exact always_pure _
  | cons hash rest ih =>
    refine always_bind acts_heed fun _ => always_bind ?_ fun _ => always_bind ih fun _ => always_pure _
    exact acts_transaction (unlinkOrphan_acts hash before) (forgetOrphan_settles hash)

@[simp] theorem markSweepPage_settles (after : Option AssetHash) (limit : Nat) (before : Int) :
    (markSweepPage k after limit before).Always (Acts Settles k) := by
  simp only [markSweepPage]
  repeat' with_reducible refine always_bind ?_ fun _ => ?_
  all_goals simp

@[simp] theorem cleanupStaleBackupSnapshots_settles (staleBefore : Int) (limit : Nat) :
    (cleanupStaleBackupSnapshots staleBefore limit).Always (Acts Settles k) := by
  simp only [cleanupStaleBackupSnapshots]
  repeat' with_reducible refine always_bind ?_ fun _ => ?_
  all_goals simp

@[simp] theorem cleanupExpiredBackupSnapshots_settles :
    cleanupExpiredBackupSnapshots.Always (Acts Settles k) :=
  always_bind acts_nowMs fun _ => cleanupStaleBackupSnapshots_settles _ _

@[simp] theorem beginBackupSnapshot_settles (sessionId : String) :
    (beginBackupSnapshot sessionId).Always (Acts Settles k) := by
  simp only [beginBackupSnapshot]
  repeat' first | with_reducible refine always_bind ?_ fun _ => ?_ | split
  all_goals simp

@[simp] theorem renewBackupSnapshot_settles (sessionId : String) :
    (renewBackupSnapshot sessionId).Always (Acts Settles k) := by
  refine always_bind (always_ofExcept _) fun _ => always_bind acts_nowMs fun now => ?_
  refine acts_execute (.bind (renewBackupSession_settles _ _) fun _ => ?_)
  split
  · exact .pure _
  · exact .query _

@[simp] theorem abandonBackupSnapshot_settles (sessionId : String) :
    (abandonBackupSnapshot sessionId).Always (Acts Settles k) := by
  simp only [abandonBackupSnapshot]
  repeat' with_reducible refine always_bind ?_ fun _ => ?_
  all_goals simp

@[simp] theorem openStore_settles :
    (openStore k).Always (Acts Settles k) := by
  simp only [openStore, openRecovered, sync]
  repeat' first | with_reducible refine always_bind ?_ fun _ => ?_ | split
  all_goals simp

end Operations

/-! ## The commit of an ingest -/

section Ingest

open Catalog

variable {max : Int} {k : Nat}

/-- Recording an object whose projected total is within `max` keeps the total there. -/
theorem upsertObject_quota {c c' : Catalog} {expected : Expectation} {new : AssetObject}
    (hc : c.Sane) (hmax : max ≤ maxInteger) (hq : projectedBytes c expected ≤ max)
    (hhash : new.hash = expected.hash) (hsize : new.size = expected.size)
    (h : upsertObject new c = .ok ((), c')) : c'.Sane ∧ c'.totals.activeBytes ≤ max := by
  have hactive : 0 ≤ c.totals.activeBytes := hc.exact.2.2.1.1
  have hnew : new.activeSize ≤ expected.size := by
    unfold AssetObject.activeSize
    split <;> omega
  -- the projection is not saturated
  have hbefore : activeBytesWithoutHash c expected.hash + expected.size ≤ max := by
    simp only [projectedBytes, maxUnsigned] at hq
    unfold maxInteger at hmax
    split at hq <;> omega
  unfold activeBytesWithoutHash at hbefore
  obtain ⟨free, c₁, hfree, h⟩ := bind_ok.mp h
  obtain ⟨-, rfl⟩ := query_ok.mp hfree
  obtain ⟨_, c₁, hreq, h⟩ := bind_ok.mp h
  obtain ⟨-, rfl⟩ := require_ok.mp hreq
  obtain ⟨found, c₁, hquery, h⟩ := bind_ok.mp h
  obtain ⟨hfound, rfl⟩ := query_ok.mp hquery
  rw [← hhash, hfound] at hbefore
  cases found with
  | none =>
    obtain ⟨hexact, hobjects, htotals⟩ := insertObject_totals hc.exact h
    refine ⟨⟨hexact, ?_⟩, ?_⟩
    · rw [hobjects]
      refine hc.keyed.insert fun o ho => ?_
      simpa using List.find?_eq_none.mp hfound o ho
    · rw [htotals, Totals.add_def]
      simp only [AssetObject.weight, Option.map_none, Option.getD_none] at hbefore ⊢
      omega
  | some old =>
    obtain ⟨n, c₂, hu, h⟩ := bind_ok.mp h
    obtain ⟨-, rfl⟩ := pure_ok.mp h
    obtain ⟨-, -, htotals⟩ := updateObjects_totals hc.exact hu
    refine ⟨updateObjects_sane (by intro; rfl) c n c₂ hc hu, ?_⟩
    have hold := hc.keyed.find?_eq.mp hfound
    rw [htotals, hc.keyed.filter_eq hold.1 (by simpa using hold.2)
      (fun r _ hr => (of_decide_eq_true hr).trans hold.2.symm)]
    have hsame : AssetObject.activeSize { old with
        size := new.size
        mime := new.mime
        relativePath := new.relativePath
        state := new.state
        verifiedAtMs := new.verifiedAtMs } = new.activeSize := rfl
    simp only [List.map_cons, List.map_nil, List.sum_cons, List.sum_nil, add_zero, Totals.add_def,
      Totals.sub_def, AssetObject.weight, hsame, Option.map_some, Option.getD_some] at hbefore ⊢
    omega

theorem recordObject_quota {c c' : Catalog} {expected : Expectation} {mime : AssetMime}
    {owner : Option AssetOwner} {d r : Bool} (hc : c.Sane) (hmax : max ≤ maxInteger)
    (hq : projectedBytes c expected ≤ max)
    (h : recordObject expected mime owner d c = .ok (r, c')) :
    c'.Sane ∧ c'.totals.activeBytes ≤ max := by
  obtain ⟨_, c₁, h₁, h⟩ := bind_ok.mp h
  obtain ⟨hsane, hle⟩ := upsertObject_quota hc hmax hq rfl rfl h₁
  have hrest : Settles c₁ c' := by
    cases owner with
    | none =>
      obtain ⟨-, rfl⟩ := pure_ok.mp h
      exact Std.Refl.refl _
    | some owner =>
      obtain ⟨_, c₂, h₂, h⟩ := bind_ok.mp h
      obtain ⟨-, rfl⟩ := pure_ok.mp h
      exact insertRef_settles _ _ _ _ h₂
  exact ⟨(hrest hsane).1, (hrest hsane).2.trans hle⟩

/-- What a call is specified against: nobody takes its lock away and writes. -/
def ledgerTask (max : Int) (k : Nat) : Interference Root Input where
  rely s s' := s'.writer = some k → s.writer = some k ∧ s'.catalog = s.catalog
  guar := Keeps max k

/-- A fact about the catalog as long as the call holds the lock. -/
def Holding (k : Nat) (φ : Catalog → Prop) (s : Root) : Prop := s.writer = some k → φ s.catalog

theorem holding_stable (φ : Catalog → Prop) : (ledgerTask max k).Stable (Holding k φ) := by
  intro s s' hr hs hw
  obtain ⟨hw', hc⟩ := hr hw
  exact hc ▸ hs hw'

/-- Steps on the file system leave the catalog and its lock alone. -/
def Still (s s' : Root) : Prop := s'.catalog = s.catalog ∧ s'.writer = s.writer

theorem still_fs {α : Type} (f : Files → Except AssetError α × Files) : (fs f).Always Still :=
  always_atomic fun i s r s' h => by
    split at h <;> cases h <;> exact ⟨rfl, rfl⟩

theorem still_heed : heed.Always Still :=
  always_atomic fun i s r s' h => by
    split at h <;> cases h <;> exact ⟨rfl, rfl⟩

theorem hashOpenFile_still (store : AssetStore) (data : FileData) :
    (hashOpenFile store data).Always Still := by
  simp only [hashOpenFile]
  repeat' first | with_reducible refine always_bind ?_ fun _ => ?_ | split
  all_goals simp [still_fs, still_heed]

theorem destinationMatchesExpectation_still (store : AssetStore) (expected : Expectation) :
    (destinationMatchesExpectation store expected).Always Still := by
  simp only [destinationMatchesExpectation, openObject]
  repeat' first | with_reducible refine always_bind ?_ fun _ => ?_ | split
  all_goals simp [still_fs, hashOpenFile_still]

theorem publishStaged_still (name : String) (path : ObjectPath) :
    (publishStaged name path).Always Still := by
  simp only [publishStaged, openStaged, openObject]
  repeat' with_reducible refine always_bind ?_ fun _ => ?_
  all_goals simp [still_fs]

theorem publishOrDeduplicate_still (store : AssetStore) (name : String) (expected : Expectation) :
    (publishOrDeduplicate store name expected).Always Still := by
  simp only [publishOrDeduplicate, openObject]
  repeat' first | with_reducible refine always_bind ?_ fun _ => ?_ | split
  all_goals simp [still_fs, hashOpenFile_still, publishStaged_still]

theorem publication_still (store : AssetStore) (name : String) (expected : Expectation) (d : Bool) :
    (publication store name expected d).Always Still := by
  simp only [publication]
  repeat' first | with_reducible refine always_bind ?_ fun _ => ?_ | split
  all_goals simp [destinationMatchesExpectation_still, publishOrDeduplicate_still]

theorem wp_of_still {α : Type} {p : Op α} (hp : p.Always Still) {φ : Catalog → Prop} {s : Root}
    (hs : Holding k φ s) : wp (ledgerTask max k) p (fun _ => Holding k φ) s :=
  wp_of_always hp (fun _ _ h => Keeps.of_same h.1 h.2) (fun _ => trivial) trivial (holding_stable φ)
    (fun _ _ h hs hw => h.1 ▸ hs (h.2 ▸ hw)) hs

theorem wp_of_keeps {α : Type} {p : Op α} (hp : p.Always (Keeps max k)) {s : Root} :
    wp (ledgerTask max k) p (fun _ _ => True) s :=
  wp_of_always hp (fun _ _ h => h) (fun _ => trivial) trivial (P := fun _ => True)
    (fun _ _ _ h => h) (fun _ _ _ h => h) trivial

theorem publishWithinQuota_wp (store : AssetStore) (name : String) (expected : Expectation)
    (d : Bool) {s : Root} :
    wp (ledgerTask max k) (publishWithinQuota store name expected d) (fun r t => (∃ a, r = .ok a) →
      Holding k (fun c => projectedBytes c expected ≤ store.limits.maxTotalBytes) t) s := by
  refine wp_bind (M := fun r t => ∀ n, r = .ok n → Holding k (fun c => projectedBytes c expected = n) t)
    ?_ (fun n t hn => ?_) fun e t _ => wp_done (fun _ _ _ _ => by simp) (by simp)
  · refine wp_atomic (P := fun _ => True) (fun _ _ _ _ => trivial)
      (fun r u u' hr hu n hn => holding_stable _ u u' hr (hu n hn)) (fun _ _ => .inl trivial)
      (fun i t r t' _ _ hf => ?_) trivial
    split at hf <;> cases hf
    · exact ⟨.of_same rfl rfl, fun n hn => by cases hn⟩
    · exact ⟨.of_same rfl rfl, fun n hn _ => by cases hn; rfl⟩
  · have hn := hn n rfl
    split
    · exact wp_done (fun _ _ _ _ => by simp) (by simp)
    · next hle =>
      have hφ : Holding k (fun c => projectedBytes c expected ≤ store.limits.maxTotalBytes) t :=
        fun hw => (hn hw).trans_le (Nat.not_lt.mp hle)
      refine wp_mono (wp_of_still ?_ hφ) fun _ _ h _ => h
      exact always_bind (publication_still _ _ _ _) fun _ =>
        always_bind (still_fs _) fun _ => always_pure _

theorem wp_end {α : Type} {r : Except AssetError α} {s : Root} :
    wp (ledgerTask max k) (done r) (fun _ _ => True) s :=
  wp_done (fun _ _ _ _ => trivial) trivial

theorem ingestTransaction_wp (store : AssetStore) (hstore : store.limits.maxTotalBytes ≤ max)
    (hmax : max ≤ maxInteger) (name : String) (expected : Expectation) (d : Bool)
    (mime : AssetMime) (owner : Option AssetOwner) {s : Root} :
    wp (ledgerTask max k) (transaction k (publishWithinQuota store name expected d)
      (recordObject expected mime owner)) (fun _ _ => True) s := by
  refine wp_bind (wp_of_keeps (keeps_of_settles acts_begin)) (fun _ t _ => ?_) fun _ _ _ => wp_end
  refine wp_bind (M := fun (r : Except AssetError (Except AssetError Bool)) t => ∀ a, r = .ok (.ok a) →
      Holding k (fun c => projectedBytes c expected ≤ store.limits.maxTotalBytes) t)
    (wp_attempt (publishWithinQuota_wp store name expected d)
      (fun r u u' hr hu a ha => holding_stable _ u u' hr (hu a ha))
      fun r u hu a ha => hu ⟨a, Except.ok.inj ha⟩) (fun r t ht => ?_) fun _ _ _ => wp_end
  cases r with
  | error e =>
    exact wp_bind (wp_of_keeps (keeps_of_settles acts_rollback)) (fun _ _ _ => wp_end) fun _ _ _ => wp_end
  | ok a =>
    have hroom := ht a rfl
    refine wp_atomic (holding_stable _) (fun _ _ _ _ _ => trivial) (fun _ _ => .inl trivial)
      (fun i u r u' hu _ hf => ?_) hroom
    split at hf
    · cases hf
    · next hw =>
      have hq := hu (not_not.mp hw)
      split at hf <;> cases hf
      · exact ⟨.of_writer (fun j hj => by simp at hj) fun hc => ⟨hc, .inl (le_refl _)⟩, trivial⟩
      · refine ⟨.of_writer (fun j hj => by simp at hj) fun hc => ?_, trivial⟩
        simp only [Tx.commit]
        rcases hx : recordObject expected mime owner a u.catalog with e | ⟨r, c'⟩
        · exact ⟨hc, .inl (le_refl _)⟩
        · obtain ⟨hsane, hle⟩ := recordObject_quota hc hmax ((Int.ofNat_le.mpr hq).trans hstore) hx
          exact ⟨hsane, .inr (.inl hle)⟩

theorem ingest_wp (store : AssetStore) (hstore : store.limits.maxTotalBytes ≤ max)
    (hmax : max ≤ maxInteger) (request : IngestRequest) (reads : List Bytes) {s : Root} :
    wp (ledgerTask max k) (ingest store k request reads) (fun _ _ => True) s := by
  have hstaged (name : String) (t : Root) : wp (ledgerTask max k)
      (ingestStaged store k request reads name) (fun _ _ => True) t := by
    refine wp_bind (wp_of_keeps (keeps_of_settles (copyAndHash_acts store name reads))) (fun copied t _ => ?_)
      fun _ _ _ => wp_end
    refine wp_bind (wp_of_keeps (keeps_of_settles (acts_fs _))) (fun _ t _ => ?_) fun _ _ _ => wp_end
    refine wp_bind (wp_of_keeps (always_ofExcept _)) (fun mime t _ => ?_) fun _ _ _ => wp_end
    refine wp_bind (wp_of_keeps (keeps_of_settles acts_nowMs)) (fun now t _ => ?_) fun _ _ _ => wp_end
    refine wp_bind (wp_of_keeps (keeps_of_settles (acts_fs _))) (fun _ t _ => ?_) fun _ _ _ => wp_end
    refine wp_bind (wp_of_keeps (keeps_of_settles (prepareDestination_acts store _))) (fun d t _ => ?_)
      fun _ _ _ => wp_end
    refine wp_bind (ingestTransaction_wp store hstore hmax name _ d mime request.owner)
      (fun _ t _ => ?_) fun _ _ _ => wp_end
    refine wp_bind (wp_of_keeps (keeps_of_settles (acts_query _))) (fun object t _ => ?_) fun _ _ _ => wp_end
    cases object <;> exact wp_end
  refine wp_bind (wp_of_keeps (always_ofExcept _)) (fun _ t _ => ?_) fun _ _ _ => wp_end
  refine wp_bind (wp_of_keeps (keeps_of_settles (allocateStaging_acts k))) (fun name t _ => ?_) fun _ _ _ => wp_end
  refine wp_bind (wp_attempt (Q := fun _ _ => True) (hstaged name t) (fun _ _ _ _ _ => trivial)
    fun _ _ _ => trivial) (fun result t _ => ?_) fun _ _ _ => wp_end
  refine wp_bind (wp_of_keeps (always_attempt (keeps_of_settles (cleanupStagedFile_acts name)))) (fun cleanup t _ => ?_)
    fun _ _ _ => wp_end
  cases result <;> cases cleanup <;> exact wp_end

end Ingest

/-! ## Stores on one root -/

/-- The calls of a store. -/
inductive Command where
  | ingest (request : IngestRequest) (reads : List Bytes)
  | addRefs (refs : List AssetReference)
  | removeRefs (refs : List AssetReference)
  | removeOwnerRefs (owner : AssetOwner)
  | beginTemporaryOwnerSession (owner : AssetOwner)
  | renewTemporaryOwnerSession (owner : AssetOwner)
  | finishEmptyTemporaryOwnerSession (owner : AssetOwner)
  | commitTemporaryOwnerRefs (temporary final : AssetOwner) (expected : Nat)
  | rollbackTemporaryOwner (owner : AssetOwner)
  | recoverTemporaryOwnerType (ownerType : String)
  | recoverTemporaryOwnerTypeBefore (ownerType : String) (staleBefore : Int)
  | reconcileCatalogPage (after : Option AssetHash) (limit : Nat)
  | beginShardReconciliation (shard : String) (listing : List DirEntry)
  | nextPage (reconciler : ShardReconciler) (limit : Nat)
  | markSweepPage (after : Option AssetHash) (limit : Nat) (orphanedBefore : Int)
  | cleanupStagingPage (after : Option String) (limit : Nat) (createdBefore : Int)
  | purgeQuarantinePage (after : Option String) (limit : Nat) (createdBefore : Int)
  | beginBackupSnapshot (sessionId : String)
  | renewBackupSnapshot (sessionId : String)
  | abandonBackupSnapshot (sessionId : String)
  | cleanupStaleBackupSnapshots (staleBefore : Int) (limit : Nat)
  | openStore

def discard {α : Type} (p : Op α) : Op Unit := do
  let _ ← p
  pure ()

/-- What a call of `store` runs. -/
def code (store : AssetStore) : Command → Nat → Op Unit
  | .ingest request reads, k => discard (ingest store k request reads)
  | .addRefs refs, _ => addRefs refs
  | .removeRefs refs, _ => discard (removeRefs refs)
  | .removeOwnerRefs owner, _ => discard (removeOwnerRefs owner)
  | .beginTemporaryOwnerSession owner, _ => beginTemporaryOwnerSession owner
  | .renewTemporaryOwnerSession owner, _ => discard (renewTemporaryOwnerSession owner)
  | .finishEmptyTemporaryOwnerSession owner, _ => finishEmptyTemporaryOwnerSession owner
  | .commitTemporaryOwnerRefs temporary final expected, _ =>
    discard (commitTemporaryOwnerRefs temporary final expected)
  | .rollbackTemporaryOwner owner, k => rollbackTemporaryOwner k owner
  | .recoverTemporaryOwnerType ownerType, k => recoverTemporaryOwnerType k ownerType
  | .recoverTemporaryOwnerTypeBefore ownerType staleBefore, k =>
    recoverTemporaryOwnerTypeBefore k ownerType staleBefore
  | .reconcileCatalogPage after limit, _ => discard (reconcileCatalogPage store after limit)
  | .beginShardReconciliation shard listing, _ => discard (beginShardReconciliation shard listing)
  | .nextPage reconciler limit, _ => discard (nextPage reconciler limit)
  | .markSweepPage after limit before, k => discard (markSweepPage k after limit before)
  | .cleanupStagingPage after limit before, _ => discard (cleanupStagingPage after limit before)
  | .purgeQuarantinePage after limit before, _ => discard (purgeQuarantinePage after limit before)
  | .beginBackupSnapshot sessionId, _ => discard (beginBackupSnapshot sessionId)
  | .renewBackupSnapshot sessionId, _ => discard (renewBackupSnapshot sessionId)
  | .abandonBackupSnapshot sessionId, _ => discard (abandonBackupSnapshot sessionId)
  | .cleanupStaleBackupSnapshots staleBefore limit, _ =>
    discard (cleanupStaleBackupSnapshots staleBefore limit)
  | .openStore, k => openStore k

/-- What happens behind the back of the stores: an entry appears, changes or disappears, or
the process that holds the write lock dies and the lock is released. -/
inductive Change where
  | object (path : ObjectPath) (entry : Option Entry)
  | staged (name : String) (entry : Option Entry)
  | quarantined (name : String) (entry : Option Entry)
  | crash

def Change.apply : Change → Root → Root
  | .object path entry, s =>
    { s with files := { s.files with objects := put s.files.objects path entry } }
  | .staged name entry, s =>
    { s with files := { s.files with staging := put s.files.staging name entry } }
  | .quarantined name entry, s =>
    { s with files := { s.files with quarantine := put s.files.quarantine name entry } }
  | .crash, s => { s with writer := none }

def callsOf (store : AssetStore) : Pool.System Root Input AssetError Unit Command Change where
  code c k := code store c k
  env := Change.apply

theorem discard_wp {max : Int} {k : Nat} {α : Type} {p : Op α} {s : Root}
    (hp : wp (ledgerTask max k) p (fun _ _ => True) s) :
    wp (ledgerTask max k) (discard p) (fun _ _ => True) s :=
  wp_bind hp (fun _ _ _ => wp_end) fun _ _ _ => wp_end

theorem code_wp {max : Int} {k : Nat} {store : AssetStore}
    (hstore : store.limits.maxTotalBytes ≤ max) (hmax : max ≤ maxInteger) (c : Command) (s : Root) :
    wp (ledgerTask max k) (code store c k) (fun _ _ => True) s := by
  cases c with
  | ingest request reads => exact discard_wp (ingest_wp store hstore hmax request reads)
  | _ => exact wp_of_keeps (by simp [code, discard])

theorem Change.rely (d : Change) (max : Int) (k : Nat) (s : Root) :
    (ledgerTask max k).rely s (d.apply s) := by
  cases d with
  | crash => exact fun h => by cases h
  | _ => exact fun h => ⟨h, rfl⟩

theorem Change.catalog (d : Change) (s : Root) : (d.apply s).catalog = s.catalog := by
  cases d <;> rfl

/-- The calls of stores with a total limit of at most `max` fit together. -/
theorem ledger_fit {κ : Type} {S : Pool.System Root Input AssetError Unit κ Change} {max : Int}
    (hmax : max ≤ maxInteger) (henv : S.env = Change.apply)
    (hcode : ∀ c k, ∃ store : AssetStore, store.limits.maxTotalBytes ≤ max ∧
      ∃ command, S.code c k = code store command k) :
    Pool.Fit S (ledgerTask max) (fun s => s.catalog.Sane) fun _ _ _ => True where
  share j k s s' hjk _ h := fun hw => h.1 k (Ne.symm hjk) hw
  keeps k s s' hs h := (h.2 hs).1
  env d k s _ := henv ▸ d.rely max k s
  envKeeps d s hs := by
    rw [henv, d.catalog]
    exact hs
  spawn c k s _ := by
    obtain ⟨store, hstore, command, hc⟩ := hcode c k
    rw [hc]
    exact code_wp hstore hmax command s

def idle (s : Root) : Pool Root Input AssetError Unit := ⟨[], s⟩

theorem idle_sound {C : Nat → Interference Root Input} {I : Root → Prop}
    {Q : Nat → Except AssetError Unit → Root → Prop} {s : Root} (h : I s) :
    (idle s).Sound (fun _ => True) C I Q :=
  ⟨h, fun k p _ hk => by simp [idle] at hk⟩

theorem ledgerTask_in {κ : Type} (max : Int) (a : Pool.Action Input κ Change) :
    a.In (Pool.Within (fun _ => True) (ledgerTask max)) := by
  cases a with
  | run k i => exact ⟨trivial, trivial⟩
  | spawn c => trivial
  | env d => trivial

def FindsRoom (store : AssetStore) (c c' : Catalog) : Prop :=
  ∀ o ∈ c.objects, o.state ≠ .active → ∀ now, restoreObject o.hash now c = .ok ((), c') →
    c.totals.activeBytes + o.size ≤ store.limits.maxTotalBytes

theorem restored_activeBytes {store : AssetStore} {c c' : Catalog} (hc : c.Sane)
    (hr : Restores c c') (hroom : FindsRoom store c c') :
    c'.totals.activeBytes ≤ store.limits.maxTotalBytes := by
  obtain ⟨o, ho, hstate, now, h⟩ := hr
  have hle := hroom o ho hstate now h
  obtain ⟨n, c₁, hu, h⟩ := bind_ok.mp h
  obtain ⟨-, rfl⟩ := pure_ok.mp h
  obtain ⟨-, -, htotals⟩ := Catalog.updateObjects_totals hc.exact hu
  rw [htotals, hc.keyed.filter_eq ho (by simp) fun r _ hr => of_decide_eq_true hr]
  simpa [Totals.add_def, Totals.sub_def, AssetObject.weight, AssetObject.activeSize, hstate]
    using hle

/-- **The quota holds** in every run in which each restore of a reconciliation finds room. -/
theorem quota_kept (store : AssetStore) (files : Files)
    (actions : List (Pool.Action Input Command Change))
    (hroom : (callsOf store).server.AllSteps (fun P a _ => FindsRoom store P.shared.catalog
      ((callsOf store).step a P).shared.catalog) actions (idle ⟨files, .empty, none⟩)) :
    ((callsOf store).server.run actions (idle ⟨files, .empty, none⟩)).2.shared.catalog.totals.activeBytes
      ≤ store.limits.maxTotalBytes := by
  have hfit := ledger_fit (S := callsOf store) store.limits.bounded rfl
    fun c k => ⟨store, le_refl _, c, rfl⟩
  refine (Server.AllSteps.invariant (I := fun P => P.Sound (fun _ => True)
      (ledgerTask store.limits.maxTotalBytes) (fun s => s.catalog.Sane) (fun _ _ _ => True) ∧
      P.shared.catalog.totals.activeBytes ≤ (store.limits.maxTotalBytes : Int))
    (fun P a hroom hP => ?_) hroom ⟨idle_sound ?_, ?_⟩).2
  · refine ⟨hP.1.step hfit (ledgerTask_in _ a), ?_⟩
    show ((callsOf store).step a P).shared.catalog.totals.activeBytes ≤ _
    rcases hP.1.step_cases (ledgerTask_in _ a) with hs | ⟨k, -, hguar⟩ | ⟨d, hd⟩
    · rw [hs]
      exact hP.2
    · rcases (hguar.2 hP.1.inv).2 with hle | hle | hr
      · exact hle.trans hP.2
      · exact hle
      · exact restored_activeBytes hP.1.inv hr hroom
    · rw [hd]
      show (d.apply P.shared).catalog.totals.activeBytes ≤ _
      rw [d.catalog]
      exact hP.2
  · exact Catalog.empty_sane
  · exact Int.natCast_nonneg _

/-! ### Samples -/

namespace Sample

def whole (k : Nat) (c : Command) : List (Pool.Action Input Command Change) :=
  .spawn c :: List.replicate 40 (.run k {})

/-- The first object's file disappears and a reconciliation marks it missing; the second
object takes its place in the quota; the file comes back and is restored. -/
def restored : List (Pool.Action Input Command Change) :=
  whole 0 (.ingest request [[1, 1]]) ++ [.env (.object (relativeObjectPath hashA) none)] ++
    whole 1 (.reconcileCatalogPage none 1) ++ whole 2 (.ingest request [[2, 2]]) ++
    [.env (.object (relativeObjectPath hashA) (some (.file ⟨7, [1, 1]⟩)))] ++
    whole 3 (.reconcileCatalogPage none 1)

end Sample

open Sample in
/-- A reconciliation restores beyond the quota: four active bytes with a limit of three. -/
theorem restored_beyond_quota :
    ((callsOf store).server.run restored (idle ⟨files, .empty, none⟩)).2.shared.catalog.totals.activeBytes
      = 4 ∧ store.limits.maxTotalBytes = 3 := by
  decide +kernel

open Sample in
/-- An ingest that fills the quota. -/
theorem quota_kept_sample :
    (callsOf store).server.AllSteps (fun P a _ => FindsRoom store P.shared.catalog
      ((callsOf store).step a P).shared.catalog) (whole 0 (.ingest request [[1, 1]]))
      (idle ⟨files, .empty, none⟩) ∧
    ((callsOf store).server.run (whole 0 (.ingest request [[1, 1]]))
      (idle ⟨files, .empty, none⟩)).2.shared.catalog.totals.activeBytes
      ≤ store.limits.maxTotalBytes := by
  have hactive : (callsOf store).server.AllSteps (fun P _ _ =>
      P.shared.catalog.objects.all (fun o => o.state = .active) = true)
      (whole 0 (.ingest request [[1, 1]])) (idle ⟨files, .empty, none⟩) := by decide
  have hroom : (callsOf store).server.AllSteps (fun P a _ => FindsRoom store P.shared.catalog
      ((callsOf store).step a P).shared.catalog) (whole 0 (.ingest request [[1, 1]]))
      (idle ⟨files, .empty, none⟩) :=
    hactive.mono fun P a _ h o ho hstate _ _ =>
      absurd (by simpa using List.all_eq_true.mp h o ho) hstate
  exact ⟨hroom, quota_kept store files _ hroom⟩

end Lorepia.Assets
