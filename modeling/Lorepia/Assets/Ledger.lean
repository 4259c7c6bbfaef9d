import Mathlib
import Lorepia.Assets.Store

/-!
# The ledger of the asset catalog

`asset_totals` is written by row triggers only, each by what one row contributes (its weight),
so every statement keeps it equal to the totals recomputed from the tables (`Exact`). Only the
writes of an ingest and the restore of a reconciliation add to the active bytes (`Settles`).
-/

namespace Lorepia.Assets

open Tx

/-! ## Totals add up -/

namespace Totals

instance : Zero Totals := ⟨zero⟩

instance : Add Totals :=
  ⟨fun a b => ⟨a.1 + b.1, a.2 + b.2, a.3 + b.3, a.4 + b.4, a.5 + b.5, a.6 + b.6⟩⟩

instance : Neg Totals := ⟨fun a => ⟨-a.1, -a.2, -a.3, -a.4, -a.5, -a.6⟩⟩

theorem zero_def : (0 : Totals) = ⟨0, 0, 0, 0, 0, 0⟩ := rfl

theorem add_def (a b : Totals) :
    a + b = ⟨a.1 + b.1, a.2 + b.2, a.3 + b.3, a.4 + b.4, a.5 + b.5, a.6 + b.6⟩ := rfl

theorem neg_def (a : Totals) : -a = ⟨-a.1, -a.2, -a.3, -a.4, -a.5, -a.6⟩ := rfl

instance : AddCommGroup Totals where
  add_assoc a b c := by ext <;> simp only [add_def] <;> omega
  zero_add a := by ext <;> simp only [add_def, zero_def] <;> omega
  add_zero a := by ext <;> simp only [add_def, zero_def] <;> omega
  neg_add_cancel a := by ext <;> simp only [add_def, zero_def, neg_def] <;> omega
  add_comm a b := by ext <;> simp only [add_def] <;> omega
  nsmul := nsmulRec
  zsmul := zsmulRec

theorem sub_def (a b : Totals) :
    a - b = ⟨a.1 - b.1, a.2 - b.2, a.3 - b.3, a.4 - b.4, a.5 - b.5, a.6 - b.6⟩ := by
  rw [sub_eq_add_neg, neg_def, add_def]
  ext <;> simp only <;> omega

end Totals

/-! ## Weights -/

def AssetObject.weight (o : AssetObject) : Totals := ⟨1, o.activeSize, 0, o.missingOne, 0, 0⟩

def refWeight : Totals := ⟨0, 0, 1, 0, 0, 0⟩

def quarantineWeight : Totals := ⟨0, 0, 0, 0, 1, 0⟩

def stagingWeight : Totals := ⟨0, 0, 0, 0, 0, 1⟩

namespace Totals

theorem objectInserted_eq (t : Totals) (o : AssetObject) : t.objectInserted o = t + o.weight := by
  ext <;> simp only [objectInserted, add_def, AssetObject.weight] <;> omega

theorem objectUpdated_eq (t : Totals) (old new : AssetObject) :
    t.objectUpdated old new = t + (new.weight - old.weight) := by
  ext <;> simp only [objectUpdated, add_def, sub_def, AssetObject.weight] <;> omega

theorem objectDeleted_eq (t : Totals) (o : AssetObject) : t.objectDeleted o = t + -o.weight := by
  ext <;> simp only [objectDeleted, add_def, neg_def, AssetObject.weight] <;> omega

theorem refInserted_eq (t : Totals) : t.refInserted = t + refWeight := by
  ext <;> simp only [refInserted, add_def, refWeight] <;> omega

theorem refDeleted_eq (t : Totals) : t.refDeleted = t + -refWeight := by
  ext <;> simp only [refDeleted, add_def, neg_def, refWeight] <;> omega

theorem stagingInserted_eq (t : Totals) : t.stagingInserted = t + stagingWeight := by
  ext <;> simp only [stagingInserted, add_def, stagingWeight] <;> omega

theorem stagingDeleted_eq (t : Totals) : t.stagingDeleted = t + -stagingWeight := by
  ext <;> simp only [stagingDeleted, add_def, neg_def, stagingWeight] <;> omega

theorem quarantineInserted_eq (t : Totals) : t.quarantineInserted = t + quarantineWeight := by
  ext <;> simp only [quarantineInserted, add_def, quarantineWeight] <;> omega

theorem quarantineDeleted_eq (t : Totals) : t.quarantineDeleted = t + -quarantineWeight := by
  ext <;> simp only [quarantineDeleted, add_def, neg_def, quarantineWeight] <;> omega

theorem checked_ok {t t' : Totals} : t.checked = .ok t' ↔ t = t' ∧ t.InRange := by
  unfold checked
  split
  · next h => simp [h]
  · next h => simp [h]

/-- A statement whose triggers all succeed moves the row by the sum of what they add, and
leaves it in range. -/
theorem fire_ok {α : Type} {trigger : Totals → α → Totals} {δ : α → Totals}
    (hδ : ∀ t r, trigger t r = t + δ r) {rows : List α} {t t' : Totals}
    (h : fire trigger rows t = .ok t') (ht : t.InRange) :
    t' = t + (rows.map δ).sum ∧ t'.InRange := by
  induction rows generalizing t with
  | nil =>
    cases h
    exact ⟨by simp, ht⟩
  | cons row rows ih =>
    obtain ⟨t₁, h₁, h₂⟩ := except_bind_ok.mp h
    obtain ⟨rfl, hr⟩ := checked_ok.mp h₁
    obtain ⟨hsum, hr'⟩ := ih h₂ hr
    refine ⟨?_, hr'⟩
    rw [hsum, hδ, List.map_cons, List.sum_cons, add_assoc]

end Totals

namespace Catalog

def weights (c : Catalog) : Totals :=
  (c.objects.map AssetObject.weight).sum + (c.refs.map fun _ => refWeight).sum +
    (c.quarantine.map fun _ => quarantineWeight).sum + (c.staging.map fun _ => stagingWeight).sum

def Exact (c : Catalog) : Prop := c.totals = c.weights ∧ c.totals.InRange

variable {c c' : Catalog} {cond : AssetObject → Bool} {set : AssetObject → AssetObject}

/-- An exact ledger, and the primary key of `asset_objects`. -/
structure Sane (c : Catalog) : Prop where
  exact : c.Exact
  keyed : Table.Keyed (·.hash) c.objects

theorem empty_sane : empty.Sane := ⟨⟨rfl, by decide⟩, Table.Keyed.nil⟩

/-! ## Statements -/

/-- From an exact ledger to an exact ledger with no more active bytes. -/
def Settles (c c' : Catalog) : Prop :=
  c.Sane → c'.Sane ∧ c'.totals.activeBytes ≤ c.totals.activeBytes

instance : Std.Refl Settles := ⟨fun _ h => ⟨h, le_refl _⟩⟩

instance : IsTrans Catalog Settles := ⟨fun _ _ _ h₁ h₂ h =>
  have h' := h₁ h
  ⟨(h₂ h'.1).1, (h₂ h'.1).2.trans h'.2⟩⟩

theorem sum_activeBytes (l : List Totals) :
    l.sum.activeBytes = (l.map Totals.activeBytes).sum := by
  induction l with
  | nil => rfl
  | cons t l ih => rw [List.sum_cons, List.map_cons, List.sum_cons, ← ih]; rfl

theorem sum_activeBytes_nonpos {α : Type} {δ : α → Totals} {rows : List α}
    (h : ∀ r ∈ rows, (δ r).activeBytes ≤ 0) : (rows.map δ).sum.activeBytes ≤ 0 := by
  rw [sum_activeBytes, List.map_map]
  induction rows with
  | nil => simp
  | cons r rows ih =>
    have hr := h r List.mem_cons_self
    have ih := ih fun r hr => h r (List.mem_cons_of_mem _ hr)
    rw [List.map_cons, List.sum_cons]
    exact add_nonpos hr ih

theorem activeSize_nonneg (o : AssetObject) : 0 ≤ o.activeSize := by
  unfold AssetObject.activeSize
  split
  · exact Int.natCast_nonneg _
  · exact le_refl _

theorem activeSize_of_inactive {o : AssetObject} (h : o.state ≠ .active) : o.activeSize = 0 :=
  if_neg h

theorem insertObject_totals {new : AssetObject} (hc : c.Exact)
    (h : insertObject new c = .ok ((), c')) :
    c'.Exact ∧ c'.objects = c.objects ++ [new] ∧ c'.totals = c.totals + new.weight := by
  obtain ⟨t, ht, h⟩ := except_bind_ok.mp h
  obtain ⟨rfl, hr⟩ := Totals.checked_ok.mp ht
  cases h
  refine ⟨⟨?_, hr⟩, rfl, Totals.objectInserted_eq _ _⟩
  rw [Totals.objectInserted_eq, hc.1]
  simp only [weights, List.map_append, List.sum_append, List.map_cons, List.map_nil,
    List.sum_cons, List.sum_nil]
  abel

theorem updateObjects_totals {n : Nat} (hc : c.Exact) (h : updateObjects cond set c = .ok (n, c')) :
    c'.Exact ∧ c'.objects = Table.update cond set c.objects ∧ c'.totals = c.totals +
      ((c.objects.filter cond).map fun o => (set o).weight - o.weight).sum := by
  obtain ⟨t, ht, h⟩ := except_bind_ok.mp h
  obtain ⟨rfl, hr⟩ := Totals.fire_ok (fun t o => Totals.objectUpdated_eq t o (set o)) ht hc.2
  cases h
  refine ⟨⟨?_, hr⟩, rfl, rfl⟩
  rw [Table.sum_map_sub, hc.1]
  simp only [weights, Table.sum_update]
  abel

theorem updateObjects_sane
    (hset : ∀ o, (set o).hash = o.hash) : Preserves Sane (updateObjects cond set) := by
  intro c n c' hc h
  obtain ⟨hexact, hobjects, -⟩ := updateObjects_totals hc.exact h
  exact ⟨hexact, hobjects ▸ hc.keyed.update hset⟩

theorem updateObjects_settles
    (hhash : ∀ o, (set o).hash = o.hash) (hset : ∀ o, (set o).activeSize ≤ o.activeSize) :
    Respects Settles (updateObjects cond set) := by
  intro c n c' h hc
  obtain ⟨-, -, htotals⟩ := updateObjects_totals hc.exact h
  refine ⟨updateObjects_sane hhash c n c' hc h, ?_⟩
  have hle : ((c.objects.filter cond).map fun o => (set o).weight - o.weight).sum.activeBytes ≤ 0 :=
    sum_activeBytes_nonpos fun o _ => by
      have := hset o
      simp only [Totals.sub_def, AssetObject.weight]
      omega
  rw [htotals, Totals.add_def]
  exact add_le_of_nonpos_right hle

theorem deleteObjects_settles (cond : AssetObject → Bool) :
    Respects Settles (deleteObjects cond) := by
  intro c n c' h hc
  obtain ⟨t₁, h₁, h⟩ := except_bind_ok.mp h
  obtain ⟨t₂, h₂, h⟩ := except_bind_ok.mp h
  obtain ⟨rfl, hr₁⟩ := Totals.fire_ok (fun t _ => Totals.refDeleted_eq t) h₁ hc.exact.2
  obtain ⟨rfl, hr₂⟩ := Totals.fire_ok Totals.objectDeleted_eq h₂ hr₁
  cases h
  refine ⟨⟨⟨?_, hr₂⟩, hc.keyed.filter _⟩, ?_⟩
  · rw [hc.exact.1]
    simp only [weights, Table.sum_filter_not, Table.sum_map_neg]
    abel
  · have hrefs : ∀ rows : List AssetRef, (rows.map fun _ => -refWeight).sum.activeBytes ≤ 0 :=
      fun rows => sum_activeBytes_nonpos fun _ _ => le_refl _
    have hobjects : ∀ rows : List AssetObject,
        (rows.map fun (o : AssetObject) => -o.weight).sum.activeBytes ≤ 0 :=
      fun rows => sum_activeBytes_nonpos fun o _ => neg_nonpos.mpr (activeSize_nonneg o)
    exact (add_le_of_nonpos_right (hobjects _)).trans (add_le_of_nonpos_right (hrefs _))

/-- A statement on one of the other counted tables. -/
theorem Settles.of_weights {δ : Totals} (hobjects : c'.objects = c.objects)
    (ht : c'.totals = c.totals + δ) (hw : c'.weights = c.weights + δ) (hr : c'.totals.InRange) (hδ : δ.activeBytes ≤ 0) :
    Settles c c' := by
  intro hc
  refine ⟨⟨⟨by rw [ht, hw, hc.exact.1], hr⟩, hobjects ▸ hc.keyed⟩, ?_⟩
  rw [ht, Totals.add_def]
  exact add_le_of_nonpos_right hδ

theorem insertRef_settles (new : AssetRef) : Respects Settles (insertRef new) := by
  intro c a c' h
  unfold insertRef at h
  split at h
  · cases h
    exact Std.Refl.refl c
  · obtain ⟨-, -, h⟩ := except_bind_ok.mp h
    obtain ⟨t, ht, h⟩ := except_bind_ok.mp h
    obtain ⟨rfl, hr⟩ := Totals.checked_ok.mp ht
    cases h
    refine .of_weights rfl (Totals.refInserted_eq _) ?_ hr (le_refl _)
    simp only [weights, List.map_append, List.sum_append, List.map_cons, List.map_nil,
      List.sum_cons, List.sum_nil]
    abel

theorem insertRefs_settles (rows : List AssetRef) : Respects Settles (insertRefs rows) := by
  induction rows with
  | nil => exact .pure ()
  | cons new rest ih => exact (insertRef_settles new).bind fun _ => ih

theorem deleteRefs_settles (cond : AssetRef → Bool) : Respects Settles (deleteRefs cond) := by
  intro c a c' h hc
  obtain ⟨t, ht, h⟩ := except_bind_ok.mp h
  obtain ⟨rfl, hr⟩ := Totals.fire_ok (fun t _ => Totals.refDeleted_eq t) ht hc.exact.2
  cases h
  refine Settles.of_weights rfl rfl ?_ hr (sum_activeBytes_nonpos fun _ _ => le_refl _) hc
  simp only [weights, Table.sum_filter_not, Table.sum_map_neg]
  abel

theorem insertStaging_settles (new : StagingRow) : Respects Settles (insertStaging new) := by
  intro c a c' h
  unfold insertStaging at h
  split at h
  · cases h
    exact Std.Refl.refl c
  · obtain ⟨t, ht, h⟩ := except_bind_ok.mp h
    obtain ⟨rfl, hr⟩ := Totals.checked_ok.mp ht
    cases h
    refine .of_weights rfl (Totals.stagingInserted_eq _) ?_ hr (le_refl _)
    simp only [weights, List.map_append, List.sum_append, List.map_cons, List.map_nil,
      List.sum_cons, List.sum_nil]
    abel

theorem deleteStaging_settles (name : String) : Respects Settles (deleteStaging name) := by
  intro c a c' h hc
  obtain ⟨t, ht, h⟩ := except_bind_ok.mp h
  obtain ⟨rfl, hr⟩ := Totals.fire_ok (fun t _ => Totals.stagingDeleted_eq t) ht hc.exact.2
  cases h
  refine Settles.of_weights rfl rfl ?_ hr (sum_activeBytes_nonpos fun _ _ => le_refl _) hc
  simp only [weights, Table.sum_filter_not, Table.sum_map_neg]
  abel

theorem upsertQuarantine_settles (new : QuarantineRow) :
    Respects Settles (upsertQuarantine new) := by
  intro c a c' h hc
  unfold upsertQuarantine at h
  split at h
  · cases h
    refine Settles.of_weights rfl (add_zero _).symm ?_ hc.exact.2 (le_refl _) hc
    simp only [weights, Table.map_update (k := fun _ => quarantineWeight) (fun _ => rfl), add_zero]
  · obtain ⟨t, ht, h⟩ := except_bind_ok.mp h
    obtain ⟨rfl, hr⟩ := Totals.checked_ok.mp ht
    cases h
    refine Settles.of_weights rfl (Totals.quarantineInserted_eq _) ?_ hr (le_refl _) hc
    simp only [weights, List.map_append, List.sum_append, List.map_cons, List.map_nil,
      List.sum_cons, List.sum_nil]
    abel

theorem deleteQuarantine_settles (name : String) : Respects Settles (deleteQuarantine name) := by
  intro c a c' h hc
  obtain ⟨t, ht, h⟩ := except_bind_ok.mp h
  obtain ⟨rfl, hr⟩ := Totals.fire_ok (fun t _ => Totals.quarantineDeleted_eq t) ht hc.exact.2
  cases h
  refine Settles.of_weights rfl rfl ?_ hr (sum_activeBytes_nonpos fun _ _ => le_refl _) hc
  simp only [weights, Table.sum_filter_not, Table.sum_map_neg]
  abel

theorem Settles.of_counted (hobjects : c'.objects = c.objects)
    (hrefs : c'.refs = c.refs) (hquarantine : c'.quarantine = c.quarantine)
    (hstaging : c'.staging = c.staging) (htotals : c'.totals = c.totals) : Settles c c' := by
  have hw : c'.weights = c.weights := by
    unfold weights
    rw [hobjects, hrefs, hquarantine, hstaging]
  intro hc
  exact ⟨⟨⟨by rw [htotals, hw, hc.exact.1], htotals ▸ hc.exact.2⟩, hobjects ▸ hc.keyed⟩,
    htotals ▸ le_refl _⟩

theorem insertIntent_settles (new : QuarantineIntent) : Respects Settles (insertIntent new) := by
  intro c a c' h
  obtain ⟨-, rfl⟩ := guarded_ok.mp h
  exact .of_counted rfl rfl rfl rfl rfl

theorem setIntentMoved_settles (name : String) : Respects Settles (setIntentMoved name) := by
  intro c a c' h
  obtain rfl := execute_ok.mp h
  exact .of_counted rfl rfl rfl rfl rfl

theorem deleteIntent_settles (name : String) : Respects Settles (deleteIntent name) := by
  intro c a c' h
  obtain rfl := execute_ok.mp h
  exact .of_counted rfl rfl rfl rfl rfl

theorem insertBackupSession_settles (new : BackupSession) :
    Respects Settles (insertBackupSession new) := by
  intro c a c' h
  obtain ⟨-, rfl⟩ := guarded_ok.mp h
  exact .of_counted rfl rfl rfl rfl rfl

theorem renewBackupSession_settles (sessionId : String) (now : Nat) :
    Respects Settles (renewBackupSession sessionId now) := by
  intro c a c' h
  cases h
  exact .of_counted rfl rfl rfl rfl rfl

theorem deleteBackupSession_settles (sessionId : String) :
    Respects Settles (deleteBackupSession sessionId) := by
  intro c a c' h
  obtain rfl := execute_ok.mp h
  exact .of_counted rfl rfl rfl rfl rfl

theorem insertTemporarySession_settles (new : TemporarySession) :
    Respects Settles (insertTemporarySession new) := by
  intro c a c' h
  unfold insertTemporarySession at h
  split at h <;> cases h <;> exact .of_counted rfl rfl rfl rfl rfl

theorem renewTemporarySession_settles (owner : AssetOwner) (now : Nat) :
    Respects Settles (renewTemporarySession owner now) := by
  intro c a c' h
  cases h
  exact .of_counted rfl rfl rfl rfl rfl

theorem deleteTemporarySessions_settles (cond : TemporarySession → Bool) :
    Respects Settles (deleteTemporarySessions cond) := by
  intro c a c' h
  cases h
  exact .of_counted rfl rfl rfl rfl rfl

attribute [simp] deleteObjects_settles insertRef_settles insertRefs_settles deleteRefs_settles
  insertStaging_settles deleteStaging_settles upsertQuarantine_settles deleteQuarantine_settles
  insertIntent_settles setIntentMoved_settles deleteIntent_settles insertBackupSession_settles
  renewBackupSession_settles deleteBackupSession_settles insertTemporarySession_settles
  renewTemporarySession_settles deleteTemporarySessions_settles

theorem updateObjects_inactive_settles
    (hhash : ∀ o, (set o).hash = o.hash) (hset : ∀ o, (set o).state ≠ .active) :
    Respects Settles (updateObjects cond set) :=
  updateObjects_settles hhash fun o => (activeSize_of_inactive (hset o)).trans_le (activeSize_nonneg o)

theorem setState_settles (hash : AssetHash) {state : AssetState} (h : state ≠ .active) :
    Respects Settles (setState hash state) :=
  (updateObjects_inactive_settles (by intro; rfl) fun _ => h).bind fun _ => .pure ()

@[simp] theorem repairPath_settles (hash : AssetHash) (path : ObjectPath) :
    Respects Settles (repairPath hash path) := by
  refine .bind (.query _) fun _ => .bind (.require _ _) fun _ => .bind ?_ fun _ => .pure ()
  exact updateObjects_settles (fun _ => rfl) fun _ => le_refl _

end Catalog

/-! ## Transactions -/

section Transactions

open Catalog

@[simp] theorem addRefsWrites_settles (now : Nat) (refs : List AssetReference) :
    Respects Settles (addRefsWrites now refs) := by
  induction refs with
  | nil => exact .pure ()
  | cons reference rest ih =>
    refine .bind (.check _) fun _ => .bind (.query _) fun object => ?_
    cases object with
    | none => exact .bind (.check _) fun _ => .bind (insertRef_settles _) fun _ => ih
    | some o => exact .bind (.require _ _) fun _ => .bind (insertRef_settles _) fun _ => ih

@[simp] theorem removeRefsWrites_settles (refs : List AssetReference) (total : Nat) :
    Respects Settles (removeRefsWrites refs total) := by
  induction refs generalizing total with
  | nil => exact .pure _
  | cons reference rest ih =>
    exact .bind (.check _) fun _ => .bind (deleteRefs_settles _) fun _ => ih _

@[simp] theorem commitTemporaryOwnerWrites_settles (temporary final : AssetOwner)
    (expected now : Nat) :
    Respects Settles (commitTemporaryOwnerWrites temporary final expected now) := by
  simp only [commitTemporaryOwnerWrites]
  repeat' first | with_reducible refine Respects.bind ?_ fun _ => ?_ | split
  all_goals simp

@[simp] theorem forgetOwned_settles (owner : AssetOwner) (hash : AssetHash) (orphaned : Bool) :
    Respects Settles (forgetOwned owner hash orphaned) := by
  simp only [forgetOwned]
  repeat' first | with_reducible refine Respects.bind ?_ fun _ => ?_ | split
  all_goals simp

@[simp] theorem forgetOrphan_settles (hash : AssetHash) (orphaned : Bool) :
    Respects Settles (forgetOrphan hash orphaned) := by
  simp only [forgetOrphan]
  split <;> repeat' with_reducible refine Respects.bind ?_ fun _ => ?_
  all_goals simp

@[simp] theorem dropSessions_settles (sessions : List String) (released : Nat) :
    Respects Settles (dropSessions sessions released) := by
  induction sessions generalizing released with
  | nil => exact .pure _
  | cons sessionId rest ih =>
    exact .bind (deleteRefs_settles _) fun _ => .bind (deleteBackupSession_settles _) fun _ => ih _

@[simp] theorem cleanupStaleBackupSessions_settles (staleBefore : Int) (limit : Nat) :
    Respects Settles (cleanupStaleBackupSessions staleBefore limit) :=
  .bind (.query _) fun _ => .bind (dropSessions_settles _ _) fun _ => .pure _

@[simp] theorem pinActiveObjects_settles (sessionId : String) (now : Nat) :
    Respects Settles (pinActiveObjects sessionId now) := by
  simp only [pinActiveObjects, releasePins]
  repeat' first | with_reducible refine Respects.bind ?_ fun _ => ?_ | split
  all_goals simp

@[simp] theorem abandonWrites_settles (sessionId : String) :
    Respects Settles (abandonWrites sessionId) :=
  .bind (deleteRefs_settles _) fun _ => .bind (deleteBackupSession_settles _) fun _ => .pure _

end Transactions

/-! ## Statements that cannot fail

A statement that takes rows away, or replaces objects by ones with no more active bytes,
never violates a constraint of the ledger as long as that is exact. -/

namespace Totals

def Nonneg (t : Totals) : Prop :=
  0 ≤ t.objectCount ∧ 0 ≤ t.activeBytes ∧ 0 ≤ t.referenceCount ∧ 0 ≤ t.missingCount ∧
    0 ≤ t.quarantineCount ∧ 0 ≤ t.stagingCount

theorem inRange_iff {t : Totals} : t.InRange ↔ t.Nonneg ∧ t.activeBytes ≤ maxInteger := by
  unfold InRange Nonneg
  tauto

theorem Nonneg.add {a b : Totals} (ha : a.Nonneg) (hb : b.Nonneg) : (a + b).Nonneg := by
  unfold Nonneg at *
  simp only [add_def]
  omega

theorem nonneg_sum {α : Type} {w : α → Totals} {rows : List α} (h : ∀ r ∈ rows, (w r).Nonneg) :
    (rows.map w).sum.Nonneg := by
  induction rows with
  | nil => simp [Nonneg, zero_def]
  | cons r rows ih =>
    rw [List.map_cons, List.sum_cons]
    exact (h r List.mem_cons_self).add (ih fun r hr => h r (List.mem_cons_of_mem _ hr))

/-- Triggers that replace the weights of rows that are counted in the totals by others with no
more active bytes all succeed. -/
theorem fire_succeeds {α : Type} {f : Totals → α → Totals} {old v : α → Totals}
    (hf : ∀ t r, f t r = t + (v r - old r)) {l : List α} (hold : ∀ r ∈ l, (old r).Nonneg)
    (hnew : ∀ r ∈ l, (v r).Nonneg) (hactive : ∀ r ∈ l, (v r).activeBytes ≤ (old r).activeBytes)
    {t : Totals} (hcounted : (t - (l.map old).sum).Nonneg) (ht : t.activeBytes ≤ maxInteger) :
    ∃ t', fire f l t = .ok t' := by
  induction l generalizing t with
  | nil => exact ⟨t, rfl⟩
  | cons r l ih =>
    have hold' : ∀ r ∈ l, (old r).Nonneg := fun r hr => hold r (List.mem_cons_of_mem _ hr)
    -- what is left to replace is still counted
    have hrest : (f t r - (l.map old).sum).Nonneg := by
      have heq : f t r - (l.map old).sum = t - ((r :: l).map old).sum + v r := by
        rw [hf, List.map_cons, List.sum_cons]
        abel
      rw [heq]
      exact hcounted.add (hnew r List.mem_cons_self)
    have hnonneg : (f t r).Nonneg := by
      have := hrest.add (nonneg_sum hold')
      rwa [sub_add_cancel] at this
    have hle : (f t r).activeBytes ≤ maxInteger := by
      have := hactive r List.mem_cons_self
      rw [hf]
      simp only [add_def, sub_def]
      omega
    obtain ⟨t', h'⟩ := ih hold' (fun r hr => hnew r (List.mem_cons_of_mem _ hr))
      (fun r hr => hactive r (List.mem_cons_of_mem _ hr)) hrest hle
    exact ⟨t', except_bind_ok.mpr ⟨_, checked_ok.mpr ⟨rfl, inRange_iff.mpr ⟨hnonneg, hle⟩⟩, h'⟩⟩

end Totals

namespace Catalog

theorem missingOne_nonneg (o : AssetObject) : 0 ≤ o.missingOne := by
  unfold AssetObject.missingOne
  split <;> omega

theorem weight_nonneg (o : AssetObject) : o.weight.Nonneg :=
  ⟨Int.zero_le_ofNat 1, activeSize_nonneg o, le_refl _, missingOne_nonneg o, le_refl _, le_refl _⟩

theorem refWeight_nonneg : refWeight.Nonneg := by simp [Totals.Nonneg, refWeight]

theorem quarantineWeight_nonneg : quarantineWeight.Nonneg := by
  simp [Totals.Nonneg, quarantineWeight]

theorem stagingWeight_nonneg : stagingWeight.Nonneg := by simp [Totals.Nonneg, stagingWeight]

variable {α : Type}

theorem counted_filter {w : α → Totals} {rows : List α} {t u : Totals}
    (hw : ∀ r, (w r).Nonneg) (hu : u.Nonneg) (ht : t = (rows.map w).sum + u)
    (cond : α → Bool) : (t - ((rows.filter cond).map w).sum).Nonneg := by
  have heq : t - ((rows.filter cond).map w).sum =
      ((rows.filter fun r => !cond r).map w).sum + u := by
    rw [ht, Table.sum_filter_not]
    abel
  rw [heq]
  exact (Totals.nonneg_sum fun r _ => hw r).add hu

/-- The weights of `asset_refs`, `asset_quarantine` and `asset_staging`. -/
def otherWeights (c : Catalog) : Totals :=
  (c.refs.map fun _ => refWeight).sum + (c.quarantine.map fun _ => quarantineWeight).sum +
    (c.staging.map fun _ => stagingWeight).sum

theorem otherWeights_nonneg (c : Catalog) : c.otherWeights.Nonneg :=
  ((Totals.nonneg_sum fun _ _ => refWeight_nonneg).add
    (Totals.nonneg_sum fun _ _ => quarantineWeight_nonneg)).add
      (Totals.nonneg_sum fun _ _ => stagingWeight_nonneg)

theorem weights_eq (c : Catalog) :
    c.weights = (c.objects.map AssetObject.weight).sum + c.otherWeights := by
  unfold weights otherWeights
  abel

theorem succeeds_of_settles {x : Sql α} (hx : Respects Settles x)
    (h : ∀ c : Catalog, c.Sane → ∃ r, x c = .ok r) : Succeeds Sane x := by
  intro c hc
  obtain ⟨⟨a, c'⟩, hr⟩ := h c hc
  exact ⟨a, c', hr, (hx c a c' hr hc).1⟩

theorem updateObjects_succeeds {cond : AssetObject → Bool} {set : AssetObject → AssetObject}
    (hhash : ∀ o, (set o).hash = o.hash) (hset : ∀ o, (set o).activeSize ≤ o.activeSize) :
    Succeeds Sane (updateObjects cond set) := by
  refine succeeds_of_settles (updateObjects_settles hhash hset) fun c hc => ?_
  obtain ⟨t, ht⟩ := Totals.fire_succeeds (f := fun t o => t.objectUpdated o (set o))
    (l := c.objects.filter cond) (fun t o => Totals.objectUpdated_eq t o (set o))
    (fun o _ => weight_nonneg o) (fun o _ => weight_nonneg (set o)) (fun o _ => hset o)
    (counted_filter weight_nonneg c.otherWeights_nonneg (hc.exact.1.trans c.weights_eq) cond)
    hc.exact.2.2.1.2
  exact ⟨_, except_bind_ok.mpr ⟨t, ht, rfl⟩⟩

theorem setState_succeeds (hash : AssetHash) {state : AssetState} (h : state ≠ .active) :
    Succeeds Sane (setState hash state) :=
  (updateObjects_succeeds (by intro; rfl)
    fun o => (activeSize_of_inactive h).trans_le (activeSize_nonneg o)).bind fun _ => .pure ()

theorem zero_nonneg : (0 : Totals).Nonneg := by simp [Totals.Nonneg, Totals.zero_def]

/-- The triggers of a `DELETE` on rows that are counted. -/
theorem fire_deletes {trigger : Totals → α → Totals} {w : α → Totals}
    (htrigger : ∀ t r, trigger t r = t + -w r) (hw : ∀ r, (w r).Nonneg) {l : List α} {t : Totals}
    (hcounted : (t - (l.map w).sum).Nonneg) (ht : t.activeBytes ≤ maxInteger) :
    ∃ t', Totals.fire trigger l t = .ok t' :=
  Totals.fire_succeeds (v := fun _ => 0) (fun t r => (htrigger t r).trans (by rw [zero_sub]))
    (fun r _ => hw r) (fun _ _ => zero_nonneg) (fun r _ => (hw r).2.1) hcounted ht

theorem upsertQuarantine_succeeds (new : QuarantineRow) : Succeeds Sane (upsertQuarantine new) := by
  refine succeeds_of_settles (upsertQuarantine_settles new) fun c hc => ?_
  unfold upsertQuarantine
  split
  · exact ⟨_, rfl⟩
  · have hr : c.totals.quarantineInserted.InRange := by
      have := hc.exact.2
      simp only [Totals.InRange, Totals.quarantineInserted] at this ⊢
      omega
    exact ⟨_, except_bind_ok.mpr ⟨_, Totals.checked_ok.mpr ⟨rfl, hr⟩, rfl⟩⟩

theorem deleteQuarantine_succeeds (name : String) : Succeeds Sane (deleteQuarantine name) := by
  refine succeeds_of_settles (deleteQuarantine_settles name) fun c hc => ?_
  obtain ⟨t, ht⟩ := fire_deletes (l := c.quarantine.filter fun r => r.name = name)
    (fun t _ => Totals.quarantineDeleted_eq t) (fun _ => quarantineWeight_nonneg)
    (counted_filter (fun _ => quarantineWeight_nonneg) (u := (c.objects.map AssetObject.weight).sum +
      (c.refs.map fun _ => refWeight).sum + (c.staging.map fun _ => stagingWeight).sum)
      (((Totals.nonneg_sum fun o _ => weight_nonneg o).add
        (Totals.nonneg_sum fun _ _ => refWeight_nonneg)).add
          (Totals.nonneg_sum fun _ _ => stagingWeight_nonneg))
      (by rw [hc.exact.1, weights]; abel) _) hc.exact.2.2.1.2
  exact ⟨_, except_bind_ok.mpr ⟨t, ht, rfl⟩⟩

end Catalog

section Transactions

open Catalog

theorem finalizeMove_succeeds (intent : QuarantineIntent) : Succeeds Sane (finalizeMove intent) := by
  refine (upsertQuarantine_succeeds _).bind fun _ => ?_
  have hlast : Succeeds Sane (deleteIntent intent.name) :=
    succeeds_of_settles (deleteIntent_settles _) fun _ _ => ⟨_, rfl⟩
  cases intent.originalHash with
  | none => exact (Succeeds.pure ()).bind fun _ => hlast
  | some hash => exact (setState_succeeds hash (by simp)).bind fun _ => hlast

theorem finalizePurge_succeeds (name : String) : Succeeds Sane (finalizePurge name) := by
  refine Succeeds.bind ?_ fun _ => (deleteQuarantine_succeeds name).bind fun _ =>
    succeeds_of_settles (deleteIntent_settles _) fun _ _ => ⟨_, rfl⟩
  exact updateObjects_succeeds (by intro; rfl) fun o =>
    (activeSize_of_inactive (by simp)).trans_le (activeSize_nonneg o)

end Transactions

end Lorepia.Assets
