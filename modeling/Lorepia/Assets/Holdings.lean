import Lorepia.Lib.Alone
import Lorepia.Assets.Steps

/-!
# The references of one owner

A temporary owner's session, its ingests and its rollback never touch the rows of an owner of
another type; the promotion is the only operation that does, and it does nothing when it fails.
-/

namespace Lorepia.Assets

open Proc Tx

/-- The rows of `asset_refs` that belong to the owner. -/
def heldBy (owner : AssetOwner) (c : Catalog) : List AssetRef := c.refs.filter fun r => r.owner = owner

def SameHoldings (owner : AssetOwner) (c c' : Catalog) : Prop := heldBy owner c' = heldBy owner c

def SameRefs (c c' : Catalog) : Prop := c'.refs = c.refs

instance : IsTrans Catalog SameRefs := ⟨fun _ _ _ h₁ h₂ => Eq.trans h₂ h₁⟩

theorem updateObjects_refs (cond : AssetObject → Bool) (set : AssetObject → AssetObject) :
    Respects SameRefs (Catalog.updateObjects cond set) := by
  intro c a c' h
  obtain ⟨t, -, h⟩ := except_bind_ok.mp h
  cases h
  rfl

instance : Bookkeeping SameRefs where
  refl _ := rfl
  trans := IsTrans.trans
  insertStaging new c a c' h := by
    unfold Catalog.insertStaging at h
    split at h
    · cases h
      rfl
    · obtain ⟨t, -, h⟩ := except_bind_ok.mp h
      cases h
      rfl
  deleteStaging name c a c' h := by
    obtain ⟨t, -, h⟩ := except_bind_ok.mp h
    cases h
    rfl
  insertIntent new c a c' h := by
    obtain ⟨-, rfl⟩ := guarded_ok.mp h
    rfl
  setIntentMoved name c a c' h := by
    obtain rfl := execute_ok.mp h
    rfl
  deleteIntent name c a c' h := by
    obtain rfl := execute_ok.mp h
    rfl
  upsertQuarantine new c a c' h := by
    unfold Catalog.upsertQuarantine at h
    split at h
    · cases h
      rfl
    · obtain ⟨t, -, h⟩ := except_bind_ok.mp h
      cases h
      rfl
  deleteQuarantine name c a c' h := by
    obtain ⟨t, -, h⟩ := except_bind_ok.mp h
    cases h
    rfl
  insertTemporarySession new c a c' h := by
    unfold Catalog.insertTemporarySession at h
    split at h <;> cases h <;> rfl
  renewTemporarySession owner now c a c' h := by
    cases h
    rfl
  deleteTemporarySessions cond c a c' h := by
    cases h
    rfl
  retire cond state _ := updateObjects_refs _ _

variable {owner other : AssetOwner}

instance : IsTrans Catalog (SameHoldings owner) := ⟨fun _ _ _ h₁ h₂ => Eq.trans h₂ h₁⟩

theorem SameRefs.holdings {c c' : Catalog} (h : SameRefs c c') : SameHoldings owner c c' := by
  simp only [SameHoldings, heldBy, show c'.refs = c.refs from h]

instance : Bookkeeping (SameHoldings owner) := .mono fun _ _ (h : SameRefs _ _) => h.holdings

/-! ## Statements of another owner -/

theorem deleteRefs_holdings {cond : AssetRef → Bool} (h : ∀ r, cond r = true → r.owner ≠ owner) :
    Respects (SameHoldings owner) (Catalog.deleteRefs cond) := by
  intro c a c' hx
  obtain ⟨t, -, hx⟩ := except_bind_ok.mp hx
  cases hx
  simp only [SameHoldings, heldBy, List.filter_filter]
  refine List.filter_congr fun r _ => ?_
  by_cases hr : r.owner = owner
  · have : cond r = false := by
      by_contra hc
      exact h r (by simpa using hc) hr
    simp [hr, this]
  · simp [hr]

theorem insertRef_holdings {new : AssetRef} (h : new.owner ≠ owner) :
    Respects (SameHoldings owner) (Catalog.insertRef new) := by
  intro c a c' hx
  unfold Catalog.insertRef at hx
  split at hx
  · cases hx
    rfl
  · obtain ⟨-, -, hx⟩ := except_bind_ok.mp hx
    obtain ⟨t, -, hx⟩ := except_bind_ok.mp hx
    cases hx
    simp [SameHoldings, heldBy, h]

theorem deleteUnreferenced_refs (hash : AssetHash) :
    Respects SameRefs (do
      let referenced ← Tx.query (·.referenced hash)
      Catalog.deleteObjects fun o => o.hash = hash && !referenced) := by
  intro c a c' h
  obtain ⟨referenced, c₁, hq, h⟩ := bind_ok.mp h
  obtain ⟨rfl, rfl⟩ := query_ok.mp hq
  obtain ⟨t₁, -, h⟩ := except_bind_ok.mp h
  obtain ⟨t₂, -, h⟩ := except_bind_ok.mp h
  cases h
  refine List.filter_eq_self.mpr fun r hr => ?_
  by_cases hhash : r.hash = hash
  · -- the hash is referenced, so its object stays
    have hreferenced : c.referenced hash = true := List.any_eq_true.mpr ⟨r, hr, by simp [hhash]⟩
    simp [hreferenced]
  · simp only [Bool.not_eq_true', List.any_eq_false, List.mem_filter, Bool.and_eq_true,
      decide_eq_true_eq]
    rintro o ⟨-, ho, -⟩ heq
    exact hhash (heq.symm.trans ho)

theorem forgetOwned_holdings (h : other ≠ owner) (hash : AssetHash) (orphaned : Bool) :
    Respects (SameHoldings owner) (forgetOwned other hash orphaned) := by
  refine .bind (deleteRefs_holdings fun r hr => ?_) fun _ => ?_
  · simp only [decide_eq_true_eq] at hr
    rw [hr.1]
    exact h
  · cases orphaned with
    | true => exact (deleteUnreferenced_refs hash).mono fun _ _ h => h.holdings
    | false => exact .pure _

theorem upsertObject_refs (new : AssetObject) : Respects SameRefs (Catalog.upsertObject new) := by
  refine .bind (.query _) fun _ => .bind (.require _ _) fun _ => .bind (.query _) fun found => ?_
  cases found with
  | none =>
    intro c a c' h
    obtain ⟨t, -, h⟩ := except_bind_ok.mp h
    cases h
    rfl
  | some old => exact .bind (updateObjects_refs _ _) fun _ => .pure _

theorem recordObject_holdings (h : other ≠ owner) (expected : Expectation) (mime : AssetMime)
    (deduplicated : Bool) :
    Respects (SameHoldings owner) (recordObject expected mime (some other) deduplicated) :=
  .bind ((upsertObject_refs _).mono fun _ _ h => h.holdings) fun _ =>
    .bind (insertRef_holdings h) fun _ => .pure _

/-! ## Operations of another owner -/

/-- The references of the owner stay, whatever else happens. -/
def Untouched (owner : AssetOwner) (s s' : Root) : Prop := SameHoldings owner s.catalog s'.catalog

instance : Std.Refl (Untouched owner) := ⟨fun _ => rfl⟩

instance : IsTrans Root (Untouched owner) := ⟨fun _ _ _ h₁ h₂ => Eq.trans h₂ h₁⟩

variable {α : Type} {k : Nat} {ownerType : String}

theorem untouched_of_acts {p : Op α}
    (h : p.Always (Acts (SameHoldings owner) k)) : p.Does (Untouched owner) :=
  (h.mono fun _ _ ha => ha.2 : p.Always (Untouched owner)).does

theorem ingest_untouched {store : AssetStore} {mime : AssetMime} {name : Option String}
    (h : other ≠ owner) (reads : List Bytes) :
    (ingest store k ⟨mime, name, some other⟩ reads).Does (Untouched owner) :=
  untouched_of_acts (ingest_acts (recordObject_holdings h) reads)

theorem rollbackTemporaryOwnerLocked_untouched (h : other ≠ owner) :
    (rollbackTemporaryOwnerLocked k other).Does (Untouched owner) :=
  untouched_of_acts (rollbackTemporaryOwnerLocked_acts (forgetOwned_holdings h))

theorem rollbackTemporaryOwner_untouched (h : other ≠ owner) :
    (rollbackTemporaryOwner k other).Does (Untouched owner) :=
  untouched_of_acts (rollbackTemporaryOwner_acts (forgetOwned_holdings h))

theorem runs_execute_ok {x : Sql α} {a : α} {A : Root → Input → Prop} {s t : Root}
    (h : Runs A (execute x) s (.ok a) t) : x s.catalog = .ok (a, t.catalog) := by
  obtain ⟨i, -, hf⟩ := runs_atomic h
  split at hf
  · cases hf
  · split at hf
    · cases hf
    · obtain ⟨hr, rfl⟩ := Prod.mk.inj (Option.some.inj hf)
      exact ok_of_commit hr

theorem execute_fails (x : Sql α) : (execute x).Fails (Untouched owner) := by
  intro A s e t h
  obtain ⟨i, -, hf⟩ := runs_atomic h
  split at hf
  · cases hf
  · split at hf
    · cases hf
      rfl
    · obtain ⟨hr, rfl⟩ := Prod.mk.inj (Option.some.inj hf)
      simp only [Untouched, commit_error_state hr]
      exact Std.Refl.refl _

theorem claimCandidate_ownerType {staleBefore : Nat} {c c' : Catalog} {claimed : AssetOwner}
    (h : claimCandidate ownerType staleBefore c = .ok (some (some claimed), c')) :
    claimed.ownerType = ownerType := by
  obtain ⟨candidate, c₁, hq, h⟩ := bind_ok.mp h
  cases candidate with
  | none =>
    obtain ⟨hr, -⟩ := pure_ok.mp h
    cases hr
  | some candidate =>
    obtain ⟨ownerId, hasLease⟩ := candidate
    cases hasLease with
    | true =>
      obtain ⟨n, c₂, -, h⟩ := bind_ok.mp h
      obtain ⟨hr, -⟩ := pure_ok.mp h
      split at hr
      · cases hr
        rfl
      · cases hr
    | false =>
      obtain ⟨hr, -⟩ := pure_ok.mp h
      cases hr
      rfl

theorem recoverRound_untouched {staleBefore : Nat} (h : owner.ownerType ≠ ownerType) :
    (recoverRound k ownerType staleBefore).Does (Untouched owner) := by
  have hclaim : (execute (claimCandidate ownerType staleBefore)).Does (Untouched owner) :=
    untouched_of_acts (acts_execute (k := k) (claimCandidate_respects _ _))
  intro A s r t hr
  obtain ⟨claimed, u, hexec, hr⟩ | ⟨e, hexec, -⟩ := runs_bind hr
  · refine IsTrans.trans _ _ _ (hclaim A s _ u hexec) ?_
    match claimed with
    | none => exact does_pure _ A u r t hr
    | some none => exact does_pure _ A u r t hr
    | some (some other) =>
      -- the owner that is rolled back is of the type that is recovered
      have hother : other ≠ owner := fun heq => h (heq ▸ claimCandidate_ownerType (runs_execute_ok hexec))
      refine does_bind (does_ofExcept _) (fun _ => ?_) A u r t hr
      exact does_bind (rollbackTemporaryOwnerLocked_untouched hother) fun _ => does_pure _
  · exact hclaim A s _ t hexec

theorem recoverTemporaryOwnerType_untouched (h : owner.ownerType ≠ ownerType) :
    (recoverTemporaryOwnerType k ownerType).Does (Untouched owner) := by
  refine does_bind (untouched_of_acts (acts_nowMs (k := k))) fun now => ?_
  refine does_bind (does_ofExcept _) fun _ => does_bind (does_ofExcept _) fun _ => ?_
  exact does_repeatUntil (recoverRound_untouched h)

theorem commitTemporaryOwnerRefs_fails (temporary final : AssetOwner) (expected : Nat) :
    (commitTemporaryOwnerRefs temporary final expected).Fails (Untouched owner) := by
  refine fails_bind (does_ofExcept _) fun _ => fails_bind (does_ofExcept _) fun _ =>
    fails_bind (does_ofExcept _) fun _ => fails_bind (does_ofExcept _) fun _ =>
    fails_bind (untouched_of_acts (acts_nowMs (k := 0))) fun now => ?_
  exact execute_fails _

end Lorepia.Assets
