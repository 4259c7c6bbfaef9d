import Lorepia.Assets.Holdings
import Lorepia.Import.Bounds

/-!
# What a failed import leaves of the final owner's references

Up to the promotion an import only works for its temporary owner (`Steady`); a promotion that
fails changes nothing, and nothing fails after one that succeeds, except the removal of the
staging directory: then `import_reader` reports an error although the final owner has the
references. A run that succeeds has not lost its lease, since every check that finds it lost
ends the import.
-/

namespace Lorepia.Import

open Proc Assets

def KeepsHoldings (owner : AssetOwner) (w w' : World) : Prop :=
  heldBy owner w'.assets.catalog = heldBy owner w.assets.catalog

def SameLease (w w' : World) : Prop := w'.leaseLost = w.leaseLost

instance {owner : AssetOwner} : Std.Refl (KeepsHoldings owner) := ⟨fun _ => rfl⟩

instance {owner : AssetOwner} : IsTrans World (KeepsHoldings owner) :=
  ⟨fun _ _ _ h₁ h₂ => Eq.trans h₂ h₁⟩

instance : Std.Refl SameLease := ⟨fun _ => rfl⟩

instance : IsTrans World SameLease := ⟨fun _ _ _ h₁ h₂ => Eq.trans h₂ h₁⟩

/-- What every part of an import before the promotion does. -/
structure Steady (owner : AssetOwner) {α : Type} (p : ImportOp α) : Prop where
  holdings : p.Does (KeepsHoldings owner)
  lease : p.Succeeds SameLease

section Steady

variable {owner temporary : AssetOwner} {α β : Type}

variable {p : ImportOp α}

theorem Steady.bind {f : α → ImportOp β} (hp : Steady owner p)
    (hf : ∀ a, Steady owner (f a)) : Steady owner (p >>= f) :=
  ⟨does_bind hp.holdings fun a => (hf a).holdings, succeeds_bind hp.lease fun a => (hf a).lease⟩

@[simp] theorem steady_pure (a : α) : Steady owner (pure a) := ⟨does_pure a, succeeds_pure a⟩

@[simp] theorem steady_fail (e : ImportError) : Steady owner (fail e : ImportOp α) :=
  ⟨does_fail e, succeeds_fail e⟩

@[simp] theorem steady_ofExcept (r : Except ImportError α) : Steady owner (ofExcept r) :=
  ⟨does_ofExcept r, succeeds_ofExcept r⟩

@[simp] theorem steady_access (code : ImportErrorCode) : Steady owner (access code) := by
  refine ⟨does_atomic fun i w r w' h => ?_, Does.succeeds (does_atomic fun i w r w' h => ?_)⟩
  · split at h <;> cases h <;> rfl
  · split at h <;> cases h <;> rfl

/-- A call of the asset store touches nothing else. -/
theorem attemptAssets_lease (p : Op α) : (attemptAssets p).Does SameLease := by
  intro A w r w' h
  obtain ⟨-, -, -, hset⟩ := runs_within h
  rw [hset]
  rfl

theorem steady_attemptAssets {p : Op α} (hp : p.Does (Untouched owner)) :
    Steady owner (attemptAssets p) :=
  ⟨(does_within hp).mono fun _ _ h => h.1, (attemptAssets_lease p).succeeds⟩

theorem steady_callAssets {p : Op α} (hp : p.Does (Untouched owner)) : Steady owner (callAssets p) := by
  refine (steady_attemptAssets hp).bind fun r => ?_
  cases r with
  | ok a => exact steady_pure a
  | error e => exact steady_fail _

/-! ## Sessions and cancellation -/

theorem renew_untouched (temporary : AssetOwner) :
    (renewTemporaryOwnerSession temporary).Does (Untouched owner) :=
  untouched_of_acts (renewTemporaryOwnerSession_acts (k := 0) temporary)

@[simp] theorem steady_ensureSessionLive : Steady owner (ensureSessionLive temporary) := by
  refine (steady_callAssets (renew_untouched temporary)).bind fun live => ?_
  cases live <;> simp

theorem guardedCancel_false {A : World → Input → Prop} {w w' : World}
    (h : Runs A (guardedCancel temporary) w (.ok false) w') : SameLease w w' := by
  obtain ⟨⟨cancelled, due⟩, w₁, hpoll, h⟩ := runs_bind_ok h
  have h₁ : w₁ = w := by
    obtain ⟨i, -, hf⟩ := runs_atomic hpoll
    cases hf
    rfl
  subst h₁
  cases cancelled with
  | true => cases (runs_pure h).1
  | false =>
    cases due with
    | false => exact (runs_pure h).2 ▸ rfl
    | true =>
      obtain ⟨renewed, w₂, hrenew, h⟩ := runs_bind_ok h
      have hlease := attemptAssets_lease _ A _ _ _ hrenew
      split at h
      · exact (runs_pure h).2 ▸ hlease
      · obtain ⟨_, w₃, -, h⟩ := runs_bind_ok h
        cases (runs_pure h).1

theorem guardedCancel_holdings : (guardedCancel temporary).Does (KeepsHoldings owner) := by
  have hpoll : pollCancel.Does (KeepsHoldings owner) := does_atomic fun i w r w' h => by
    cases h
    rfl
  have hlose : loseLease.Does (KeepsHoldings owner) := does_atomic fun i w r w' h => by
    cases h
    rfl
  refine does_bind hpoll fun polled => ?_
  repeat' first
    | with_reducible refine does_bind ?_ fun _ => ?_
    | split
  all_goals simp [hlose, (steady_attemptAssets (renew_untouched temporary)).holdings]

@[simp] theorem steady_heedCancel : Steady owner (heedCancel temporary) := by
  constructor
  · refine does_bind guardedCancel_holdings fun cancelled => ?_
    cases cancelled <;> simp
  · intro A w _ w' h
    obtain ⟨cancelled, w₁, hguard, h⟩ := runs_bind_ok h
    cases cancelled with
    | true => cases (runs_fail h).1
    | false =>
      obtain ⟨-, rfl⟩ := runs_pure h
      exact guardedCancel_false hguard

/-! ## The parts of an import -/

theorem steady_copyReads (limits : ImportLimits) (reads : List SourceRead) (content : Bytes) :
    Steady owner (copyReads limits temporary reads content) := by
  induction reads generalizing content with
  | nil => exact steady_heedCancel.bind fun _ => steady_pure _
  | cons read rest ih =>
    cases read with
    | interrupted => exact steady_heedCancel.bind fun _ => steady_fail _
    | failed => exact steady_heedCancel.bind fun _ => steady_fail _
    | chunk bytes =>
      refine steady_heedCancel.bind fun _ => ?_
      split
      · exact steady_pure _
      · exact (steady_ofExcept _).bind fun _ => (steady_access _).bind fun _ => ih _

theorem steady_copySource (service : ImportService) (reads : List SourceRead) :
    Steady owner (copySource service temporary reads) :=
  (steady_access _).bind fun _ => (steady_copyReads _ _ _).bind fun _ =>
    (steady_access _).bind fun _ => steady_pure _

theorem steady_preflightEntries (u : Unicode) (limits : ImportLimits) (source : Bytes) (n : Nat)
    (entries : List (Option ZipEntry)) (p : Preflight) :
    Steady owner (preflightEntries u limits temporary source n entries p) := by
  induction entries generalizing n p with
  | nil => exact steady_pure _
  | cons entry rest ih =>
    exact steady_heedCancel.bind fun _ => (steady_access _).bind fun _ =>
      (steady_ofExcept _).bind fun _ => ih _ _

theorem steady_preflightZip (u : Unicode) (zip : ZipCrate) (limits : ImportLimits) (source : Bytes) :
    Steady owner (preflightZip u zip limits temporary source) :=
  (steady_access _).bind fun _ => (steady_ofExcept _).bind fun _ => (steady_access _).bind fun _ =>
    (steady_ofExcept _).bind fun _ => (steady_ofExcept _).bind fun _ =>
      (steady_preflightEntries _ _ _ _ _ _).bind fun _ => steady_ofExcept _

@[simp] theorem steady_accessOutput (output : Bool) : Steady owner (accessOutput output) := by
  cases output <;> simp [accessOutput]

theorem steady_streamReads (limits : ImportLimits) (declared : Nat) (output : Bool)
    (reads : List (Option Bytes)) (st : Streamed) :
    Steady owner (streamReads limits temporary declared output reads st) := by
  induction reads generalizing st with
  | nil => exact steady_heedCancel.bind fun _ => steady_pure _
  | cons read rest ih =>
    cases read with
    | none => exact steady_heedCancel.bind fun _ => steady_fail _
    | some chunk =>
      refine steady_heedCancel.bind fun _ => ?_
      split
      · exact steady_pure _
      · exact (steady_ofExcept _).bind fun _ => (steady_accessOutput _).bind fun _ => ih _

@[simp] theorem steady_streamPlan (service : ImportService) (archive : ZipArchive)
    (plan : EntryPlan) (output : Bool) (total : Nat) :
    Steady owner (streamPlan service temporary archive plan output total) :=
  steady_ensureSessionLive.bind fun _ => (steady_ofExcept _).bind fun _ =>
    (steady_accessOutput _).bind fun _ => (steady_streamReads _ _ _ _ _).bind fun _ =>
      (steady_ofExcept _).bind fun _ => (steady_accessOutput _).bind fun _ => steady_pure _

@[simp] theorem steady_validatePng (service : ImportService) (content : Bytes) (name : String) :
    Steady owner (validatePng service temporary content name) :=
  (steady_access _).bind fun _ => steady_heedCancel.bind fun _ => steady_ofExcept _

@[simp] theorem steady_cardMetadata (service : ImportService) (mime : AssetMime) (content : Bytes)
    (name : String) : Steady owner (cardMetadata service temporary mime content name) := by
  unfold cardMetadata
  split <;> simp

@[simp] theorem steady_validateJson (service : ImportService) (content : Bytes) :
    Steady owner (validateJson service content) :=
  (steady_access _).bind fun _ => (steady_ofExcept _).bind fun _ => steady_ofExcept _

theorem steady_extractEntry (service : ImportService) (archive : ZipArchive) (plan : EntryPlan)
    (x : Extraction) : Steady owner (extractEntry service temporary archive plan x) := by
  refine steady_heedCancel.bind fun _ => ?_
  repeat' first | with_reducible refine Steady.bind ?_ fun _ => ?_ | split
  all_goals simp

theorem steady_extractEntries (service : ImportService) (archive : ZipArchive)
    (plans : List EntryPlan) (x : Extraction) :
    Steady owner (extractEntries service temporary archive plans x) := by
  induction plans generalizing x with
  | nil => exact steady_pure _
  | cons plan rest ih => exact (steady_extractEntry _ _ _ _).bind fun _ => ih _

theorem steady_extractZip (service : ImportService) (source : CopiedSource) :
    Steady owner (extractZip service temporary source) :=
  (steady_preflightZip _ _ _ _).bind fun _ => steady_ensureSessionLive.bind fun _ =>
    (steady_access _).bind fun _ => (steady_ofExcept _).bind fun _ => steady_extractEntries _ _ _ _

theorem steady_ingestFile (service : ImportService) (task : Nat) (name : String) (mime : AssetMime)
    (content : Bytes) (h : temporary ≠ owner) :
    Steady owner (ingestFile service task temporary name mime content) := by
  refine (steady_access _).bind fun _ => (steady_attemptAssets (ingest_untouched h _)).bind fun r => ?_
  match r with
  | .ok outcome => exact steady_pure _
  | .error e =>
    split
    · rename_i heq
      cases heq
    · refine ⟨does_bind (does_atomic fun i w r w' h => ?_) fun _ => does_fail _, ?_⟩
      · cases h
        rfl
      · intro A w a w' h
        obtain ⟨_, w₁, -, h⟩ := runs_bind_ok h
        cases (runs_fail h).1
    · exact steady_fail _

theorem steady_ingestStagedAssets (service : ImportService) (task : Nat)
    (staged : List StagedAsset) (accepted : List AcceptedAsset) (h : temporary ≠ owner) :
    Steady owner (ingestStagedAssets service task temporary staged accepted) := by
  induction staged generalizing accepted with
  | nil => exact steady_pure _
  | cons file rest ih =>
    exact steady_heedCancel.bind fun _ => steady_ensureSessionLive.bind fun _ =>
      (steady_ingestFile _ _ _ _ _ h).bind fun _ => (steady_ofExcept _).bind fun _ => ih _

/-! ## The promotion and the whole import -/

/-- What the last part of an import does: nothing to the references when it fails, and
nothing to the lease when it succeeds. -/
structure Final (owner : AssetOwner) {α : Type} (p : ImportOp α) : Prop where
  holdings : p.Fails (KeepsHoldings owner)
  lease : p.Succeeds SameLease

theorem Steady.final (h : Steady owner p) : Final owner p :=
  ⟨h.holdings.fails, h.lease⟩

theorem Steady.bind_final {f : α → ImportOp β} (hp : Steady owner p)
    (hf : ∀ a, Final owner (f a)) : Final owner (p >>= f) :=
  ⟨fails_bind hp.holdings fun a => (hf a).holdings, succeeds_bind hp.lease fun a => (hf a).lease⟩

theorem Final.bind_pure {f : α → β} (hp : Final owner p) :
    Final owner (p >>= fun a => pure (f a)) :=
  ⟨fails_bind_pure hp.holdings, succeeds_bind hp.lease fun _ => succeeds_pure _⟩

theorem final_callAssets {p : Op α} (hp : p.Fails (Untouched owner)) : Final owner (callAssets p) := by
  constructor
  · intro A w e w' h
    obtain ⟨r, w₁, hp', h⟩ | ⟨e', hp', -⟩ := runs_bind h
    · obtain ⟨r', heq, hruns, -⟩ := runs_within hp'
      obtain rfl := Except.ok.inj heq
      cases r with
      | ok a => cases (runs_pure h).1
      | error e' =>
        obtain ⟨-, rfl⟩ := runs_fail h
        exact hp _ _ e' _ hruns
    · obtain ⟨r', heq, -⟩ := runs_within hp'
      cases heq
  · refine succeeds_bind (attemptAssets_lease p).succeeds fun r => ?_
    cases r <;> simp

theorem final_promote (accepted : List AcceptedAsset) : Final owner (promote temporary owner accepted) := by
  unfold promote
  dsimp only
  split
  · exact (steady_callAssets (untouched_of_acts
      (finishEmptyTemporaryOwnerSession_acts (k := 0) temporary))).final
  · exact (final_callAssets (commitTemporaryOwnerRefs_fails _ _ _)).bind_pure

theorem final_importZip (service : ImportService) (task : Nat) (source : CopiedSource)
    (h : temporary ≠ owner) : Final owner (importZip service task temporary owner source) :=
  (steady_extractZip _ _).bind_final fun _ =>
    (steady_ingestStagedAssets _ _ _ _ h).bind_final fun _ => steady_heedCancel.bind_final fun _ =>
      steady_ensureSessionLive.bind_final fun _ => (final_promote _).bind_pure

theorem final_importDirectPng (service : ImportService) (task : Nat) (source : CopiedSource)
    (h : temporary ≠ owner) : Final owner (importDirectPng service task temporary owner source) :=
  (steady_validatePng _ _ _).bind_final fun _ => steady_ensureSessionLive.bind_final fun _ =>
    (steady_ingestFile _ _ _ _ _ h).bind_final fun _ => steady_heedCancel.bind_final fun _ =>
      steady_ensureSessionLive.bind_final fun _ =>
        (final_callAssets (commitTemporaryOwnerRefs_fails _ _ _)).bind_pure

theorem final_importStaged (service : ImportService) (task : Nat) (reads : List SourceRead)
    (h : temporary ≠ owner) : Final owner (importStaged service task temporary owner reads) := by
  refine (steady_copySource _ _).bind_final fun _ => steady_ensureSessionLive.bind_final fun _ => ?_
  split
  · exact final_importDirectPng _ _ _ h
  · split
    · exact final_importZip _ _ _ h
    · exact (steady_fail _).final

end Steady

/-! ## The session around it -/

section Session

variable {owner : AssetOwner}

theorem validateFinalOwner_ownerType (h : validateFinalOwner owner = .ok ()) :
    owner.ownerType ≠ importTemporaryOwnerType := by
  obtain ⟨_, -, h⟩ := except_bind_ok.mp h
  exact check_ok.mp h

theorem temporaryOwner_ne (h : owner.ownerType ≠ importTemporaryOwnerType) (session : StagingSession) :
    session.temporaryOwner ≠ owner := fun heq => h (heq ▸ rfl)

theorem allocateSession_holdings (n : Nat) : (allocateSession n).Does (KeepsHoldings owner) := by
  induction n with
  | zero => exact does_fail _
  | succ n ih =>
    have hbegin (temporary : AssetOwner) :
        (callAssets (beginTemporaryOwnerSession temporary)).Does (KeepsHoldings owner) :=
      (steady_callAssets (untouched_of_acts
        (beginTemporaryOwnerSession_acts (k := 0) temporary))).holdings
    have hfinish (temporary : AssetOwner) :
        (callAssets (finishEmptyTemporaryOwnerSession temporary)).Does (KeepsHoldings owner) :=
      (steady_callAssets (untouched_of_acts
        (finishEmptyTemporaryOwnerSession_acts (k := 0) temporary))).holdings
    refine does_bind (does_atomic fun i w r w' h => ?_) fun id => does_bind (does_ofExcept _) fun _ =>
      does_bind (hbegin _) fun _ => does_bind (does_atomic fun i w r w' h => ?_) fun made => ?_
    · cases h
      rfl
    · split at h
      · cases h
        rfl
      · split at h <;> cases h <;> rfl
    · cases made with
      | created => exact does_pure _
      | alreadyExists => exact does_bind (hfinish _) fun _ => ih
      | failed => exact does_bind (hfinish _) fun _ => does_fail _

theorem openSession_holdings (task : Nat) : (openSession task owner).Does (KeepsHoldings owner) := by
  intro A w r w' h
  obtain ⟨_, w₁, hvalid, hrest⟩ | ⟨e, hvalid, rfl⟩ := runs_bind h
  · obtain ⟨hok, rfl⟩ := runs_ofExcept hvalid
    have htype := validateFinalOwner_ownerType hok.symm
    refine does_bind (steady_access _).holdings (fun _ => does_bind
      (steady_attemptAssets (recoverTemporaryOwnerType_untouched htype)).holdings fun r => ?_)
      A _ _ _ hrest
    cases r with
    | ok _ => exact allocateSession_holdings _
    | error _ => exact does_bind (does_fail _) fun _ => allocateSession_holdings _
  · obtain ⟨-, rfl⟩ := runs_ofExcept hvalid
    rfl

variable {A : World → Input → Prop} {w w' : World} {session : StagingSession}

theorem openSession_ownerType {task : Nat}
    (h : Runs A (openSession task owner) w (.ok session) w') :
    owner.ownerType ≠ importTemporaryOwnerType := by
  obtain ⟨_, _, hvalid, -⟩ := runs_bind_ok h
  exact validateFinalOwner_ownerType (runs_ofExcept hvalid).1.symm

theorem close_holdings (session : StagingSession) : session.close.Does (KeepsHoldings owner) := by
  have hcleanup : session.cleanup.Does (KeepsHoldings owner) := does_atomic fun i w r w' h => by
    split at h <;> cases h <;> rfl
  refine does_bind hcleanup fun gone => ?_
  cases gone with
  | true => exact does_pure _
  | false => exact does_bind hcleanup fun _ => does_pure _

theorem cleanup_ok
    {r : Except ImportError Bool} (h : Runs A session.cleanup w r w') : ∃ gone, r = .ok gone := by
  obtain ⟨i, -, h⟩ := runs_atomic h
  split at h
  · cases h
    exact ⟨false, rfl⟩
  · cases h
    exact ⟨true, rfl⟩

theorem close_ok
    {r : Except ImportError Bool} (h : Runs A session.close w r w') : ∃ gone, r = .ok gone := by
  obtain ⟨gone, w₁, -, h⟩ | ⟨e, hfails, -⟩ := runs_bind h
  · cases gone with
    | true => exact ⟨true, (runs_pure h).1⟩
    | false =>
      obtain ⟨again, w₂, -, h⟩ | ⟨e, hfails, -⟩ := runs_bind h
      · exact ⟨false, (runs_pure h).1⟩
      · obtain ⟨_, heq⟩ := cleanup_ok hfails
        cases heq
  · obtain ⟨_, heq⟩ := cleanup_ok hfails
    cases heq

theorem closeSession_error_holdings (task : Nat) (session : StagingSession) (e : ImportError)
    (h : session.temporaryOwner ≠ owner) :
    (closeSession task session (.error e)).Does (KeepsHoldings owner) := by
  refine does_bind (steady_attemptAssets (rollbackTemporaryOwner_untouched h)).holdings fun r => ?_
  cases r with
  | error _ => exact does_fail _
  | ok _ =>
    refine does_bind (close_holdings session) fun gone => ?_
    cases gone <;> exact does_fail _

theorem closeSession_ok (task : Nat) {receipt : ImportReceipt} {e : ImportError}
    (h : Runs A (closeSession task session (.ok receipt)) w (.error e) w') :
    Runs A session.close w (.ok false) w' := by
  obtain ⟨gone, w₁, hclose, h⟩ | ⟨e', hclose, heq⟩ := runs_bind h
  · cases gone with
    | true => cases (runs_pure h).1
    | false =>
      obtain ⟨-, rfl⟩ := runs_fail h
      exact hclose
  · obtain ⟨_, heq⟩ := close_ok hclose
    cases heq

end Session

/-- The import has given the owner references it did not have, and then neither of the two
attempts to remove the staging directory succeeds. -/
def PromotedButNotCleaned (A : World → Input → Prop) (service : ImportService) (task : Nat)
    (reads : List SourceRead) (owner : AssetOwner) (w w' : World) : Prop :=
  ∃ (session : StagingSession) (receipt : ImportReceipt) (u v : World),
    Runs A (openSession task owner) w (.ok session) u ∧
    Runs A (importStaged service task session.temporaryOwner owner reads)
      { u with leaseLost := false } (.ok receipt) v ∧
    heldBy owner v.assets.catalog ≠ heldBy owner u.assets.catalog ∧
    Runs A session.close v (.ok false) w'

section Reader

variable {A : World → Input → Prop} {service : ImportService} {task : Nat} {reads : List SourceRead}
  {owner : AssetOwner} {w w' : World}

theorem PromotedButNotCleaned.changed (h : PromotedButNotCleaned A service task reads owner w w') :
    ¬ KeepsHoldings owner w w' := by
  obtain ⟨session, receipt, u, v, hopen, -, hchanged, hclose⟩ := h
  intro hkept
  have hu : heldBy owner u.assets.catalog = heldBy owner w.assets.catalog :=
    openSession_holdings task A _ _ _ hopen
  have hw' : heldBy owner w'.assets.catalog = heldBy owner v.assets.catalog :=
    close_holdings session A _ _ _ hclose
  have hkept' : heldBy owner w'.assets.catalog = heldBy owner w.assets.catalog := hkept
  exact hchanged (hw' ▸ hkept'.trans hu.symm)

theorem runs_leaseLost_bind {α : Type} {f : Bool → ImportOp α} {r : Except ImportError α}
    (h : Runs A (leaseLost >>= f) w r w') : Runs A (f w.leaseLost) w r w' := by
  obtain ⟨lost, u, hlost, hrest⟩ | ⟨e, hlost, -⟩ := runs_bind h
  · obtain ⟨i, -, hstep⟩ := runs_atomic hlost
    cases hstep
    exact hrest
  · obtain ⟨i, -, hstep⟩ := runs_atomic hlost
    cases hstep

theorem session_keeps_or_promoted {session : StagingSession} {u : World} {e : ImportError}
    (hopen : Runs A (openSession task owner) w (.ok session) u)
    (h : Runs A (do
      let result ← (importStaged service task session.temporaryOwner owner reads).attempt
      if ← leaseLost then closeSession task session (.error (.new .assetRejected))
      else closeSession task session result) { u with leaseLost := false } (.error e) w') :
    KeepsHoldings owner u w' ∨ PromotedButNotCleaned A service task reads owner w w' := by
  have htemporary := temporaryOwner_ne (openSession_ownerType hopen) session
  have hfinal := final_importStaged service task reads htemporary
  obtain ⟨result, v, hattempt, hrest⟩ | ⟨e', hattempt, -⟩ := runs_bind h
  · obtain ⟨result', heq, hresult⟩ := runs_attempt hattempt
    obtain rfl := Except.ok.inj heq
    have hclose := runs_leaseLost_bind hrest
    cases result with
    | error e' =>
      -- whatever is reported, the session is rolled back
      have hv : KeepsHoldings owner { u with leaseLost := false } v :=
        hfinal.holdings A _ _ _ hresult
      have hrolled : KeepsHoldings owner v w' := by
        split at hclose <;> exact closeSession_error_holdings task session _ htemporary A _ _ _ hclose
      exact .inl (IsTrans.trans _ _ _ hv hrolled)
    | ok receipt =>
      -- an import that succeeded has its lease
      have hlease : v.leaseLost = false := hfinal.lease A _ _ _ hresult
      rw [hlease] at hclose
      have hcleanup := closeSession_ok task hclose
      by_cases hsame : KeepsHoldings owner u v
      · exact .inl (IsTrans.trans _ _ _ hsame (close_holdings session A _ _ _ hcleanup))
      · exact .inr ⟨session, receipt, u, v, hopen, hresult, hsame, hcleanup⟩
  · obtain ⟨_, heq, -⟩ := runs_attempt hattempt
    cases heq

/-- **A failed import keeps the references of the final owner**, unless the promotion
succeeded and it was the staging directory that could not be removed. -/
theorem import_all_or_nothing_iff {e : ImportError}
    (h : Runs A (importReader service task reads owner) w (.error e) w') :
    heldBy owner w'.assets.catalog = heldBy owner w.assets.catalog ↔
      ¬ PromotedButNotCleaned A service task reads owner w w' := by
  refine ⟨fun hkept hpromoted => hpromoted.changed hkept, fun hnot => ?_⟩
  obtain ⟨session, u, hopen, hrest⟩ | ⟨e', hopen, -⟩ := runs_bind h
  · have hu : KeepsHoldings owner w u := openSession_holdings task A _ _ _ hopen
    obtain ⟨_, u', hstart, hbody⟩ | ⟨e', hstart, -⟩ := runs_bind hrest
    · obtain ⟨i, -, hstep⟩ := runs_atomic hstart
      cases hstep
      have hw' := (session_keeps_or_promoted hopen hbody).resolve_right hnot
      exact IsTrans.trans (r := KeepsHoldings owner) _ _ _ hu hw'
    · obtain ⟨i, -, hstep⟩ := runs_atomic hstart
      cases hstep
  · exact openSession_holdings task A _ _ _ hopen

end Reader

namespace Sample

def gif : Bytes := [0x47, 0x49, 0x46, 0x38, 0x39, 0x61, 1, 0, 1, 0, 0, 0, 0, 0x3b]

def gifArchive : Bytes :=
  localRecord "a.gif" gif ++ gif ++ centralRecord "a.gif" gif 0 ++ endRecord 1 51 49

def gifService : ImportService :=
  { service with
    assets := ⟨⟨fun _ => Assets.Sample.hashA, fun declared _ _ _ => .ok declared⟩,
      ⟨16, 16, by decide, by decide, by decide⟩⟩ }

def emptyWorld : World := ⟨⟨Assets.Sample.files, .empty, none⟩, [], false⟩

/-- A step a day after the epoch at which nothing goes wrong. -/
def calm : Input := { now := 86400000, uuid := "0" }

/-- Everything up to the promotion goes well, the two cleanups do not. -/
def uncleaned : List Input := List.replicate 65 calm ++ List.replicate 2 { fails := true }

theorem failed_of_ended (inputs : List Input) (reads : List SourceRead) {e : ImportError}
    (h : (runOn inputs (importReader gifService 0 reads owner) emptyWorld).1.ended.map
      (fun r => match r with
        | .ok _ => none
        | .error e => some e) = some (some e)) :
    Runs (fun _ _ => True) (importReader gifService 0 reads owner) emptyWorld (.error e)
      (runOn inputs (importReader gifService 0 reads owner) emptyWorld).2 := by
  obtain ⟨r, hended, hr⟩ := Option.map_eq_some_iff.mp h
  cases r with
  | ok receipt => cases hr
  | error e' =>
    obtain rfl := Option.some.inj hr
    exact runs_runOn inputs (fun _ _ _ => trivial) hended

end Sample

open Sample in
/-- The import of an archive with one image is reported as failed, and the owner has the
image. -/
theorem failed_import_promotes :
    ∃ e w', Runs (fun _ _ => True) (importReader gifService 0 [.chunk gifArchive] owner) emptyWorld
        (.error e) w' ∧
      heldBy owner emptyWorld.assets.catalog = [] ∧
      (heldBy owner w'.assets.catalog).map (·.hash) = [Assets.Sample.hashA] := by
  refine ⟨⟨.cleanupFailure, true, 1⟩, _, failed_of_ended uncleaned _ ?_, ?_, ?_⟩
  · decide +kernel
  · decide +kernel
  · decide +kernel

open Sample in
/-- A stream that is no archive and no image. -/
theorem import_all_or_nothing_unsupported :
    ∃ e w', Runs (fun _ _ => True) (importReader gifService 0 [.chunk [1, 2, 3, 4]] owner) emptyWorld
        (.error e) w' ∧
      (heldBy owner w'.assets.catalog = heldBy owner emptyWorld.assets.catalog ↔
        ¬ PromotedButNotCleaned (fun _ _ => True) gifService 0 [.chunk [1, 2, 3, 4]] owner
          emptyWorld w') := by
  have hruns := failed_of_ended (List.replicate 60 calm) [.chunk [1, 2, 3, 4]]
    (e := ⟨.unsupportedFormat, false, 1⟩) (by decide)
  exact ⟨_, _, hruns, import_all_or_nothing_iff hruns⟩

end Lorepia.Import
