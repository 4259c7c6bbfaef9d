import Lorepia.Backup.Recovery

/-!
# Calls of restore_backup, one after another

A call from a `Situation` succeeds unless it is interrupted, is out of space or may not replace
what is there, and stops in a situation again unless it is stopped inside `rollback_publish` or
rolls back to a tree that is not good. From it follows what any sequence of calls does.
-/

namespace Lorepia.Backup

open Lorepia Prog

variable {env : Env} {pkg : Package env} {name : String} {Good : Tree → Prop}
  {inv : Invocation} {s : Schedule} {w : World Disk Event}

/-! ## One call -/

variable {d : Disk} {Q : RestoreReport → World Disk Event → Prop}
  {R : Stop BackupError → World Disk Event → Prop}

theorem Situation.journal_cases (h : Situation pkg name Good d) :
    (∃ D S, d = { destination := D, staging := S } ∧ (∀ t ∈ D, Good t) ∧ ∀ t ∈ S, t = ∅) ∨
      ∃ j, d.journal = some j ∧ JournalFor pkg name j ∧
        j.phase ∈ [Phase.prepared, .copied, .verified, .oldMoved, .newPublished, .complete] := by
  cases h with
  | fresh D S hd hD hS => exact .inl ⟨D, S, hd, hD, hS⟩
  | prepared D hd hD =>
    obtain ⟨j, t, rfl, hj, hphase, -⟩ := hd
    exact .inr ⟨j, rfl, hj, by simp [hphase]⟩
  | staged j D hd hj hphase => exact .inr ⟨j, by rw [hd], hj, by rcases hphase with h | h <;> simp [h]⟩
  | moved j O hd hj hphase => exact .inr ⟨j, by rw [hd], hj, by rcases hphase with h | h <;> simp [h]⟩
  | recovered j t hd hj hphase => exact .inr ⟨j, by rw [hd], hj, by simp [hphase]⟩
  | published j O hd hj hphase => exact .inr ⟨j, by rw [hd], hj, by simp [hphase]⟩
  | final j O hd hj hphase => exact .inr ⟨j, by rw [hd], hj, by simp [hphase]⟩
  | complete j hd hj hphase => exact .inr ⟨j, by rw [hd], hj, by simp [hphase]⟩

def Unhindered (pkg : Package env) (inv : Invocation) : Prop :=
  inv.options.policy = .replace ∧ HasSpace pkg inv

/-- What the old directory may hold in the final part of a call: a good tree moved there,
or what it held at the start. -/
def KeptFrom (Good : Tree → Prop) (d : Disk) (t : Tree) : Prop := Good t ∨ t ∈ d.old

theorem restoreBackup_wp (h : Situation pkg name Good w.state)
    (hQ : ∀ r w', w'.state = { destination := some pkg.tree } → Q r w')
    (hR : ∀ e w', Stopped pkg name Good (∃ t ∈ w.state.old, ¬ Good t) w' →
      (Unhindered pkg inv → s.Interrupts) → R e w') :
    wp s (restoreBackup pkg name inv) Q R w := by
  have hstop : ∀ e w', Situation pkg name Good w'.state → s.Interrupts → R e w' :=
    fun e w' hsit hs => hR e w' (.situation hsit) fun _ => hs
  have hrest : ∀ (resumed : Bool) (p : BackupProgress) (w₁ : World Disk Event),
      JournalFor pkg name p → Running pkg name Good (KeptFrom Good w.state) p w₁.state →
      wp s (publishNew pkg inv p >>= fun p => finish pkg inv resumed p) Q R w₁ := by
    intro resumed p w₁ hj hrun
    refine wp_bind.mpr (publishNew_wp hj hrun (fun _ ht => .inl ht) (fun p' O w₂ hpub => ?_)
      fun e w₂ hsit hs => hR e w₂ (.situation hsit) fun hun => hs hun.1)
    refine finish_wp hpub hQ
      fun e w₃ (hstopped : Stopped pkg name Good _ w₃) hs => hR e w₃ ?_ fun _ => hs
    cases hstopped with
    | situation hsit => exact .situation hsit
    | window hwin hlast => exact .window hwin hlast
    | spoiled hbad hmem =>
      obtain ⟨t, ht, hnot⟩ := hbad
      exact .spoiled ⟨t, (hpub.kept t ht).resolve_left hnot, hnot⟩ hmem
  rcases h.journal_cases with ⟨D, S, hd, hD, hS⟩ | ⟨j, hd, hj, hphase⟩
  · refine wp_bind.mpr (clearLeftovers_fresh hd hS (fun w₁ hw₁ => ?_)
      fun w₁ hw₁ => hstop .crashed w₁ (hw₁ ▸ h))
    have hfresh : Situation pkg name Good w₁.state := .fresh D none hw₁ hD (by simp)
    refine wp_bind.mpr (resumeJournal_none (by rw [hw₁]) (wp_bind.mpr (startProgress_new ?_
      fun hpolicy => hR _ _ (.situation hfresh) fun hun => absurd hun.1 hpolicy)))
    have hj := journalFor_newProgress pkg name w₁.state.destination
    have hphase : (newProgress pkg name w₁.state.destination).phase = .prepared := rfl
    have hr : D.isSome = true →
        (newProgress pkg name w₁.state.destination).replacedExisting = true := fun hsome => by
      rw [hw₁]
      exact hsome
    generalize newProgress pkg name w₁.state.destination = p at hj hphase hr
    have hrun : Running pkg name Good (KeptFrom Good w.state) (announced pkg inv p)
        { destination := D, staging := some ∅, journal := some (announced pkg inv p) } :=
      .prepared D ∅ rfl hphase hD hr staged_empty
    refine wp_bind.mpr (announce_wp hj (by simp [hphase]) (d := { destination := D, staging := some ∅ })
      (fun hno => by cases hno) (fun _ => by rw [hw₁])
      (fun w₂ hw₂ => hrest _ _ w₂ hj.announced (hw₂ ▸ hrun))
      fun e w₂ hw₂ hs => hR e w₂ (.situation ?_) fun hun => hs hun.2)
    rcases hw₂ with hw₂ | hw₂ | hw₂
    · exact hw₂ ▸ hfresh
    · exact .fresh D (some ∅) hw₂ hD fun t ht => (Option.some.inj ht).symm
    · exact hw₂ ▸ hrun.situation hj.announced
  · refine wp_bind.mpr (clearLeftovers_resumed (by rw [hd]; rfl) ?_)
    refine wp_bind.mpr (resumeJournal_wp hj hphase hd ?_)
    have hkept : ∀ t ∈ w.state.old, KeptFrom Good w.state t := fun t ht => .inr ht
    refine undoMove_wp h hd hkept (fun j' w₁ hj' hrun => ?_) hstop
    refine wp_bind.mpr (startProgress_resumed hj' ?_)
    have hrun' : Running pkg name Good (KeptFrom Good w.state) (announced pkg inv j')
        { w₁.state with journal := some (announced pkg inv j') } := hrun.rewrite rfl rfl
    refine wp_bind.mpr (announce_wp hj' hrun.phase_mem (fun _ => rfl) (fun hno => by cases hno)
      (fun w₂ hw₂ => hrest _ _ w₂ hj'.announced (hw₂ ▸ hrun'))
      fun e w₂ hw₂ hs => hR e w₂ (.situation ?_) fun hun => hs hun.2)
    rcases hw₂ with hw₂ | hw₂ | hw₂
    · exact hw₂ ▸ hrun.situation hj'
    · exact hw₂ ▸ hrun.situation hj'
    · exact hw₂ ▸ hrun'.situation hj'.announced

/-! ## After a crash inside `rollback_publish` -/

theorem publishNew_skip {p : BackupProgress} {Q : BackupProgress → World Disk Event → Prop}
    (hphase : p.phase = .newPublished ∨ p.phase = .complete) (hQ : Q p w) :
    wp s (publishNew pkg inv p) Q R w := by
  have hne : p.phase ≠ .oldMoved := by rcases hphase with h | h <;> simp [h]
  have hlt : ∀ q ∈ [Phase.copied, .verified, .oldMoved, .newPublished], ¬ p.phase < q := by
    rcases hphase with h | h <;> rw [h] <;> decide
  simp only [publishNew, reconcile, copyStage, verifyStage, moveOldStage, publishStage, hne, false_and,
    hlt .copied (by simp), hlt .verified (by simp), hlt .oldMoved (by simp),
    hlt .newPublished (by simp), if_false, wp_bind, wp_read, wp_pure]
  exact hQ

/-- A resumed call that has nothing to move reaches its final validation. -/
theorem restoreBackup_resumed {p : BackupProgress} (hd : w.state.journal = some p)
    (hj : JournalFor pkg name p) (hphase : p.phase = .newPublished ∨ p.phase = .complete)
    (hold : ¬ (w.state.old.isSome = true ∧ w.state.destination.isNone = true))
    (hfinish : ∀ p' w', JournalFor pkg name p' → (p'.phase = .newPublished ∨ p'.phase = .complete) →
      w'.state = { w.state with journal := some p' } → wp s (finish pkg inv true p') Q R w')
    (hR : ∀ e p' w', JournalFor pkg name p' → (p'.phase = .newPublished ∨ p'.phase = .complete) →
      w'.state = { w.state with journal := some p' } → R e w') :
    wp s (restoreBackup pkg name inv) Q R w := by
  have hmem : p.phase ∈ [Phase.prepared, .copied, .verified, .oldMoved, .newPublished, .complete] := by
    rcases hphase with h | h <;> simp [h]
  have hsame : w.state = { w.state with journal := some p } := by rw [← hd]
  refine wp_bind.mpr (clearLeftovers_resumed (by rw [hd]; rfl) ?_)
  refine wp_bind.mpr (resumeJournal_wp hj hmem hd (undoMove_skip hold ?_ ?_))
  · rintro ⟨hmoved, -⟩
    rcases hphase with h | h <;> rw [h] at hmoved <;> cases hmoved
  refine wp_bind.mpr (startProgress_resumed hj ?_)
  refine wp_bind.mpr (announce_wp hj hmem (fun _ => rfl) (fun hno => by cases hno)
    (fun w₂ hw₂ => wp_bind.mpr (publishNew_skip hphase (hfinish _ w₂ hj.announced hphase hw₂)))
    fun e w₂ hw₂ _ => ?_)
  rcases hw₂ with hw₂ | hw₂ | hw₂
  · exact hR e p w₂ hj hphase (hw₂.trans hsame)
  · exact hR e p w₂ hj hphase (hw₂.trans hsame)
  · exact hR e _ w₂ hj.announced hphase hw₂

/-- A call after a crash inside `rollback_publish` does not mix trees either. -/
theorem restoreBackup_window (h : Window pkg name Good w.state)
    (hQ : ∀ r w', Window pkg name Good w'.state → Q r w')
    (hR : ∀ e w', Situation pkg name Good w'.state ∨ Window pkg name Good w'.state → R e w') :
    wp s (restoreBackup pkg name inv) Q R w := by
  cases h with
  | unpublished j O hd hj hphase =>
    cases O with
    | some t =>
      -- the old tree is still away, and the phase is not one that can move it back
      have hmem : j.phase ∈ [Phase.prepared, .copied, .verified, .oldMoved, .newPublished, .complete] := by
        rcases hphase with h | h <;> simp [h]
      refine wp_bind.mpr (clearLeftovers_resumed (by rw [hd]; rfl) ?_)
      refine wp_bind.mpr (resumeJournal_wp hj hmem (by rw [hd]) ?_)
      rw [undoMove, if_pos (by simp [hd])]
      refine wp_bind.mpr (wp_require.mpr ⟨fun hok => ?_, fun _ => ?_⟩)
      · rcases hphase with h | h <;> simp [h] at hok
      · exact hR _ _ (.inr (.unpublished j (some t) hd hj hphase))
    | none =>
      refine restoreBackup_resumed (by rw [hd]) hj hphase (by simp [hd])
        (fun p w₁ hp hphase' hw₁ => ?_) fun e p w₁ hp hphase' hw₁ =>
          hR e w₁ (.inr (.unpublished p none (by rw [hw₁, hd]) hp hphase'))
      have hd₁ : w₁.state = { journal := some p, staging := some pkg.tree } := by rw [hw₁, hd]
      refine wp_bind.mpr (wp_attempt.mpr (validateRestoredData_wp (fun w₂ hw₂ hsome => ?_)
        fun e w₂ hw₂ _ => ?_))
      · rw [hd₁] at hsome
        cases hsome
      · have hd₂ := hw₂.trans hd₁
        refine wp_bind.mpr (wp_bind.mpr (wp_read.mpr ?_))
        rw [id, if_neg (by simp [hd₂])]
        refine wp_bind.mpr (wp_when.mpr ⟨fun hno => by simp [hd₂] at hno, fun _ => ?_⟩)
        refine wp_bind.mpr (wp_when.mpr ⟨fun hno => by simp [hd₂] at hno, fun _ => ?_⟩)
        refine wp_bind.mpr (wp_require.mpr ⟨fun _ => ?_, fun hno => absurd rfl hno⟩)
        refine wp_bind.mpr (writeProgress_wp (hp.restarted.valid (by simp [restarted])) ?_ fun _ => ?_)
        · refine hR _ _ (.inl (.prepared none ?_ (by simp)))
          exact ⟨_, pkg.tree, by rw [World.after_state, hd₂], hp.restarted, rfl, by simp, staged_tree⟩
        · exact hR _ _ (.inr (.unpublished p none hd₂ hp hphase'))
  | swapped j t hd hj hphase ht =>
    refine restoreBackup_resumed (by rw [hd]) hj hphase (by simp [hd])
      (fun p w₁ hp hphase' hw₁ => ?_) fun e p w₁ hp hphase' hw₁ =>
        hR e w₁ (.inr (.swapped p t (by rw [hw₁, hd]) hp hphase' ht))
    have hd₁ : w₁.state = { journal := some p, destination := some t, staging := some pkg.tree } := by
      rw [hw₁, hd]
    refine wp_bind.mpr (wp_attempt.mpr (validateRestoredData_wp (fun w₂ hw₂ _ => ?_)
      fun e w₂ hw₂ _ => ?_))
    · have hd₂ := hw₂.trans hd₁
      have hwin : Window pkg name Good (w₂.after .writeJournal fun d =>
          { d with journal := some { p with phase := .complete } }).state :=
        .swapped _ t (by rw [World.after_state, hd₂]) (hp.withPhase .complete) (.inr rfl) ht
      refine wp_bind.mpr (wp_read.mpr (wp_bind.mpr (wp_when.mpr
        ⟨fun hno => by simp [hd₂] at hno, fun _ => ?_⟩)))
      refine wp_bind.mpr (writeProgress_wp ((hp.withPhase _).valid (by simp)) ?_
        fun _ => hR _ _ (.inr (.swapped p t hd₂ hp hphase' ht)))
      refine wp_bind.mpr (notify_wp ?_ fun _ => hR _ _ (.inr hwin))
      refine wp_bind.mpr (wp_act.mpr ⟨fun _ => hR _ _ (.inr hwin), fun _ => hQ _ _ ?_⟩)
      refine .abandoned t ?_ ht
      rw [World.after_state, World.tick_state, World.after_state, hd₂]
    · have hd₂ := hw₂.trans hd₁
      refine wp_bind.mpr (wp_bind.mpr (wp_read.mpr ?_))
      rw [id, if_pos (by simp [hd₂])]
      refine wp_pure.mpr (wp_bind.mpr (wp_require.mpr ⟨fun hno => (by cases hno), fun _ => ?_⟩))
      exact hR _ _ (.inr (.swapped p t hd₂ hp hphase' ht))
  | abandoned t hd ht =>
    refine wp_bind.mpr (wp_bind.mpr (wp_read.mpr ?_))
    rw [id, if_neg (by simp [hd])]
    refine wp_bind.mpr (wp_when.mpr ⟨fun _ => ?_, fun hno => by simp [hd] at hno⟩)
    refine wp_bind.mpr (wp_require.mpr ⟨fun hempty => ?_, fun _ => hR _ _ (.inr (.abandoned t hd ht))⟩)
    have := hempty.2
    rw [hd] at this
    exact absurd ((tree_isEmpty pkg).symm.trans this) (by decide)

/-! ## A small package -/

def sampleEnv : Env where
  sha256 bytes :=
    String.ofList (List.replicate (64 - bytes.length) 'a' ++ List.replicate bytes.length 'b')
  validateProductDatabase bytes := bytes == [1]
  validateAssetCatalog bytes := bytes == [2]

def sampleEntry (path : String) (kind : EntryKind) (content : Bytes) : BackupEntry :=
  { path, kind, content, size := content.length, sha256 := sampleEnv.sha256 content }

/-- The two databases and the two receipts, without asset objects. -/
def samplePackage : Package sampleEnv where
  sessionId := String.ofList (List.replicate 32 '0')
  manifestHash := String.ofList (List.replicate 64 '0')
  entries :=
    [sampleEntry "data/assets/assets.sqlite3" .assetCatalog [2],
      sampleEntry "data/product.sqlite3" .productDatabase [1],
      sampleEntry "progress.json" .progressReceipt [],
      sampleEntry "receipts/compatibility.json" .compatibilityReceipt []]
  totalEntryBytes := 2
  scanPoints := 1
  session_hex := by decide +kernel
  hash_hex := by decide +kernel
  total := by decide +kernel
  total_lt := by decide
  entry_hash := by decide +kernel
  entry_size := by decide +kernel
  entry_hex := by decide +kernel
  objects := by decide +kernel
  ordered := by decide +kernel
  copying_fresh := by decide +kernel
  product := by decide +kernel
  catalog := by decide +kernel

def sampleOld : Tree := ((∅ : Tree).insert "a" [7]).insert "b" [8]

def sampleCall (schedule : Schedule) : Invocation where
  options := { policy := .replace, unknownSpacePolicy := .failClosed }
  availableBytes := some (2 ^ 40)
  removalOrder := ["a", "b"]
  schedule

theorem sampleCall_unhindered (schedule : Schedule) :
    Unhindered samplePackage (sampleCall schedule) := by
  refine ⟨rfl, by decide, ?_⟩
  show enforceRestoreSpace (2 + spaceReserveBytes) (some (2 ^ 40)) .failClosed = .ok ()
  decide

theorem calm_not_interrupts : ¬ Schedule.Interrupts fun _ => false := by
  rintro ⟨k, hk⟩
  cases hk

/-! ## Sequences of calls -/

theorem exec_of_wp {P : Outcome → Disk → Prop}
    (h : wp inv.schedule (restoreBackup pkg name inv) Q R { state := d })
    (hok : ∀ r w', Q r w' → P { result := .ok r, trace := w'.trace } w'.state)
    (herr : ∀ e w', R e w' → P { result := .error e, trace := w'.trace } w'.state) :
    P ((restores pkg name).exec inv d).1 ((restores pkg name).exec inv d).2 := by
  unfold restores
  cases hrun : restoreBackup pkg name inv inv.schedule { state := d } with
  | mk result w' =>
    cases result with
    | ok r => simpa only [hrun] using hok r w' (wp_of_eq_ok h hrun)
    | error e => simpa only [hrun] using herr e w' (wp_of_eq_error h hrun)

/-- The call was not stopped between the first rename of `rollback_publish` and the journal
write that records the rollback. -/
def Outcome.OutsideRollback (outcome : Outcome) : Prop :=
  outcome.trace.getLast? ≠ some .unpublish ∧ outcome.trace.getLast? ≠ some .restoreOld

theorem exec_situation (h : Situation pkg name (fun _ => True) d)
    (hout : ((restores pkg name).exec inv d).1.OutsideRollback) :
    Situation pkg name (fun _ => True) ((restores pkg name).exec inv d).2 := by
  revert hout
  refine exec_of_wp (P := fun o d' => o.OutsideRollback → Situation pkg name (fun _ => True) d')
    (restoreBackup_wp (w := { state := d }) h (fun r w' hw' => hw') fun e w' hstopped _ => hstopped)
    (fun r w' hw' _ => .fresh _ none hw' (fun _ _ => trivial) (by simp)) fun e w' hstopped hout => ?_
  cases hstopped with
  | situation hsit => exact hsit
  | window hwin hlast => exact absurd hlast (not_or.mpr hout)
  | spoiled hbad hmem =>
    obtain ⟨t, -, hnot⟩ := hbad
    exact absurd trivial hnot

theorem exec_calm (h : Situation pkg name (fun _ => True) d)
    (hcalm : ¬ inv.schedule.Interrupts) (hun : Unhindered pkg inv) :
    ∃ report, ((restores pkg name).exec inv d).1.result = .ok report ∧
      ((restores pkg name).exec inv d).2 = { destination := some pkg.tree } := by
  refine exec_of_wp (P := fun o d' => ∃ report, o.result = .ok report ∧
    d' = { destination := some pkg.tree })
    (restoreBackup_wp (w := { state := d }) h (fun r w' hw' => hw') fun e w' _ hs => hs hun)
    (fun r w' hw' => ⟨r, rfl, hw'⟩) fun e w' hs => absurd hs hcalm

/-- **Restores recover.** After any calls, interrupted anywhere but between the renames of a
`rollback_publish` and the journal write after them, one call that runs undisturbed returns
`Ok` and leaves nothing but the data tree of the package. -/
theorem restore_recovers (pkg : Package env) (name : String) (D : Option Tree)
    (calls : List Invocation)
    (hcalls : (restores pkg name).AllSteps (fun _ _ outcome => outcome.OutsideRollback) calls
      { destination := D })
    (inv : Invocation) (hcalm : ¬ inv.schedule.Interrupts) (hun : Unhindered pkg inv) :
    ∃ report,
      ((restores pkg name).exec inv ((restores pkg name).run calls { destination := D }).2).1.result =
        .ok report ∧
      ((restores pkg name).exec inv ((restores pkg name).run calls { destination := D }).2).2 =
        { destination := some pkg.tree } := by
  refine exec_calm (hcalls.invariant (I := Situation pkg name fun _ => True)
    (fun d inv hout h => exec_situation h hout) ?_) hcalm hun
  exact .fresh D none rfl (fun _ _ => trivial) (by simp)

/-- A call stopped part-way through removing the old tree is recovered. -/
theorem restore_recovers_from_removal :
    ∃ report,
      ((restores samplePackage "data").exec (sampleCall fun _ => false)
        ((restores samplePackage "data").run [sampleCall fun k => k == 57]
          { destination := some sampleOld }).2).1.result = .ok report ∧
      ((restores samplePackage "data").exec (sampleCall fun _ => false)
        ((restores samplePackage "data").run [sampleCall fun k => k == 57]
          { destination := some sampleOld }).2).2 = { destination := some samplePackage.tree } :=
  restore_recovers samplePackage "data" (some sampleOld) [sampleCall fun k => k == 57]
    ⟨⟨by decide +kernel, by decide +kernel⟩, trivial⟩ (sampleCall fun _ => false)
    calm_not_interrupts (sampleCall_unhindered _)

/-- The journal says that the new tree is published; it is back in staging, and the old tree
is still away. -/
def sampleCrashed : Disk where
  journal := some
    { operation := .restore, sessionId := samplePackage.sessionId, phase := .newPublished
      destinationName := "data", sourceManifestSha256 := some samplePackage.manifestHash
      lastVerifiedObjectHash := none, verifiedObjects := 0, verifiedBytes := 2, requiredBytes := 2
      availableBytes := some (2 ^ 40), replacedExisting := true }
  staging := some samplePackage.tree
  old := some sampleOld

/-- The observer cancels the final validation, and the call crashes between the two renames
of `rollback_publish`: every later call finds the old tree away under a phase that does not
move it back, and changes nothing. -/
theorem restore_stuck_after_rollback_crash :
    ((restores samplePackage "data").run [sampleCall fun k => k == 47 || k == 49]
        { destination := some sampleOld }).2 = sampleCrashed ∧
      ((restores samplePackage "data").exec (sampleCall fun _ => false) sampleCrashed).1.result =
        .error (.failed .journalConflict) ∧
      ((restores samplePackage "data").exec (sampleCall fun _ => false) sampleCrashed).2 =
        sampleCrashed := by
  refine ⟨?_, ?_, ?_⟩ <;> decide +kernel

/-- A call that does not roll back to a partly removed tree. -/
def KeepsTrees (pkg : Package env) (oldTree : Tree) (d : Disk) (outcome : Outcome) : Prop :=
  ∀ t ∈ d.old, t = oldTree ∨ t = pkg.tree ∨ .cancelled .finalValidation ∉ outcome.trace

def Complete (pkg : Package env) (oldTree t : Tree) : Prop := t = oldTree ∨ t = pkg.tree

theorem exec_complete {oldTree : Tree}
    (h : Situation pkg name (Complete pkg oldTree) d ∨ Window pkg name (Complete pkg oldTree) d)
    (hkeeps : KeepsTrees pkg oldTree d ((restores pkg name).exec inv d).1) :
    Situation pkg name (Complete pkg oldTree) ((restores pkg name).exec inv d).2 ∨
      Window pkg name (Complete pkg oldTree) ((restores pkg name).exec inv d).2 := by
  revert hkeeps
  refine exec_of_wp (P := fun o d' => KeepsTrees pkg oldTree d o →
      Situation pkg name (Complete pkg oldTree) d' ∨ Window pkg name (Complete pkg oldTree) d')
    (Q := fun r w' => Situation pkg name (Complete pkg oldTree) w'.state ∨
      Window pkg name (Complete pkg oldTree) w'.state)
    (R := fun e w' => KeepsTrees pkg oldTree d { result := .error e, trace := w'.trace } →
      Situation pkg name (Complete pkg oldTree) w'.state ∨
      Window pkg name (Complete pkg oldTree) w'.state)
    ?_ (fun r w' hw' _ => hw') fun e w' hw' => hw'
  rcases h with h | h
  · refine restoreBackup_wp (w := { state := d }) h (fun r w' hw' => .inl ?_)
      fun e w' hstopped _ hkeeps => ?_
    · exact .fresh _ none hw' (fun t ht => .inr (Option.some.inj ht).symm) (by simp)
    · cases hstopped with
      | situation hsit => exact .inl hsit
      | window hwin _ => exact .inr hwin
      | spoiled hbad hmem =>
        obtain ⟨t, ht, hnot⟩ := hbad
        rcases hkeeps t ht with hold | hnew | hno
        · exact absurd (.inl hold) hnot
        · exact absurd (.inr hnew) hnot
        · exact absurd hmem hno
  · exact restoreBackup_window (w := { state := d }) h (fun r w' hw' => .inr hw')
      fun e w' hw' _ => hw'

theorem Situation.destination (h : Situation pkg name Good d) (hnew : Good pkg.tree) :
    ∀ t ∈ d.destination, Good t := by
  cases h with
  | fresh D S hd hD hS => rwa [hd]
  | prepared D hd hD =>
    obtain ⟨j, t, rfl, -⟩ := hd
    exact hD
  | staged j D hd hj hphase hD => rwa [hd]
  | moved j O hd => simp [hd]
  | recovered j t hd hj hphase ht => simpa [hd] using ht
  | published j O hd => simpa [hd] using hnew
  | final j O hd => simpa [hd] using hnew
  | complete j hd => simpa [hd] using hnew

theorem Window.destination (h : Window pkg name Good d) : ∀ t ∈ d.destination, Good t := by
  cases h with
  | unpublished j O hd => simp [hd]
  | swapped j t hd hj hphase ht => simpa [hd] using ht
  | abandoned t hd ht => simpa [hd] using ht

/-- **Old or new.** As long as no call that finds a partly removed tree in the old directory
is cancelled in its final validation, the destination is missing, the complete old tree or
the complete new one, whatever else interrupts the calls. -/
theorem restore_old_or_new (pkg : Package env) (name : String) (oldTree : Tree)
    (calls : List Invocation)
    (hcalls : (restores pkg name).AllSteps (fun d _ outcome => KeepsTrees pkg oldTree d outcome)
      calls { destination := some oldTree }) :
    ∀ t ∈ ((restores pkg name).run calls { destination := some oldTree }).2.destination,
      t = oldTree ∨ t = pkg.tree := by
  have hinv := hcalls.invariant (I := fun d => Situation pkg name (Complete pkg oldTree) d ∨
    Window pkg name (Complete pkg oldTree) d) (fun d inv hkeeps h => exec_complete h hkeeps)
    (.inl (.fresh _ none rfl (fun t ht => .inl (Option.some.inj ht).symm) (by simp)))
  rcases hinv with h | h
  · exact h.destination (.inr rfl)
  · exact h.destination

/-- A call stopped part-way through removing the old tree, and one that goes on after it. -/
theorem restore_old_or_new_after_removal :
    ((restores samplePackage "data").run
        [sampleCall fun k => k == 57, sampleCall fun k => k == 20]
        { destination := some sampleOld }).2.destination.isSome ∧
    ∀ t ∈ ((restores samplePackage "data").run
        [sampleCall fun k => k == 57, sampleCall fun k => k == 20]
        { destination := some sampleOld }).2.destination,
      t = sampleOld ∨ t = samplePackage.tree :=
  ⟨by decide +kernel, restore_old_or_new samplePackage "data" sampleOld _
    ⟨fun _ ht => (by cases ht), fun _ _ => .inr (.inr (by decide +kernel)), trivial⟩⟩

/-- A call is stopped part-way through removing the old tree, and the next one is cancelled
in its final validation: what is left of the old tree is moved back to the destination. -/
theorem restore_mixes_after_removal :
    ((restores samplePackage "data").run
        [sampleCall fun k => k == 57, sampleCall fun k => k == 9]
        { destination := some sampleOld }).2.destination = some (sampleOld.erase "a") ∧
      sampleOld.erase "a" ≠ sampleOld ∧ sampleOld.erase "a" ≠ samplePackage.tree := by
  refine ⟨?_, ?_, ?_⟩ <;> decide +kernel

end Lorepia.Backup
