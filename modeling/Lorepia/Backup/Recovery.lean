import Lorepia.Backup.Copying

/-!
# What interrupted restores leave behind

`Situation` lists the disks that calls of `restore_backup` leave when none is stopped inside
`rollback_publish`, by the journal's phase and where the package's tree, the old tree and the
destination are; `Window` lists the further disks a crash inside `rollback_publish` leaves. Both
are stated for a set `Good` of trees that may stand at the destination, so that one case analysis
says which calls recover and when the destination is never a mixture.

Inside a call, `Running` relates the progress in memory to the disk; each stage of the
program takes one such relation to the next.
-/

namespace Lorepia.Backup

open Lorepia Prog

variable {env : Env}

/-! ## Situations -/

/-- The disks between calls. -/
inductive Situation (pkg : Package env) (name : String) (Good : Tree → Prop) (d : Disk) : Prop
  /-- No restore is under way. -/
  | fresh (D S : Option Tree) (hd : d = { destination := D, staging := S })
      (hD : ∀ t ∈ D, Good t) (hS : ∀ t ∈ S, t = ∅)
  /-- Files are being copied. -/
  | prepared (D : Option Tree) (hd : Preparing pkg name D d) (hD : ∀ t ∈ D, Good t)
  /-- All files are copied. -/
  | staged (j : BackupProgress) (D : Option Tree)
      (hd : d = { journal := some j, destination := D, staging := some pkg.tree })
      (hj : JournalFor pkg name j) (hphase : j.phase = .copied ∨ j.phase = .verified)
      (hD : ∀ t ∈ D, Good t) (hr : D.isSome = true → j.replacedExisting = true)
  /-- The old tree has been moved away. -/
  | moved (j : BackupProgress) (O : Option Tree)
      (hd : d = { journal := some j, staging := some pkg.tree, old := O })
      (hj : JournalFor pkg name j) (hphase : j.phase = .verified ∨ j.phase = .oldMoved)
      (hO : ∀ t ∈ O, Good t) (hr : O.isSome = true → j.replacedExisting = true)
  /-- A resumed call has moved it back and not yet said so. -/
  | recovered (j : BackupProgress) (t : Tree)
      (hd : d = { journal := some j, destination := some t, staging := some pkg.tree })
      (hj : JournalFor pkg name j) (hphase : j.phase = .oldMoved) (ht : Good t)
      (hr : j.replacedExisting = true)
  /-- The new tree is published and the journal does not say so yet. -/
  | published (j : BackupProgress) (O : Option Tree)
      (hd : d = { journal := some j, destination := some pkg.tree, old := O })
      (hj : JournalFor pkg name j) (hphase : j.phase = .oldMoved) (hO : ∀ t ∈ O, Good t)
      (hr : O.isSome = true → j.replacedExisting = true)
  /-- The new tree is published; the old one may be partly removed. -/
  | final (j : BackupProgress) (O : Option Tree)
      (hd : d = { journal := some j, destination := some pkg.tree, old := O })
      (hj : JournalFor pkg name j) (hphase : j.phase = .newPublished)
      (hr : O.isSome = true → j.replacedExisting = true)
  /-- Only the journal is left to remove. -/
  | complete (j : BackupProgress)
      (hd : d = { journal := some j, destination := some pkg.tree })
      (hj : JournalFor pkg name j) (hphase : j.phase = .complete)

/-- The disks a crash inside `rollback_publish` leaves, and what follows from them. -/
inductive Window (pkg : Package env) (name : String) (Good : Tree → Prop) (d : Disk) : Prop
  /-- The new tree is back in staging, the old one is not back. -/
  | unpublished (j : BackupProgress) (O : Option Tree)
      (hd : d = { journal := some j, staging := some pkg.tree, old := O })
      (hj : JournalFor pkg name j) (hphase : j.phase = .newPublished ∨ j.phase = .complete)
  /-- Both are back and the journal does not say so. -/
  | swapped (j : BackupProgress) (t : Tree)
      (hd : d = { journal := some j, destination := some t, staging := some pkg.tree })
      (hj : JournalFor pkg name j) (hphase : j.phase = .newPublished ∨ j.phase = .complete)
      (ht : Good t)
  /-- A later call has taken this for a finished restore. -/
  | abandoned (t : Tree) (hd : d = { destination := some t, staging := some pkg.tree })
      (ht : Good t)

/-- The progress in memory and the disk, once the journal of the call is written. `Kept`
are the trees that may still be in the way of the old directory's removal. -/
inductive Running (pkg : Package env) (name : String) (Good Kept : Tree → Prop)
    (p : BackupProgress) (d : Disk) : Prop
  | prepared (D : Option Tree) (t : Tree)
      (hd : d = { journal := some p, destination := D, staging := some t })
      (hphase : p.phase = .prepared) (hD : ∀ t ∈ D, Good t)
      (hr : D.isSome = true → p.replacedExisting = true) (hst : Staged pkg t)
  | staged (D : Option Tree)
      (hd : d = { journal := some p, destination := D, staging := some pkg.tree })
      (hphase : p.phase = .copied ∨ p.phase = .verified) (hD : ∀ t ∈ D, Good t)
      (hr : D.isSome = true → p.replacedExisting = true)
  | cleared (O : Option Tree)
      (hd : d = { journal := some p, staging := some pkg.tree, old := O })
      (hphase : p.phase = .oldMoved) (hO : ∀ t ∈ O, Good t)
      (hr : O.isSome = true → p.replacedExisting = true)
  | published (O : Option Tree)
      (hd : d = { journal := some p, destination := some pkg.tree, old := O })
      (hphase : p.phase = .oldMoved) (hO : ∀ t ∈ O, Good t)
      (hr : O.isSome = true → p.replacedExisting = true)
  | final (O : Option Tree)
      (hd : d = { journal := some p, destination := some pkg.tree, old := O })
      (hphase : p.phase = .newPublished ∨ p.phase = .complete ∧ O = none)
      (hO : ∀ t ∈ O, Kept t) (hr : O.isSome = true → p.replacedExisting = true)

section Stages

variable {pkg : Package env} {name : String} {Good Kept : Tree → Prop} {p : BackupProgress}
  {s : Schedule} {w : World Disk Event} {R : Stop BackupError → World Disk Event → Prop}

variable {d : Disk} {Q : BackupProgress → World Disk Event → Prop} {t : Tree}
  {options : RestoreOptions} {inv : Invocation} {resumed : Bool} {O : Option Tree}

theorem Running.situation (hj : JournalFor pkg name p)
    (h : Running pkg name Good Kept p d) : Situation pkg name Good d := by
  cases h with
  | prepared D t hd hphase hD hr hst => exact .prepared D ⟨p, t, hd, hj, hphase, hr, hst⟩ hD
  | staged D hd hphase hD hr => exact .staged p D hd hj hphase hD hr
  | cleared O hd hphase hO hr => exact .moved p O hd hj (.inr hphase) hO hr
  | published O hd hphase hO hr => exact .published p O hd hj hphase hO hr
  | final O hd hphase hO hr =>
    rcases hphase with hphase | ⟨hphase, rfl⟩
    · exact .final p O hd hj hphase hr
    · exact .complete p hd hj hphase

theorem Running.phase_mem (h : Running pkg name Good Kept p d) :
    p.phase ∈ [Phase.prepared, .copied, .verified, .oldMoved, .newPublished, .complete] := by
  cases h with
  | prepared D t hd hphase => simp [hphase]
  | staged D hd hphase => rcases hphase with h | h <;> simp [h]
  | cleared O hd hphase => simp [hphase]
  | published O hd hphase => simp [hphase]
  | final O hd hphase => rcases hphase with h | ⟨h, -⟩ <;> simp [h]

theorem Phase.lt_iff {a b : Phase} : a < b ↔ a.rank < b.rank := Iff.rfl

theorem Running.rewrite {p' : BackupProgress} (h : Running pkg name Good Kept p d)
    (hphase' : p'.phase = p.phase) (hr' : p'.replacedExisting = p.replacedExisting) :
    Running pkg name Good Kept p' { d with journal := some p' } := by
  cases h with
  | prepared D t hd hphase hD hr hst =>
    exact .prepared D t (by rw [hd]) (hphase'.trans hphase) hD (fun h => hr'.trans (hr h)) hst
  | staged D hd hphase hD hr =>
    exact .staged D (by rw [hd]) (hphase'.symm ▸ hphase) hD fun h => hr'.trans (hr h)
  | cleared O hd hphase hO hr =>
    exact .cleared O (by rw [hd]) (hphase'.trans hphase) hO fun h => hr'.trans (hr h)
  | published O hd hphase hO hr =>
    exact .published O (by rw [hd]) (hphase'.trans hphase) hO fun h => hr'.trans (hr h)
  | final O hd hphase hO hr =>
    exact .final O (by rw [hd]) (hphase'.symm ▸ hphase) hO fun h => hr'.trans (hr h)

/-! ## From a resumed call to the published tree -/

/-- The call has passed the stages before `least`; a tree at the destination is known to
the journal. -/
structure Reached (pkg : Package env) (name : String) (Good Kept : Tree → Prop) (least : Phase)
    (p : BackupProgress) (w : World Disk Event) : Prop where
  journal : JournalFor pkg name p
  running : Running pkg name Good Kept p w.state
  unpublished : p.phase = .oldMoved → w.state.destination = none
  least : ¬ p.phase < least

theorem Reached.skip {least next : Phase} (h : Reached pkg name Good Kept least p w)
    (hnext : ¬ p.phase < next) : Reached pkg name Good Kept next p w :=
  { h with least := hnext }

theorem record_wp {next : Phase}
    (hj : JournalFor pkg name p) (hbefore : Situation pkg name Good w.state)
    (hafter : Running pkg name Good Kept { p with phase := next }
      { w.state with journal := some { p with phase := next } })
    (hmoved : next = .oldMoved → w.state.destination = none)
    (hQ : ∀ p' w', Reached pkg name Good Kept next p' w' → Q p' w')
    (hR : ∀ e w', Situation pkg name Good w'.state → s.Interrupts → R e w') :
    wp s (writeProgress .writeJournal { p with phase := next } >>= fun _ =>
      notify >>= fun _ => pure { p with phase := next }) Q R w := by
  have hj' := hj.withPhase next
  simp only [wp_bind, wp_pure]
  refine writeProgress_wp (hj'.valid hafter.phase_mem) ?_ (hR _ _ hbefore)
  refine notify_wp (hQ _ _ ?_) (hR _ _ (hafter.situation hj'))
  exact { journal := hj', running := hafter, unpublished := hmoved, least := Nat.lt_irrefl _ }

theorem validateTree_wp {during : Activity} {root : Disk → Option Tree}
    {Q : Unit → World Disk Event → Prop} (hroot : root w.state = some pkg.tree)
    (hQ : ∀ w', w'.state = w.state → Q () w')
    (hR : ∀ e w', w'.state = w.state → s.Interrupts → R e w') :
    wp s (validateRestoredData pkg during root) Q R w := by
  refine validateRestoredData_wp (fun w' hw' _ => hQ w' hw') fun e w' hw' hrefused => ?_
  rcases hrefused with ⟨-, hs⟩ | hne
  · exact hR _ w' hw' hs
  · exact absurd hroot hne

theorem reconcile_wp (hj : JournalFor pkg name p)
    (h : Running pkg name Good Kept p w.state) (hkept : ∀ t, Good t → Kept t)
    (hQ : ∀ p' w', Reached pkg name Good Kept .prepared p' w' → Q p' w')
    (hR : ∀ e w', Situation pkg name Good w'.state → s.Interrupts → R e w') :
    wp s (reconcile pkg p) Q R w := by
  have hleast : ∀ q : Phase, ¬ q < .prepared := fun q => Nat.not_lt_zero _
  have hsit := h.situation hj
  simp only [reconcile, wp_bind, wp_read, id]
  by_cases hc : p.phase = .oldMoved ∧ w.state.destination.isSome = true ∧
      w.state.staging.isNone = true
  · rw [if_pos hc]
    cases h with
    | published O hd hphase hO hr =>
      refine wp_bind.mpr (validateTree_wp (by rw [hd]) (fun w₁ hw₁ => ?_)
        fun e w₁ hw₁ => hR e w₁ (hw₁ ▸ hsit))
      refine record_wp hj (hw₁ ▸ hsit) (.final O (by rw [hw₁, hd]) (.inl rfl)
        (fun t ht => hkept t (hO t ht)) hr) (fun he => by cases he)
        (fun p' w' h => hQ p' w' (h.skip (hleast _))) hR
    | _ => simp_all
  · rw [if_neg hc]
    refine hQ p w { journal := hj, running := h, unpublished := fun hM => ?_, least := hleast _ }
    cases h with
    | published O hd hphase => exact absurd ⟨hphase, by rw [hd]; rfl, by rw [hd]; rfl⟩ hc
    | cleared O hd hphase => rw [hd]
    | _ => simp_all

theorem copyDataEntries_wp {D : Option Tree} (hj : JournalFor pkg name p)
    (hd : w.state = { journal := some p, destination := D, staging := some t })
    (hphase : p.phase = .prepared) (hr : D.isSome = true → p.replacedExisting = true)
    (hst : Staged pkg t)
    (hQ : ∀ p' w' j', JournalFor pkg name p' → (D.isSome = true → p'.replacedExisting = true) →
      w'.state = { journal := some j', destination := D, staging := some pkg.tree } →
      Preparing pkg name D w'.state → Q p' w')
    (hR : ∀ e w', Preparing pkg name D w'.state → s.Interrupts → R e w') :
    wp s (copyDataEntries pkg p) Q R w := by
  simp only [copyDataEntries, wp_bind, wp_read, wp_require]
  rw [hd]
  refine ⟨fun _ => ?_, fun hnone => absurd rfl hnone⟩
  refine copyEntries_wp (fun _ h => h) (by simpa using data_bytes_le pkg)
    (by simpa using data_objects_le pkg)
    { hj with bytes := Nat.zero_le _, objects := Nat.zero_le _, lastHash := rfl } hphase hr hd hj
    hphase hr hst (fun p' w' j' t' hp' _ hr' hw' hprep hst' _ hall => ?_) hR
  rw [hst'.eq_tree hall] at hw'
  exact hQ p' w' j' hp' hr' hw' hprep

theorem copyStage_wp (h : Reached pkg name Good Kept .prepared p w)
    (hQ : ∀ p' w', Reached pkg name Good Kept .copied p' w' → Q p' w')
    (hR : ∀ e w', Situation pkg name Good w'.state → s.Interrupts → R e w') :
    wp s (copyStage pkg p) Q R w := by
  unfold copyStage
  by_cases hlt : p.phase < .copied
  · rw [if_pos hlt]
    cases h.running with
    | prepared D t hd hphase hD hr hst =>
      refine wp_bind.mpr (copyDataEntries_wp h.journal hd hphase hr hst
        (fun p' w₁ j' hp' hr' hw₁ hprep => ?_) fun e w₁ hprep => hR e w₁ (.prepared D hprep hD))
      exact record_wp hp' (.prepared D hprep hD) (.staged D (by rw [hw₁]) (.inl rfl) hD hr')
        (fun he => by cases he) hQ hR
    | _ => grind [Phase.lt_iff, Phase.rank]
  · rw [if_neg hlt]
    exact hQ p w (h.skip hlt)

theorem verifyStage_wp (h : Reached pkg name Good Kept .copied p w)
    (hQ : ∀ p' w', Reached pkg name Good Kept .verified p' w' → Q p' w')
    (hR : ∀ e w', Situation pkg name Good w'.state → s.Interrupts → R e w') :
    wp s (verifyStage pkg p) Q R w := by
  unfold verifyStage
  by_cases hlt : p.phase < .verified
  · rw [if_pos hlt]
    have hsit := h.running.situation h.journal
    have hleast := h.least
    cases h.running with
    | staged D hd hphase hD hr =>
      refine wp_bind.mpr (validateTree_wp (by rw [hd]) (fun w₁ hw₁ => ?_)
        fun e w₁ hw₁ => hR e w₁ (hw₁ ▸ hsit))
      exact record_wp h.journal (hw₁ ▸ hsit) (.staged D (by rw [hw₁, hd]) (.inr rfl) hD hr)
        (fun he => by cases he) hQ hR
    | _ => grind [Phase.lt_iff, Phase.rank]
  · rw [if_neg hlt]
    exact hQ p w (h.skip hlt)

theorem moveOldStage_wp (h : Reached pkg name Good Kept .verified p w)
    (hQ : ∀ p' w', Reached pkg name Good Kept .oldMoved p' w' → Q p' w')
    (hR : ∀ e w', Situation pkg name Good w'.state → (options.policy = .replace → s.Interrupts) →
      R e w') :
    wp s (moveOldStage options p) Q R w := by
  unfold moveOldStage
  by_cases hlt : p.phase < .oldMoved
  · rw [if_pos hlt]
    have hsit := h.running.situation h.journal
    have hleast := h.least
    cases h.running with
    | staged D hd hphase hD hr =>
      have hverified : p.phase = .verified := by
        rcases hphase with hphase | hphase
        · exact absurd (by rw [hphase]; decide) hleast
        · exact hphase
      have hmoved : ∀ w' : World Disk Event,
          w'.state = { journal := some p, staging := some pkg.tree, old := D } →
          wp s (writeProgress .writeJournal { p with phase := .oldMoved } >>= fun _ =>
            notify >>= fun _ => pure { p with phase := .oldMoved }) Q R w' := fun w' hw' =>
        record_wp h.journal (.moved p D hw' h.journal (.inl hverified) hD hr)
          (.cleared D (by rw [hw']) rfl hD hr) (fun _ => by rw [hw']) hQ
          fun e w'' h hs => hR e w'' h fun _ => hs
      refine wp_bind.mpr (wp_read.mpr (wp_bind.mpr (wp_when.mpr ⟨fun _ => ?_, fun hnone => ?_⟩)))
      · simp only [wp_bind (x := require _ _), wp_require, wp_act]
        refine ⟨fun _ => ⟨fun _ => ⟨fun hs => hR _ _ hsit fun _ => ⟨_, hs⟩, fun _ => ?_⟩, ?_⟩, ?_⟩
        · exact hmoved _ (by rw [World.after_state, hd])
        · exact fun hold => absurd (by rw [id, hd]; rfl) hold
        · exact fun hne => hR _ _ hsit fun hpolicy => absurd hpolicy hne
      · refine hmoved w ?_
        rw [id, hd] at hnone
        have hD : D = none := Option.not_isSome_iff_eq_none.mp hnone
        rw [hd, hD]
    | _ => grind [Phase.lt_iff, Phase.rank]
  · rw [if_neg hlt]
    exact hQ p w (h.skip hlt)

theorem publishStage_wp
    (h : Reached pkg name Good Kept .oldMoved p w) (hkept : ∀ t, Good t → Kept t)
    (hQ : ∀ p' w', Reached pkg name Good Kept .newPublished p' w' → Q p' w')
    (hR : ∀ e w', Situation pkg name Good w'.state → s.Interrupts → R e w') :
    wp s (publishStage p) Q R w := by
  unfold publishStage
  by_cases hlt : p.phase < .newPublished
  · rw [if_pos hlt]
    have hsit := h.running.situation h.journal
    have hleast := h.least
    cases h.running with
    | cleared O hd hphase hO hr =>
      refine wp_bind.mpr (wp_read.mpr (wp_bind.mpr (wp_require.mpr ⟨fun _ => ?_, fun hno => ?_⟩)))
      · refine wp_bind.mpr (wp_act.mpr ⟨fun hs => hR _ _ hsit ⟨_, hs⟩, fun _ => ?_⟩)
        refine record_wp h.journal (.published p O ?_ h.journal hphase hO hr)
          (.final O ?_ (.inl rfl) (fun t ht => hkept t (hO t ht)) hr) (fun he => by cases he) hQ hR
        · rw [World.after_state, hd]
        · rw [World.after_state, hd]
      · exact absurd (by rw [id, hd]; exact ⟨rfl, rfl⟩) hno
    | published O hd hphase =>
      have := h.unpublished hphase
      rw [hd] at this
      cases this
    | _ => grind [Phase.lt_iff, Phase.rank]
  · rw [if_neg hlt]
    exact hQ p w (h.skip hlt)

/-- The new tree at the destination, the journal not yet removed. -/
structure Published (pkg : Package env) (name : String) (Kept : Tree → Prop) (p : BackupProgress)
    (O : Option Tree) (d : Disk) : Prop where
  journal : JournalFor pkg name p
  disk : d = { journal := some p, destination := some pkg.tree, old := O }
  phase : p.phase = .newPublished ∨ p.phase = .complete ∧ O = none
  kept : ∀ t ∈ O, Kept t
  replaced : O.isSome = true → p.replacedExisting = true

theorem publishNew_wp (hj : JournalFor pkg name p)
    (h : Running pkg name Good Kept p w.state) (hkept : ∀ t, Good t → Kept t)
    (hQ : ∀ p' O w', Published pkg name Kept p' O w'.state → Q p' w')
    (hR : ∀ e w', Situation pkg name Good w'.state →
      (inv.options.policy = .replace → s.Interrupts) → R e w') :
    wp s (publishNew pkg inv p) Q R w := by
  have hstop : ∀ e w', Situation pkg name Good w'.state → s.Interrupts → R e w' :=
    fun e w' h hs => hR e w' h fun _ => hs
  refine wp_bind.mpr (reconcile_wp hj h hkept (fun p₁ w₁ h₁ => ?_) hstop)
  refine wp_bind.mpr (copyStage_wp h₁ (fun p₂ w₂ h₂ => ?_) hstop)
  refine wp_bind.mpr (verifyStage_wp h₂ (fun p₃ w₃ h₃ => ?_) hstop)
  refine wp_bind.mpr (moveOldStage_wp h₃ (fun p₄ w₄ h₄ => ?_) hR)
  refine publishStage_wp h₄ hkept (fun p₅ w₅ h₅ => ?_) hstop
  have hj₅ := h₅.journal
  have hleast := h₅.least
  cases h₅.running with
  | final O hd hphase hO hr => exact hQ p₅ O w₅ ⟨hj₅, hd, hphase, hO, hr⟩
  | _ => grind [Phase.lt_iff, Phase.rank]

/-! ## The start of a call -/

/-- The space check passes whatever has been copied so far. -/
def HasSpace (pkg : Package env) (inv : Invocation) : Prop :=
  pkg.totalEntryBytes + spaceReserveBytes < 2 ^ 64 ∧
    enforceRestoreSpace (pkg.totalEntryBytes + spaceReserveBytes) inv.availableBytes
      inv.options.unknownSpacePolicy = .ok ()

def announced (pkg : Package env) (inv : Invocation) (p : BackupProgress) : BackupProgress :=
  { p with requiredBytes := pkg.totalEntryBytes, availableBytes := inv.availableBytes }

theorem JournalFor.announced (hj : JournalFor pkg name p) :
    JournalFor pkg name (announced pkg inv p) :=
  { hj with required := rfl }

theorem enforceRestoreSpace_mono {n m : Nat} (hnm : n ≤ m) {available : Option Nat}
    {policy : UnknownSpacePolicy} (h : enforceRestoreSpace m available policy = .ok ()) :
    enforceRestoreSpace n available policy = .ok () := by
  cases available with
  | none => exact h
  | some a =>
    by_cases hm : m ≤ a
    · exact if_pos (hnm.trans hm)
    · rw [enforceRestoreSpace, if_neg hm] at h
      cases h

theorem reserveSpace_cases (inv : Invocation) (hj : JournalFor pkg name p) :
    (∃ e, reserveSpace pkg inv p = .error e ∧ ¬ HasSpace pkg inv) ∨
      reserveSpace pkg inv p = .ok (announced pkg inv p) := by
  obtain ⟨remaining, hremaining, hrequired⟩ : ∃ remaining ≤ pkg.totalEntryBytes,
      requiredSpace pkg p = if remaining + spaceReserveBytes < 2 ^ 64 then
        .ok (remaining + spaceReserveBytes) else .error .sizeOverflow := by
    refine ⟨if p.phase < .copied then pkg.totalEntryBytes - p.verifiedBytes else 0, ?_, ?_⟩
    · split
      · exact Nat.sub_le _ _
      · exact Nat.zero_le _
    · rw [requiredSpace, if_neg fun h => absurd hj.bytes (Nat.not_le.mpr h.2)]
  unfold reserveSpace
  rw [hrequired]
  by_cases hlt : remaining + spaceReserveBytes < 2 ^ 64
  · rw [if_pos hlt]
    show (∃ e, (enforceRestoreSpace (remaining + spaceReserveBytes) inv.availableBytes
      inv.options.unknownSpacePolicy >>= fun _ => pure (announced pkg inv p)) = _ ∧ _) ∨
      (enforceRestoreSpace (remaining + spaceReserveBytes) inv.availableBytes
      inv.options.unknownSpacePolicy >>= fun _ => pure (announced pkg inv p)) = _
    cases henforce : enforceRestoreSpace (remaining + spaceReserveBytes) inv.availableBytes
        inv.options.unknownSpacePolicy with
    | error e =>
      refine .inl ⟨e, rfl, fun hspace => ?_⟩
      have := enforceRestoreSpace_mono (Nat.add_le_add_right hremaining _) hspace.2
      rw [henforce] at this
      cases this
    | ok u => exact .inr rfl
  · rw [if_neg hlt]
    exact .inl ⟨_, rfl, fun hspace => hlt (by have := hspace.1; omega)⟩

/-- Announcing a call changes the journal, after making a staging directory for a new
restore. -/
theorem announce_wp (hj : JournalFor pkg name p)
    (hphase : p.phase ∈ [Phase.prepared, .copied, .verified, .oldMoved, .newPublished, .complete])
    (hresumed : resumed = true → d = w.state)
    (hnew : resumed = false → d = { w.state with staging := some ∅ })
    (hQ : ∀ w', w'.state = { d with journal := some (announced pkg inv p) } →
      Q (announced pkg inv p) w')
    (hR : ∀ e w', w'.state = w.state ∨ w'.state = d ∨
      w'.state = { d with journal := some (announced pkg inv p) } →
      (HasSpace pkg inv → s.Interrupts) → R e w') :
    wp s (announce pkg inv resumed p) Q R w := by
  have hvalid : validateProgress (announced pkg inv p) = true :=
    hj.announced.valid hphase
  refine wp_bind.mpr ?_
  rcases reserveSpace_cases inv hj with ⟨e, he, hno⟩ | hok
  · rw [he]
    exact hR _ w (.inl rfl) fun hspace => absurd hspace hno
  · rw [hok]
    have hjournal : ∀ w₁ : World Disk Event, w₁.state = d →
        wp s (writeProgress .writeJournal (announced pkg inv p) >>= fun _ => notify >>= fun _ =>
          verifyPackageContents pkg >>= fun _ => pure (announced pkg inv p)) Q R w₁ := by
      intro w₁ hw₁
      refine wp_bind.mpr (writeProgress_wp hvalid ?_ fun hs => hR _ _ (.inr (.inl hw₁)) fun _ => hs)
      have hw₂ : (w₁.after .writeJournal fun d =>
          { d with journal := some (announced pkg inv p) }).state =
          { d with journal := some (announced pkg inv p) } := by rw [World.after_state, hw₁]
      refine wp_bind.mpr (notify_wp ?_ fun hs => hR _ _ (.inr (.inr hw₂)) fun _ => hs)
      refine wp_bind.mpr (verifyPackageContents_wp (fun w₃ hw₃ => hQ w₃ (hw₃.trans hw₂))
        fun w₃ hw₃ hs => hR _ w₃ (.inr (.inr (hw₃.trans hw₂))) fun _ => hs)
    refine wp_pure.mpr (wp_bind.mpr (wp_when.mpr ⟨fun hfresh => wp_act.mpr ⟨fun hs => ?_, fun _ => ?_⟩,
      fun hold => hjournal w ?_⟩))
    · exact hR _ _ (.inl rfl) fun _ => ⟨_, hs⟩
    · exact hjournal _ (hnew hfresh).symm
    · exact (hresumed (Bool.eq_true_of_not_eq_false hold)).symm

theorem clearLeftovers_resumed {Q : Bool → World Disk Event → Prop}
    (h : w.state.journal.isSome = true) (hQ : Q true w) : wp s clearLeftovers Q R w := by
  refine wp_bind.mpr (wp_read.mpr ?_)
  rw [id, if_pos h]
  exact hQ

theorem clearLeftovers_fresh {D S : Option Tree} {Q : Bool → World Disk Event → Prop}
    (hd : w.state = { destination := D, staging := S }) (hS : ∀ t ∈ S, t = ∅)
    (hQ : ∀ w', w'.state = { destination := D } → Q false w')
    (hR : ∀ w', w'.state = w.state → s.Interrupts → R .crashed w') :
    wp s clearLeftovers Q R w := by
  have hempty : S.all (·.isEmpty) = true := by
    cases S with
    | none => rfl
    | some t =>
      rw [hS t rfl]
      rfl
  refine wp_bind.mpr (wp_read.mpr ?_)
  rw [id, hd, if_neg (show ¬ (none : Option BackupProgress).isSome = true by decide)]
  simp only [wp_bind, wp_when, wp_require, wp_act, hempty, Option.isNone_none, and_self,
    true_implies, not_true_eq_false, false_implies, and_true, wp_pure]
  refine ⟨fun _ => ⟨fun hs => hR _ rfl ⟨_, hs⟩, fun _ => hQ _ (by rw [World.after_state, hd])⟩,
    fun hnone => hQ w ?_⟩
  have hS' : S = none := Option.not_isSome_iff_eq_none.mp hnone
  rw [hd, hS']

theorem resumeJournal_wp {Q : Option BackupProgress → World Disk Event → Prop}
    (hj : JournalFor pkg name p)
    (hphase : p.phase ∈ [Phase.prepared, .copied, .verified, .oldMoved, .newPublished, .complete])
    (hd : w.state.journal = some p) (h : wp s (undoMove w.state p) (fun j => Q (some j)) R w) :
    wp s (resumeJournal name) Q R w := by
  refine wp_bind.mpr (wp_read.mpr ?_)
  simp only [id, hd]
  refine wp_bind.mpr (wp_require.mpr ⟨fun _ => ?_, fun hno => absurd (hj.valid hphase) hno⟩)
  refine wp_bind.mpr (wp_require.mpr ⟨fun _ => wp_bind.mpr h, fun hno => absurd ?_ hno⟩)
  exact ⟨hj.operation, hj.destinationName⟩

theorem undoMove_skip (hold : ¬ (d.old.isSome = true ∧ d.destination.isNone = true))
    (hnew : ¬ (p.phase = .oldMoved ∧ p.replacedExisting = true ∧ d.destination.isSome = true ∧
      d.staging.isSome = true ∧ d.old.isNone = true)) (hQ : Q p w) :
    wp s (undoMove d p) Q R w := by
  rw [undoMove, if_neg hold, if_neg hnew]
  exact hQ

/-- Both ways to undo a move end with the journal at `verified` again. -/
theorem undone_wp {j : BackupProgress}
    (hj : JournalFor pkg name p) (hphase : p.phase = .verified) (hr : p.replacedExisting = true)
    (hd : w.state = { journal := some j, destination := some t, staging := some pkg.tree })
    (ht : Good t) (hsit : Situation pkg name Good w.state)
    (hQ : ∀ w', Running pkg name Good Kept p w'.state → Q p w')
    (hR : ∀ e w', Situation pkg name Good w'.state → s.Interrupts → R e w') :
    wp s (writeProgress .writeJournal p >>= fun _ => pure p) Q R w := by
  refine wp_bind.mpr (writeProgress_wp (hj.valid (by simp [hphase])) (hQ _ ?_) (hR _ _ hsit))
  refine .staged (some t) (by rw [World.after_state, hd]) (.inr hphase) (fun t' h => ?_) fun _ => hr
  rwa [← Option.some.inj h]

theorem undoMove_wp (h : Situation pkg name Good w.state) (hd : w.state.journal = some p)
    (hkept : ∀ t ∈ w.state.old, Kept t)
    (hQ : ∀ j w', JournalFor pkg name j → Running pkg name Good Kept j w'.state → Q j w')
    (hR : ∀ e w', Situation pkg name Good w'.state → s.Interrupts → R e w') :
    wp s (undoMove w.state p) Q R w := by
  have hsit := h
  cases h with
  | fresh D S hd' =>
    rw [hd'] at hd
    cases hd
  | prepared D hd' hD =>
    obtain ⟨j, t, hd', hj, hphase, hr, hst⟩ := hd'
    obtain rfl : j = p := by simpa [hd'] using hd
    exact undoMove_skip (by simp [hd']) (by simp [hphase])
      (hQ j w hj (.prepared D t hd' hphase hD hr hst))
  | staged j D hd' hj hphase hD hr =>
    obtain rfl : j = p := by simpa [hd'] using hd
    refine undoMove_skip (by simp [hd']) ?_ (hQ j w hj (.staged D hd' hphase hD hr))
    rcases hphase with h | h <;> simp [h]
  | moved j O hd' hj hphase hO hr =>
    obtain rfl : j = p := by simpa [hd'] using hd
    cases O with
    | none =>
      refine undoMove_skip (by simp [hd']) (by simp [hd']) (hQ j w hj ?_)
      rcases hphase with hphase | hphase
      · exact .staged none hd' (.inr hphase) hO hr
      · exact .cleared none hd' hphase hO hr
    | some t =>
      have ht := hO t rfl
      rw [undoMove, if_pos (by simp [hd'])]
      refine wp_bind.mpr (wp_require.mpr ⟨fun _ => wp_bind.mpr (wp_act.mpr ⟨fun hs => ?_, fun _ => ?_⟩),
        fun hno => absurd ⟨by rw [hd']; rfl, hphase⟩ hno⟩)
      · exact hR _ _ hsit ⟨_, hs⟩
      · have hd'' : (w.after .recoverOld fun d => { d with destination := d.old, old := none }).state =
            { journal := some j, destination := some t, staging := some pkg.tree } := by
          rw [World.after_state, hd']
        have hj' : JournalFor pkg name { j with phase := .verified, replacedExisting := true } :=
          { hj with }
        refine undone_wp hj' rfl rfl hd'' ht ?_ (fun w' hrun => hQ _ w' hj' hrun) hR
        rcases hphase with hphase | hphase
        · exact .staged j _ hd'' hj (.inr hphase) hO hr
        · exact .recovered j t hd'' hj hphase ht (hr rfl)
  | recovered j t hd' hj hphase ht hr =>
    obtain rfl : j = p := by simpa [hd'] using hd
    rw [undoMove, if_neg (by simp [hd']), if_pos (by simp [hd', hphase, hr])]
    exact undone_wp (hj.withPhase _) rfl hr hd' ht hsit
      (fun w' hrun => hQ _ w' (hj.withPhase _) hrun) hR
  | published j O hd' hj hphase hO hr =>
    obtain rfl : j = p := by simpa [hd'] using hd
    exact undoMove_skip (by simp [hd']) (by simp [hd']) (hQ j w hj (.published O hd' hphase hO hr))
  | final j O hd' hj hphase hr =>
    obtain rfl : j = p := by simpa [hd'] using hd
    refine undoMove_skip (by simp [hd']) (by simp [hphase])
      (hQ j w hj (.final O hd' (.inl hphase) (fun t ht => hkept t ?_) hr))
    rw [hd']
    exact ht
  | complete j hd' hj hphase =>
    obtain rfl : j = p := by simpa [hd'] using hd
    exact undoMove_skip (by simp [hd']) (by simp [hphase])
      (hQ j w hj (.final none hd' (.inr ⟨hphase, rfl⟩) (by simp) (by simp)))

theorem startProgress_resumed (hj : JournalFor pkg name p) (hQ : Q p w) :
    wp s (startProgress pkg name options (some p)) Q R w := by
  refine wp_bind.mpr (wp_require.mpr ⟨fun _ => hQ, fun hno => absurd ?_ hno⟩)
  exact ⟨hj.session, hj.manifest, hj.bytes⟩

theorem resumeJournal_none {Q : Option BackupProgress → World Disk Event → Prop}
    (hd : w.state.journal = none) (hQ : Q none w) : wp s (resumeJournal name) Q R w := by
  refine wp_bind.mpr (wp_read.mpr ?_)
  simp only [id, hd]
  exact hQ

theorem journalFor_newProgress (pkg : Package env) (name : String) (D : Option Tree) :
    JournalFor pkg name (newProgress pkg name D) where
  operation := rfl
  destinationName := rfl
  session := rfl
  manifest := rfl
  required := rfl
  bytes := Nat.zero_le _
  objects := Nat.zero_le _
  lastHash := rfl

theorem startProgress_new (hQ : Q (newProgress pkg name w.state.destination) w)
    (hR : options.policy ≠ .replace → R (.failed .existingData) w) :
    wp s (startProgress pkg name options none) Q R w := by
  refine wp_bind.mpr (wp_read.mpr (wp_bind.mpr (wp_require.mpr ⟨fun _ => hQ, fun hno => hR ?_⟩)))
  intro hpolicy
  rw [hpolicy] at hno
  exact hno fun hboth => by cases hboth.2

/-! ## The end of a call -/

/-- How a call that started in a situation may stop. The disks that are no situation come with
what the trace says of them. -/
inductive Stopped (pkg : Package env) (name : String) (Good : Tree → Prop) (spoiled : Prop)
    (w : World Disk Event) : Prop
  | situation (h : Situation pkg name Good w.state)
  | window (h : Window pkg name Good w.state)
      (hlast : w.trace.getLast? = some .unpublish ∨ w.trace.getLast? = some .restoreOld)
  | spoiled (h : spoiled) (hmem : .cancelled .finalValidation ∈ w.trace)

theorem Published.situation (h : Published pkg name Kept p O d) : Situation pkg name Good d := by
  rcases h.phase with hphase | ⟨hphase, hO⟩
  · exact .final p O h.disk h.journal hphase h.replaced
  · refine .complete p ?_ h.journal hphase
    rw [h.disk, hO]

theorem discardFiles_wp {paths : List String} {Q : Unit → World Disk Event → Prop}
    (h : Published pkg name (fun _ => True) p (some t) w.state)
    (hQ : ∀ t' w', Published pkg name (fun _ => True) p (some t') w'.state → Q () w')
    (hR : ∀ e w', Situation pkg name Good w'.state → s.Interrupts → R e w') :
    wp s (discardFiles paths) Q R w := by
  induction paths generalizing w t with
  | nil => exact hQ t w h
  | cons path paths ih =>
    refine wp_bind.mpr (wp_act.mpr ⟨fun hs => hR _ _ h.situation ⟨_, hs⟩, fun _ => ?_⟩)
    refine ih (t := t.erase path) { h with disk := ?_, phase := ?_, kept := fun _ _ => trivial,
                                           replaced := fun _ => h.replaced rfl }
    · rw [World.after_state, h.disk]
      rfl
    · exact .inl (h.phase.resolve_right fun hno => by cases hno.2)

theorem completeRestore_wp
    {Q : RestoreReport → World Disk Event → Prop} (h : Published pkg name Kept p O w.state)
    (hQ : ∀ r w', w'.state = { destination := some pkg.tree } → Q r w')
    (hR : ∀ e w', Situation pkg name Good w'.state → s.Interrupts → R e w') :
    wp s (completeRestore pkg inv resumed p) Q R w := by
  have hremoved : ∀ w' : World Disk Event,
      w'.state = { journal := some p, destination := some pkg.tree } →
      wp s (writeProgress .writeJournal { p with phase := .complete } >>= fun _ => notify >>= fun _ =>
        act .removeJournal (fun d => { d with journal := none }) >>= fun _ => pure
          { sessionId := pkg.sessionId, manifestSha256 := pkg.manifestHash
            restoredBytes := pkg.totalEntryBytes, replacedExisting := p.replacedExisting
            resumed }) Q R w' := by
    intro w₁ hw₁
    have hpublished : Published pkg name (fun _ => True) p none w₁.state :=
      { journal := h.journal, disk := hw₁, kept := fun _ _ => trivial
        replaced := fun hno => by cases hno
        phase := h.phase.imp_right fun hc => ⟨hc.1, rfl⟩ }
    have hbefore : Situation pkg name Good w₁.state := hpublished.situation
    have hafter : Situation pkg name Good
        (w₁.after .writeJournal fun d => { d with journal := some { p with phase := .complete } }).state :=
      .complete _ (by rw [World.after_state, hw₁]) (h.journal.withPhase _) rfl
    refine wp_bind.mpr (writeProgress_wp ((h.journal.withPhase _).valid (by simp)) ?_ (hR _ _ hbefore))
    refine wp_bind.mpr (notify_wp ?_ (hR _ _ hafter))
    refine wp_bind.mpr (wp_act.mpr ⟨fun hs => hR _ _ hafter ⟨_, hs⟩, fun _ => hQ _ _ ?_⟩)
    rw [World.after_state, World.tick_state, World.after_state, hw₁]
  have hold : w.state.old = O := by rw [h.disk]
  refine wp_bind.mpr (wp_read.mpr (wp_bind.mpr (wp_when.mpr ⟨fun hsome => ?_, fun hnone => ?_⟩)))
  · obtain ⟨t, rfl⟩ := Option.isSome_iff_exists.mp (hold ▸ hsome)
    refine wp_bind.mpr (discardFiles_wp (t := t) { h with kept := fun _ _ => trivial }
      (fun t' w₁ h₁ => wp_act.mpr ⟨fun hs => hR _ _ h₁.situation ⟨_, hs⟩, fun _ => ?_⟩) hR)
    exact hremoved _ (by rw [World.after_state, h₁.disk])
  · refine hremoved w ?_
    rw [hold] at hnone
    have hO : O = none := Option.not_isSome_iff_eq_none.mp hnone
    rw [h.disk, hO]

theorem JournalFor.restarted (hj : JournalFor pkg name p) : JournalFor pkg name (restarted p) :=
  { hj with bytes := Nat.zero_le _, objects := Nat.zero_le _, lastHash := rfl }

/-- A rollback puts both trees back where they were, or is stopped right after one of its
renames. -/
theorem rollBack_wp {error : BackupError}
    {Q : RestoreReport → World Disk Event → Prop} (h : Published pkg name Kept p O w.state)
    (hmem : .cancelled .finalValidation ∈ w.trace)
    (hR : ∀ e w', Stopped pkg name Good (∃ t ∈ O, ¬ Good t) w' → R e w') :
    wp s (rollBack p error) Q R w := by
  have hphase : p.phase = .newPublished ∨ p.phase = .complete := h.phase.imp_right And.left
  have hstop : ∀ e w', .cancelled .finalValidation ∈ w'.trace → ((∀ t ∈ O, Good t) →
      Stopped pkg name Good (∃ t ∈ O, ¬ Good t) w') → R e w' := by
    intro e w' hmem' hgood
    by_cases hall : ∀ t ∈ O, Good t
    · exact hR e w' (hgood hall)
    · push Not at hall
      exact hR e w' (.spoiled hall hmem')
  -- the journal write that ends the rollback, from a disk that has `O` back in place
  have hwrite : ∀ w₁ : World Disk Event, .cancelled .finalValidation ∈ w₁.trace →
      w₁.state = { journal := some p, destination := O, staging := some pkg.tree } →
      (w₁.trace.getLast? = some .unpublish ∨ w₁.trace.getLast? = some .restoreOld) →
      wp s (writeProgress .rolledBack (restarted p) >>= fun _ => fail error) Q R w₁ := by
    intro w₁ hmem₁ hw₁ hlast
    have hj := h.journal.restarted
    refine wp_bind.mpr (writeProgress_wp (hj.valid (by simp [restarted])) (wp_fail.mpr ?_) fun _ => ?_)
    · refine hstop _ _ (List.mem_append_left _ hmem₁) fun hgood => .situation (.prepared O ?_ hgood)
      exact ⟨_, pkg.tree, by rw [World.after_state, hw₁], hj, rfl, h.replaced, staged_tree⟩
    · refine hstop _ _ hmem₁ fun hgood => .window ?_ hlast
      cases O with
      | none => exact .unpublished p none hw₁ h.journal hphase
      | some t => exact .swapped p t hw₁ h.journal hphase (hgood t rfl)
  have hno : ¬ (w.state.destination.isSome = true ∧ w.state.staging.isSome = true) := by
    rw [h.disk]
    exact fun hboth => by cases hboth.2
  refine wp_bind.mpr (wp_bind.mpr (wp_read.mpr ?_))
  rw [id, if_neg hno]
  refine wp_bind.mpr (wp_when.mpr ⟨fun _ => wp_act.mpr ⟨fun _ => ?_, fun _ => ?_⟩, fun hnone => ?_⟩)
  · exact hstop _ _ hmem fun _ => .situation h.situation
  · have hd : (w.after .unpublish fun d =>
        { d with staging := d.destination, destination := none }).state =
        { journal := some p, staging := some pkg.tree, old := O } := by rw [World.after_state, h.disk]
    have hmem' := List.mem_append_left [Event.unpublish] hmem
    refine wp_bind.mpr (wp_when.mpr ⟨fun _ => wp_act.mpr ⟨fun _ => ?_, fun _ => ?_⟩, fun hnone => ?_⟩)
    · refine hstop _ _ hmem' fun _ => .window (.unpublished p O hd h.journal hphase) (.inl ?_)
      exact List.getLast?_concat
    · refine wp_bind.mpr (wp_require.mpr ⟨fun _ => ?_, fun hno => absurd rfl hno⟩)
      refine hwrite _ (List.mem_append_left _ hmem') (by rw [World.after_state, hd]) (.inr ?_)
      exact List.getLast?_concat
    · refine wp_bind.mpr (wp_require.mpr ⟨fun _ => ?_, fun hno => absurd rfl hno⟩)
      rw [h.disk] at hnone
      have hO : O = none := Option.not_isSome_iff_eq_none.mp hnone
      refine hwrite _ hmem' (by rw [hd, hO]) (.inl ?_)
      exact List.getLast?_concat
  · rw [h.disk] at hnone
    exact absurd rfl hnone

theorem finish_wp
    {Q : RestoreReport → World Disk Event → Prop} (h : Published pkg name Kept p O w.state)
    (hQ : ∀ r w', w'.state = { destination := some pkg.tree } → Q r w')
    (hR : ∀ e w', Stopped pkg name Good (∃ t ∈ O, ¬ Good t) w' → s.Interrupts → R e w') :
    wp s (finish pkg inv resumed p) Q R w := by
  refine wp_bind.mpr (wp_attempt.mpr (validateRestoredData_wp (fun w₁ hw₁ _ => ?_)
    fun e w₁ hw₁ hrefused => ?_))
  · exact completeRestore_wp (hw₁ ▸ h) hQ fun e w' hsit => hR e w' (.situation hsit)
  · rcases hrefused with ⟨htrace, hs⟩ | hne
    · refine rollBack_wp (hw₁ ▸ h) ?_ fun e w' hstopped => hR e w' hstopped hs
      rw [htrace]
      exact List.mem_concat_self
    · rw [h.disk] at hne
      exact absurd rfl hne

end Stages

end Lorepia.Backup
