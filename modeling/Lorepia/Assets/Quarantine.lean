import Lorepia.Assets.Alone
import Lorepia.Assets.Ledger

/-!
# Completing a quarantine intent

A quarantine records an intent, moves (or removes) one file, marks the intent as moved and
finalizes the rows in one transaction. Wherever it is interrupted, the intent and the two
directories determine how to go on (`Recoverable`), and where that leads (`settle`).
-/

namespace Lorepia.Assets

open Proc Catalog

variable {S : Setting Root Input} {α β : Type} {s t : Root}
  {Q : Except AssetError β → Root → Prop}

/-! ## The end of an intent -/

def finalize (it : QuarantineIntent) : Sql Unit :=
  match it.operation with
  | .move _ => finalizeMove it
  | .purge => finalizePurge it.name

theorem finalize_succeeds (it : QuarantineIntent) : Tx.Succeeds Sane (finalize it) := by
  unfold finalize
  split
  · exact finalizeMove_succeeds it
  · exact finalizePurge_succeeds it.name

def Catalog.withIntents (c : Catalog) (l : List QuarantineIntent) : Catalog := { c with intents := l }

/-- What the statement does to the intents depends on them alone, and nothing else does. -/
def MapsIntents (g : List QuarantineIntent → List QuarantineIntent) (x : Sql α) : Prop :=
  ∀ c l, x (c.withIntents l) = (x c).map fun r => (r.1, r.2.withIntents (g l))

theorem MapsIntents.bind {g g' : List QuarantineIntent → List QuarantineIntent} {x : Sql α}
    {f : α → Sql β} (hx : MapsIntents g x) (hf : ∀ a, MapsIntents g' (f a)) :
    MapsIntents (g' ∘ g) (x >>= f) := by
  intro c l
  show (x (c.withIntents l)).bind (fun r => f r.1 r.2) =
    ((x c).bind fun r => f r.1 r.2).map _
  rw [hx c l]
  cases x c with
  | error e => rfl
  | ok r => exact hf r.1 r.2 (g l)

theorem upsertQuarantine_mapsIntents (new : QuarantineRow) :
    MapsIntents id (upsertQuarantine new) := by
  intro c l
  by_cases h : (c.quarantine.any fun r => r.name = new.name) = true
  · simp only [upsertQuarantine, withIntents, h, if_true]
    rfl
  · simp only [upsertQuarantine, withIntents, h]
    cases c.totals.quarantineInserted.checked <;> rfl

theorem updateObjects_mapsIntents (cond : AssetObject → Bool) (set : AssetObject → AssetObject) :
    MapsIntents id (updateObjects cond set) := by
  intro c l
  simp only [updateObjects, withIntents]
  cases Totals.fire (fun t o => t.objectUpdated o (set o)) (c.objects.filter cond) c.totals <;> rfl

theorem setState_mapsIntents (hash : AssetHash) (state : AssetState) :
    MapsIntents id (setState hash state) := by
  have hpure : ∀ n : Nat, MapsIntents id ((fun _ => pure ()) n : Sql Unit) := fun _ _ _ => rfl
  exact (updateObjects_mapsIntents _ _).bind hpure

theorem deleteQuarantine_mapsIntents (name : String) : MapsIntents id (deleteQuarantine name) := by
  intro c l
  simp only [deleteQuarantine, withIntents]
  cases Totals.fire (fun t _ => t.quarantineDeleted) (c.quarantine.filter _) c.totals <;> rfl

theorem deleteIntent_mapsIntents (name : String) :
    MapsIntents (·.filter fun i => i.name ≠ name) (deleteIntent name) :=
  fun _ _ => rfl

theorem finalize_mapsIntents (it : QuarantineIntent) :
    MapsIntents (·.filter fun i => i.name ≠ it.name) (finalize it) := by
  unfold finalize
  split
  · refine (upsertQuarantine_mapsIntents _).bind fun _ => ?_
    cases it.originalHash with
    | none => exact deleteIntent_mapsIntents it.name
    | some hash =>
      exact (setState_mapsIntents hash _).bind fun _ => deleteIntent_mapsIntents it.name
  · exact (updateObjects_mapsIntents _ _).bind fun _ =>
      (deleteQuarantine_mapsIntents _).bind fun _ => deleteIntent_mapsIntents it.name

/-- The catalog after `UPDATE asset_quarantine_intents SET phase = 'moved' WHERE name`. -/
def Catalog.marked (c : Catalog) (name : String) : Catalog :=
  c.withIntents (Table.update (fun i => i.name = name) (fun i => { i with phase := .moved }) c.intents)

theorem finalize_marked (it : QuarantineIntent) (c : Catalog) :
    finalize it (c.marked it.name) = finalize it c := by
  have heq := finalize_mapsIntents it c c.intents
  have hfilter : ∀ l : List QuarantineIntent,
      (Table.update (fun i => i.name = it.name) (fun i => { i with phase := .moved }) l).filter
        (fun i => i.name ≠ it.name) = l.filter fun i => i.name ≠ it.name := by
    intro l
    induction l with
    | nil => rfl
    | cons i l ih =>
      by_cases h : i.name = it.name
      · simpa [Table.update, h] using ih
      · simpa [Table.update, h] using ih
  rw [marked, finalize_mapsIntents]
  simp only [hfilter]
  exact heq.symm

/-! ## Where an intent leads -/

/-- The source can be moved, or has been linked or moved already. -/
def Movable (d : Files) (source : ObjectPath) (name : String) : Prop :=
  (∃ f, d.objects source = some (.file f) ∧ d.quarantine name = none) ∨
  (∃ f, d.objects source = none ∧ d.quarantine name = some (.file f)) ∨
  ∃ f g, d.objects source = some (.file f) ∧ d.quarantine name = some (.file g) ∧ f.inode = g.inode

/-- The phase and the directories say how to complete the intent. -/
def Recoverable (d : Files) (it : QuarantineIntent) : Prop :=
  match it.phase, it.operation with
  | .prepared, .move source => Movable d source it.name
  | .prepared, .purge => d.quarantine it.name ≠ some .special
  | .moved, _ => True

def settleFiles (d : Files) (it : QuarantineIntent) : Files :=
  match it.phase, it.operation with
  | .prepared, .move source =>
    { d with
      objects := put d.objects source none
      quarantine := put d.quarantine it.name ((d.quarantine it.name).or (d.objects source)) }
  | .prepared, .purge => { d with quarantine := put d.quarantine it.name none }
  | .moved, _ => d

def settle (s : Root) (it : QuarantineIntent) : Root :=
  ⟨settleFiles s.files it, ((finalize it).commit s.catalog).2, s.writer⟩

/-- The states between the intent and its end. -/
inductive Underway (s : Root) (it : QuarantineIntent) : Root → Prop
  | start : Underway s it s
  | linked {source : ObjectPath} (hop : it.operation = .move source) (hphase : it.phase = .prepared)
      (hfree : s.files.quarantine it.name = none) :
      Underway s it
        { s with files := { s.files with
            quarantine := put s.files.quarantine it.name (s.files.objects source) } }
  | changed (hphase : it.phase = .prepared) :
      Underway s it { s with files := settleFiles s.files it }
  | marked (hphase : it.phase = .prepared) :
      Underway s it
        { s with files := settleFiles s.files it, catalog := s.catalog.marked it.name }

/-! ## Completing an intent -/

/-- The transaction at the end violates a constraint of the ledger. -/
def Refused (it : QuarantineIntent) (c : Catalog) : Prop := ∃ e, finalize it c = .error e

def Hindered (S : Setting Root Input) (s : Root) (it : QuarantineIntent) : Prop :=
  Faulty S ∨ Refused it s.catalog ∨ ¬ Recoverable s.files it

def Completes (S : Setting Root Input) (s : Root) (it : QuarantineIntent) (r : Except AssetError Unit)
    (t : Root) : Prop :=
  r = .ok () ∧ t = settle s it ∧ ¬ Refused it s.catalog ∨
    (∃ e, r = .error e) ∧ Hindered S s it ∧ Underway s it t

/-- The setting lets an intent be completed from `s`. -/
structure Completable (S : Setting Root Input) (s : Root) (it : QuarantineIntent) : Prop where
  responsive : Responsive S
  free : s.writer = none
  underway : ∀ t, Underway s it t → S.through t
  settled : S.through (settle s it)

variable {it : QuarantineIntent}

theorem Completable.fails (_h : Completable S s it) (ht : Underway s it t) (e : AssetError)
    (hS : Faulty S) : Completes S s it (.error e) t :=
  .inr ⟨⟨e, rfl⟩, .inl hS, ht⟩

theorem finalize_ends (h : Completable S s it) (ht : Underway s it t)
    (hfiles : t.files = settleFiles s.files it)
    (hcatalog : finalize it t.catalog = finalize it s.catalog) (hw : t.writer = s.writer) :
    Ends S (Completes S s it) (execute (finalize it)) t := by
  rw [← bind_pure (execute _)]
  cases hc : finalize it s.catalog with
  | error e =>
    have hcommit := Tx.commit_of_error (hcatalog.trans hc)
    exact ends_execute h.responsive (h.underway t ht) (hw.trans h.free) (h.fails ht _) hcommit
      (h.underway t ht) (.inr ⟨⟨e, rfl⟩, .inr (.inl ⟨e, hc⟩), ht⟩)
  | ok r =>
    have hcommit := Tx.commit_of_ok (hcatalog.trans hc)
    have hend : { t with catalog := r.2 } = settle s it := by
      rw [settle, Tx.commit_of_ok hc, ← hfiles, ← hw]
    refine ends_execute h.responsive (h.underway t ht) (hw.trans h.free) (h.fails ht _) hcommit ?_ ?_
    · rw [hend]
      exact h.settled
    · rw [hend]
      refine .pure (.inl ⟨rfl, rfl, ?_⟩)
      rintro ⟨e, he⟩
      rw [hc] at he
      cases he

theorem commit_setIntentMoved (name : String) (c : Catalog) :
    (setIntentMoved name).commit c = (.ok (), c.marked name) := rfl

theorem mark_ends (h : Completable S s it) (hphase : it.phase = .prepared) :
    Ends S (Completes S s it) (do
      execute (setIntentMoved it.name)
      execute (finalize it)) { s with files := settleFiles s.files it } := by
  have hchanged := Underway.changed (s := s) hphase
  have hmarked := Underway.marked (s := s) hphase
  refine ends_execute h.responsive (h.underway _ hchanged) h.free (h.fails hchanged _)
    (commit_setIntentMoved it.name s.catalog) (h.underway _ hmarked) ?_
  exact finalize_ends h hmarked rfl (finalize_marked it s.catalog) rfl

theorem sameInode_self (f : FileData) : sameInode f (some f) = .ok () := by
  simp [sameInode, requireFile, ensure, bind, Except.bind]

variable {f : FileData} {source : ObjectPath}

/-- `hard_link_to` of a file to a name that is free. -/
theorem ends_linkQuarantined {path : ObjectPath} {name : String} {k : Unit → Op β}
    (hS : Responsive S) (hs : S.through s)
    (hf : s.files.objects path = some (.file f)) (hq : s.files.quarantine name = none)
    (ht : t = { s with files := { s.files with
      quarantine := put s.files.quarantine name (s.files.objects path) } }) (hthrough : S.through t)
    (hfail : Faulty S → Q (.error (.io .other)) s) (hfail' : Faulty S → Q (.error (.io .other)) t)
    (h : Ends S Q (k ()) t) : Ends S Q (linkQuarantined path name >>= k) s := by
  have hl : linked (s.files.objects path) s.files.quarantine name =
      (.ok (), put s.files.quarantine name (s.files.objects path)) := by
    rw [hf]
    exact linked_free hq
  simp only [linkQuarantined, bind_bind]
  refine ends_openObject hS hs hfail ?_
  rw [hf]
  refine ends_ofExcept (r := requireFile (some f)) (ends_fs hS hs hfail ?_ ?_)
  · simp only [hl]
    exact ht ▸ hthrough
  · simp only [hl]
    rw [← ht]
    refine ends_openQuarantined hS hthrough hfail' ?_
    have he : t.files.quarantine name = some (.file f) := by
      rw [ht]
      exact (put_same _ _ _).trans hf
    rw [he]
    refine ends_ofExcept (r := sameInode f (some f)) ?_
    rw [sameInode_self]
    exact h

theorem settleFiles_move (hop : it.operation = .move source)
    (hphase : it.phase = .prepared) (d : Files) :
    settleFiles d it = { d with
      objects := put d.objects source none
      quarantine := put d.quarantine it.name ((d.quarantine it.name).or (d.objects source)) } := by
  simp only [settleFiles, hphase, hop]

/-- With the file under both names or only at its source, dropping the source ends the change. -/
theorem dropSource_ends (h : Completable S s it) (hphase : it.phase = .prepared) {t : Root}
    (ht : Underway s it t) (hf : t.files.objects source = some (.file f))
    (hdone : t.dropObject source = { s with files := settleFiles s.files it }) :
    Ends S (Completes S s it) (do
      removeObject source
      sync
      execute (setIntentMoved it.name)
      execute (finalize it)) t := by
  have hchanged := Underway.changed (s := s) hphase
  refine ends_removeObject h.responsive (h.underway t ht) hf (h.fails ht _) ?_ ?_
  · rw [hdone]
    exact h.underway _ hchanged
  · rw [hdone]
    exact ends_sync h.responsive (h.underway _ hchanged) (h.fails hchanged _) (mark_ends h hphase)

theorem moveFile_ends (h : Completable S s it)
    (hop : it.operation = .move source) (hphase : it.phase = .prepared)
    (hf : s.files.objects source = some (.file f)) (hq : s.files.quarantine it.name = none) :
    Ends S (Completes S s it) (do
      moveFileNoReplace source it.name
      execute (setIntentMoved it.name)
      execute (finalize it)) s := by
  have hs : S.through s := h.underway s .start
  have hlinked := Underway.linked (s := s) hop hphase hq
  have hdone : Root.dropObject { s with files := { s.files with
      quarantine := put s.files.quarantine it.name (s.files.objects source) } } source =
      { s with files := settleFiles s.files it } := by
    rw [settleFiles_move hop hphase, hq, Option.none_or]
    rfl
  simp only [moveFileNoReplace, bind_bind]
  refine ends_linkQuarantined h.responsive hs hf hq rfl (h.underway _ hlinked) (h.fails .start _)
    (h.fails hlinked _) ?_
  refine ends_sync h.responsive (h.underway _ hlinked) (h.fails hlinked _) ?_
  exact dropSource_ends h hphase hlinked hf hdone

theorem unlinkFile_ends (h : Completable S s it) {g : FileData}
    (hop : it.operation = .move source) (hphase : it.phase = .prepared)
    (hf : s.files.objects source = some (.file f)) (hq : s.files.quarantine it.name = some (.file g)) :
    Ends S (Completes S s it) (do
      removeObject source
      sync
      execute (setIntentMoved it.name)
      execute (finalize it)) s := by
  have hdone : s.dropObject source = { s with files := settleFiles s.files it } := by
    rw [settleFiles_move hop hphase, hq, Option.some_or, put_eq_self hq]
    rfl
  exact dropSource_ends h hphase .start hf hdone

theorem completeQuarantineMove_ends (h : Completable S s it) (hop : it.operation = .move source) :
    Ends S (Completes S s it) (completeQuarantineMove it source) s := by
  have hfinalize : finalizeMove it = finalize it := by simp only [finalize, hop]
  have hs : S.through s := h.underway s .start
  have hfail : ∀ e, Faulty S → Completes S s it (.error e) s := h.fails .start
  simp only [completeQuarantineMove, hfinalize]
  cases hphase : it.phase with
  | moved =>
    simp only [reduceCtorEq, if_false]
    exact finalize_ends h .start (by simp only [settleFiles, hphase]) rfl rfl
  | prepared =>
    have hlost : ∀ e, ¬ Movable s.files source it.name → Completes S s it (.error e) s := by
      intro e hnot
      refine .inr ⟨⟨e, rfl⟩, .inr (.inr ?_), .start⟩
      simpa only [Recoverable, hphase, hop] using hnot
    simp only [if_true]
    refine ends_openQuarantined h.responsive hs (hfail _) ?_
    -- the branches follow what stands at the quarantine name, then what stands at the source
    match hq : s.files.quarantine it.name with
    | some .special => exact hlost _ (by simp [Movable, hq])
    | none =>
      refine ends_openObject h.responsive hs (hfail _) ?_
      match hf : s.files.objects source with
      | none => exact .fail (hlost _ (by simp [Movable, hq, hf]))
      | some .special => exact hlost _ (by simp [Movable, hf])
      | some (.file f) => exact moveFile_ends h hop hphase hf hq
    | some (.file g) =>
      refine ends_openObject h.responsive hs (hfail _) ?_
      match hf : s.files.objects source with
      | some .special => exact hlost _ (by simp [Movable, hf])
      | none =>
        have hdone : { s with files := settleFiles s.files it } = s := by
          rw [settleFiles_move hop hphase, hq, hf, Option.some_or, put_eq_self hf, put_eq_self hq]
        have hmark := mark_ends h hphase
        rw [hdone] at hmark
        exact hmark
      | some (.file f) =>
        refine ends_openObject h.responsive hs (hfail _) ?_
        rw [hf]
        change Ends S _ (openQuarantined it.name >>= _) s
        refine ends_openQuarantined h.responsive hs (hfail _) ?_
        rw [hq]
        change Ends S _ (if f.inode ≠ g.inode then _ else _) s
        by_cases hi : f.inode = g.inode
        · rw [if_neg (not_not.mpr hi)]
          exact unlinkFile_ends h hop hphase hf hq
        · rw [if_pos hi]
          exact .fail (hlost _ (by simp [Movable, hf, hq, hi]))

theorem completeQuarantinePurge_ends (h : Completable S s it) (hop : it.operation = .purge) :
    Ends S (Completes S s it) (completeQuarantinePurge it) s := by
  have hfinalize : finalizePurge it.name = finalize it := by simp only [finalize, hop]
  have hs : S.through s := h.underway s .start
  have hfail : ∀ e, Faulty S → Completes S s it (.error e) s := h.fails .start
  simp only [completeQuarantinePurge, hfinalize]
  cases hphase : it.phase with
  | moved =>
    simp only [reduceCtorEq, if_false]
    exact finalize_ends h .start (by simp only [settleFiles, hphase]) rfl rfl
  | prepared =>
    have hmark := mark_ends h hphase
    have hchanged := Underway.changed (s := s) hphase
    have hsettle : settleFiles s.files it =
        { s.files with quarantine := put s.files.quarantine it.name none } := by
      simp only [settleFiles, hphase, hop]
    simp only [if_true]
    refine ends_openQuarantined h.responsive hs (hfail _) ?_
    rcases hq : s.files.quarantine it.name with _ | ⟨f⟩ | _
    · have hdone : { s with files := settleFiles s.files it } = s := by
        rw [hsettle, put_eq_self hq]
      rw [hdone] at hmark
      exact ends_sync h.responsive hs (hfail _) hmark
    · change Ends S _ (removeQuarantined it.name >>= _) s
      have hremoved : removed s.files.quarantine it.name = (.ok (), put s.files.quarantine it.name none) :=
        removed_some hq
      have hdone : { s with files := settleFiles s.files it } =
          { s with files := { s.files with quarantine := put s.files.quarantine it.name none } } := by
        rw [hsettle]
      refine ends_fs h.responsive hs (hfail _) ?_ ?_
      · simp only [hremoved]
        rw [← hdone]
        exact h.underway _ hchanged
      · simp only [hremoved]
        rw [← hdone]
        exact ends_sync h.responsive (h.underway _ hchanged) (h.fails hchanged _) hmark
    · refine .inr ⟨⟨_, rfl⟩, .inr (.inr ?_), .start⟩
      simp only [Recoverable, hphase, hop, hq, ne_eq, not_true_eq_false, not_false_eq_true]

def WellFormed (it : QuarantineIntent) : Prop := decodeQuarantineIntent it = .ok it

def QuarantineIntent.moved (it : QuarantineIntent) : QuarantineIntent := { it with phase := .moved }

theorem finalize_moved (it : QuarantineIntent) : finalize it.moved = finalize it := rfl

theorem settleFiles_idem (d : Files) (it : QuarantineIntent) :
    settleFiles (settleFiles d it) it = settleFiles d it := by
  match hphase : it.phase, hop : it.operation with
  | .moved, _ => simp only [settleFiles, hphase]
  | .prepared, .purge => simp only [settleFiles, hphase, hop, put_put]
  | .prepared, .move source =>
    simp only [settleFiles, hphase, hop, put_put, put_same, Option.or_none]

theorem Recoverable.settleFiles {d : Files} (h : Recoverable d it) :
    Recoverable (settleFiles d it) it := by
  match hphase : it.phase, hop : it.operation with
  | .moved, _ => simp only [Recoverable, hphase]
  | .prepared, .purge => simp [Recoverable, Assets.settleFiles, hphase, hop]
  | .prepared, .move source =>
    simp only [Recoverable, Assets.settleFiles, hphase, hop] at h ⊢
    refine .inr (.inl ?_)
    obtain ⟨f, hf, hq⟩ | ⟨f, hf, hq⟩ | ⟨f, g, hf, hq, -⟩ := h
    · exact ⟨f, put_same _ _ _, (put_same _ _ _).trans (by rw [hq, hf, Option.none_or])⟩
    · exact ⟨f, put_same _ _ _, (put_same _ _ _).trans (by rw [hq, Option.some_or])⟩
    · exact ⟨g, put_same _ _ _, (put_same _ _ _).trans (by rw [hq, Option.some_or])⟩

/-- Wherever an intent on the way is resumed, it leads to the same root. -/
theorem Underway.resumes (h : Underway s it t) (hrec : Recoverable s.files it) :
    (t.catalog = s.catalog ∧ Recoverable t.files it ∧ settle t it = settle s it) ∨
      (t.catalog = s.catalog.marked it.name ∧
        (¬ Refused it s.catalog → settle t it.moved = settle s it)) := by
  cases h with
  | start => exact .inl ⟨rfl, hrec, rfl⟩
  | linked hop hphase hfree =>
    simp only [Recoverable, hphase, hop] at hrec
    obtain ⟨f, hf, -⟩ | ⟨f, -, hq⟩ | ⟨f, g, -, hq, -⟩ := hrec
    · refine .inl ⟨rfl, ?_, ?_⟩
      · simp only [Recoverable, hphase, hop]
        exact .inr (.inr ⟨f, f, hf, (put_same _ _ _).trans hf, rfl⟩)
      · simp [settle, settleFiles, hphase, hop, hf, hfree]
    · rw [hfree] at hq
      cases hq
    · rw [hfree] at hq
      cases hq
  | changed hphase =>
    refine .inl ⟨rfl, hrec.settleFiles, ?_⟩
    rw [settle, settle, settleFiles_idem]
  | marked hphase =>
    refine .inr ⟨rfl, fun hfinalizes => ?_⟩
    cases hc : finalize it s.catalog with
    | error e => exact absurd ⟨e, hc⟩ hfinalizes
    | ok r =>
      have hm := (finalize_marked it s.catalog).trans hc
      rw [settle, settle, finalize_moved, Tx.commit_of_ok hc, Tx.commit_of_ok hm]
      rfl

theorem Underway.writer (h : Underway s it t) : t.writer = s.writer := by cases h <;> rfl

theorem Underway.rows (h : Underway s it t) : t.catalog.objects = s.catalog.objects := by
  cases h <;> rfl

theorem settleFiles_objects (d : Files) (it : QuarantineIntent) (path : ObjectPath) :
    (settleFiles d it).objects path = d.objects path ∨
      it.operation = .move path ∧ (settleFiles d it).objects path = none := by
  match hphase : it.phase, hop : it.operation with
  | .moved, _ => exact .inl (by simp only [settleFiles, hphase])
  | .prepared, .purge => exact .inl (by simp only [settleFiles, hphase, hop])
  | .prepared, .move source =>
    simp only [settleFiles, hphase, hop]
    by_cases hpath : path = source
    · subst hpath
      exact .inr ⟨rfl, put_same _ _ _⟩
    · exact .inl (put_ne hpath)

/-- Nothing but the source of a move leaves the object tree. -/
theorem Underway.objects (h : Underway s it t) (path : ObjectPath) :
    t.files.objects path = s.files.objects path ∨
      it.operation = .move path ∧ t.files.objects path = none := by
  cases h with
  | start => exact .inl rfl
  | linked => exact .inl rfl
  | changed => exact settleFiles_objects s.files it path
  | marked => exact settleFiles_objects s.files it path

def SparesRows (hash : Option AssetHash) (c c' : Catalog) : Prop :=
  ∀ o ∈ c.objects, hash ≠ some o.hash → o ∈ c'.objects

instance (hash : Option AssetHash) : Std.Refl (SparesRows hash) := ⟨fun _ _ ho _ => ho⟩

instance (hash : Option AssetHash) : IsTrans Catalog (SparesRows hash) :=
  ⟨fun _ _ _ h₁ h₂ o ho hne => h₂ o (h₁ o ho hne) hne⟩

theorem upsertQuarantine_spares (hash : Option AssetHash) (new : QuarantineRow) :
    Tx.Respects (SparesRows hash) (upsertQuarantine new) := by
  intro c a c' h o ho _
  unfold upsertQuarantine at h
  split at h
  · cases h
    exact ho
  · obtain ⟨t, -, h⟩ := except_bind_ok.mp h
    cases h
    exact ho

theorem deleteIntent_spares (hash : Option AssetHash) (name : String) :
    Tx.Respects (SparesRows hash) (deleteIntent name) := by
  intro c a c' h o ho _
  rw [← Tx.execute_ok.mp h]
  exact ho

theorem setState_spares (hash : AssetHash) (state : AssetState) :
    Tx.Respects (SparesRows (some hash)) (setState hash state) := by
  intro c a c' h o ho hne
  obtain ⟨n, c₁, h₁, h₂⟩ := Tx.bind_ok.mp h
  obtain ⟨-, rfl⟩ := Tx.pure_ok.mp h₂
  obtain ⟨t, -, h₁⟩ := except_bind_ok.mp h₁
  cases h₁
  exact Table.mem_update_of_not ho (by simpa [eq_comm] using hne)

theorem settle_rows (hop : it.operation = .move source) {o : AssetObject}
    (ho : o ∈ s.catalog.objects) (hne : it.originalHash ≠ some o.hash) :
    o ∈ (settle s it).catalog.objects := by
  have hfinalize : finalize it = finalizeMove it := by simp only [finalize, hop]
  have hrows : Tx.Respects (SparesRows it.originalHash) (finalizeMove it) := by
    refine .bind (upsertQuarantine_spares _ _) fun _ => ?_
    cases hhash : it.originalHash with
    | none => exact .bind (.pure ()) fun _ => deleteIntent_spares _ _
    | some hash => exact .bind (setState_spares _ _) fun _ => deleteIntent_spares _ _
  rw [settle, hfinalize]
  exact hrows.commit s.catalog o ho hne

/-! ## Recording an intent -/

theorem reason_bounded (reason : QuarantineReason) : reason.text ≠ "" ∧
    reason.text.utf8ByteSize ≤ 256 ∧ '\x00' ∉ reason.text.toList := by
  cases reason <;> decide

theorem wellFormed_iff : WellFormed it ↔ validateInternalName it.name = .ok () ∧
    ∀ source, it.operation = .move source → validateObjectRelativePath source = .ok () := by
  have hreason := reason_bounded it.reason
  simp only [WellFormed, decodeQuarantineIntent]
  cases hname : validateInternalName it.name with
  | error e => simp [bind, Except.bind]
  | ok u =>
    cases hop : it.operation with
    | purge => simp [bind, Except.bind, ensure, hreason]
    | move source =>
      cases hpath : validateObjectRelativePath source with
      | error e => simp [bind, Except.bind, hpath]
      | ok u => simp [bind, Except.bind, ensure, hpath, hreason]

theorem WellFormed.moved (h : WellFormed it) : WellFormed it.moved := by
  rw [wellFormed_iff] at h ⊢
  exact h

def recorded (s : Root) (it : QuarantineIntent) : Root :=
  { s with catalog := s.catalog.withIntents (s.catalog.intents ++ [it]) }

def Fresh (s : Root) (name : String) : Prop := ∀ i ∈ s.catalog.intents, i.name ≠ name

instance (s : Root) (name : String) : Decidable (Fresh s name) :=
  inferInstanceAs (Decidable (∀ i ∈ s.catalog.intents, i.name ≠ name))

theorem commit_insertIntent {it : QuarantineIntent} (h : Fresh s it.name) :
    (insertIntent it).commit s.catalog = (.ok (), (recorded s it).catalog) := by
  refine Tx.commit_of_ok (Tx.guarded_ok.mpr ⟨?_, rfl⟩)
  simpa [Fresh] using h

theorem commit_insertIntent_of_not {it : QuarantineIntent} (h : ¬ Fresh s it.name) :
    (insertIntent it).commit s.catalog = (.error .database, s.catalog) := by
  refine Tx.commit_of_error (Tx.guarded_error.mpr ⟨?_, rfl⟩)
  simpa [Fresh] using h

/-- The intent `quarantine_file` records. -/
def moveIntent (source : ObjectPath) (originalHash : Option AssetHash) (reason : QuarantineReason)
    (now : Nat) (uuid : String) : QuarantineIntent :=
  ⟨(originalHash.map AssetHash.text).getD "unknown" ++ "-" ++ uuid ++ ".quarantine", .move source,
    .prepared, originalHash, reason, now⟩

theorem quarantineFile_ends {hash : Option AssetHash} {reason : QuarantineReason}
    {now : Nat} {Q : Except AssetError String → Root → Prop} (hS : Responsive S)
    (hs : S.through s) (hw : s.writer = none) (hf : s.files.objects source = some (.file f))
    (hfail : ∀ e, Faulty S → Q (.error e) s)
    (hbad : ∀ i e, S.allowed s i → ¬ (WellFormed (moveIntent source hash reason now i.uuid) ∧
      Fresh s (moveIntent source hash reason now i.uuid).name) → Q (.error e) s)
    (hgo : ∀ i it, S.allowed s i → it = moveIntent source hash reason now i.uuid → WellFormed it →
      Fresh s it.name → Completable S (recorded s it) it ∧
        ∀ r t, Completes S (recorded s it) it r t → Q (r.map fun _ => it.name) t) :
    Ends S Q (quarantineFile source hash reason now) s := by
  simp only [quarantineFile]
  refine ends_openObject hS hs (hfail _) ?_
  rw [hf]
  refine ends_ofExcept (r := requireFile (some f)) (ends_newUuid hS hs fun i hi => ?_)
  -- the three ways to fail before the intent is recorded
  have hbad := fun e hname => hbad i e hi hname
  refine ends_ofExcept (then_of (fun _ hname => ?_) fun e hname => hbad e fun h => ?_)
  swap
  · cases (wellFormed_iff.mp h.1).1.symm.trans hname
  refine ends_ofExcept (then_of (fun _ hpath => ?_) fun e hpath => hbad e fun h => ?_)
  swap
  · cases ((wellFormed_iff.mp h.1).2 source rfl).symm.trans hpath
  have hvalid : WellFormed (moveIntent source hash reason now i.uuid) := by
    refine wellFormed_iff.mpr ⟨hname, ?_⟩
    rintro source' ⟨⟩
    exact hpath
  by_cases hfresh : Fresh s (moveIntent source hash reason now i.uuid).name
  · obtain ⟨hcomplete, hend⟩ := hgo i _ hi rfl hvalid hfresh
    refine ends_execute hS hs hw (hfail _) (commit_insertIntent hfresh)
      (hcomplete.underway _ .start) ?_
    refine (completeQuarantineMove_ends hcomplete rfl).bind (fun _ t ht => .pure ?_) fun e t ht => ?_
    · exact hend _ t ht
    · exact hend _ t ht
  · exact ends_execute hS hs hw (hfail _) (commit_insertIntent_of_not hfresh) hs
      (hbad _ fun h => hfresh h.2)

/-- The intent `purge_quarantine_file` records. -/
def purgeIntent (row : QuarantineRow) (name : String) : QuarantineIntent :=
  ⟨name, .purge, .prepared, row.originalHash, row.reason, row.createdAtMs⟩

theorem purgeQuarantineFile_ends {name : String} {Q : Except AssetError Unit → Root → Prop}
    (hS : Responsive S) (hs : S.through s) (hw : s.writer = none)
    (hfail : ∀ e, Faulty S → Q (.error e) s)
    (hnone : (s.catalog.quarantine.find? fun r => r.name = name) = none → Q (.ok ()) s)
    (hbad : ¬ Fresh s name → Q (.error .database) s)
    (hgo : ∀ row it, (s.catalog.quarantine.find? fun r => r.name = name) = some row →
      it = purgeIntent row name → Fresh s name → Completable S (recorded s it) it ∧
        ∀ r t, Completes S (recorded s it) it r t → Q r t) :
    Ends S Q (purgeQuarantineFile name) s := by
  simp only [purgeQuarantineFile]
  refine ends_query hS hs (hfail _) ?_
  cases hrow : s.catalog.quarantine.find? fun r => r.name = name with
  | none => exact .pure (hnone hrow)
  | some row =>
    by_cases hfresh : Fresh s name
    · obtain ⟨hcomplete, hend⟩ := hgo row _ hrow rfl hfresh
      refine ends_execute hS hs hw (hfail _) (commit_insertIntent hfresh)
        (hcomplete.underway _ .start) ?_
      exact (completeQuarantinePurge_ends hcomplete rfl).mono hend
    · exact ends_execute hS hs hw (hfail _)
        (commit_insertIntent_of_not hfresh) hs (hbad hfresh)

end Lorepia.Assets
