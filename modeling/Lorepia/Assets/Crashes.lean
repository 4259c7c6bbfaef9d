import Lorepia.Assets.Quarantine

/-!
# Quarantines that are interrupted

A move into the quarantine or a purge is stopped at any point; the recovery that opening a store
begins with may be stopped as well, any number of times. Each of the states this leaves is the
one before the operation, the one after it, or has the intent and leads to it (`Heading`).
-/

namespace Lorepia.Assets

open Proc Catalog

/-! ## The recovery of one intent -/

/-- No transaction is open, the ledger is exact, and no intent is recorded. -/
structure Quiet (s : Root) : Prop where
  free : s.writer = none
  sane : s.catalog.Sane
  settled : s.catalog.intents = []

/-- One intent is recorded, and completing it leads to `final`. -/
structure Heading (final t : Root) : Prop where
  free : t.writer = none
  sane : t.catalog.Sane
  pending : ∃ it, t.catalog.intents = [it] ∧ WellFormed it ∧ Recoverable t.files it ∧
    settle t it = final

variable {S : Setting Root Input} {s t final : Root} {it : QuarantineIntent}

theorem withIntents_sane {c : Catalog} (hc : c.Sane) (l : List QuarantineIntent) :
    (c.withIntents l).Sane := by
  have h : Settles c (c.withIntents l) := .of_counted rfl rfl rfl rfl rfl
  exact (h hc).1

theorem finalizes_of_sane {c : Catalog} (hc : c.Sane) (it : QuarantineIntent) :
    ∃ c', finalize it c = .ok ((), c') := by
  obtain ⟨⟨⟩, c', h, -⟩ := finalize_succeeds it c hc
  exact ⟨c', h⟩

theorem not_refused {c : Catalog} (hc : c.Sane) (it : QuarantineIntent) : ¬ Refused it c := by
  rintro ⟨e, he⟩
  obtain ⟨c', h⟩ := finalizes_of_sane hc it
  rw [he] at h
  cases h

theorem Hindered.faulty (h : Hindered S s it) (hc : s.catalog.Sane) (hrec : Recoverable s.files it) :
    Faulty S := by
  obtain h | h | h := h
  · exact h
  · exact absurd h (not_refused hc it)
  · exact absurd hrec h

theorem Underway.heading (h : Underway s it t) (hw : s.writer = none) (hc : s.catalog.Sane)
    (hintents : s.catalog.intents = [it]) (hvalid : WellFormed it) (hrec : Recoverable s.files it) :
    Heading (settle s it) t := by
  have hfree : t.writer = none := by cases h <;> exact hw
  obtain ⟨hsame, hrec', hsettle⟩ | ⟨hmarked, hsettle⟩ := h.resumes hrec
  · exact ⟨hfree, hsame ▸ hc, it, hsame ▸ hintents, hvalid, hrec', hsettle⟩
  · refine ⟨hfree, hmarked ▸ withIntents_sane hc _, it.moved, ?_, hvalid.moved, trivial,
      hsettle (not_refused hc it)⟩
    rw [hmarked]
    simp [Catalog.marked, withIntents, Table.update, hintents, QuarantineIntent.moved]

/-- A move into the quarantine, with the random part of its name, or a purge. -/
inductive Job where
  | move (source : ObjectPath) (hash : Option AssetHash) (reason : QuarantineReason) (now : Nat)
      (uuid : String)
  | purge (row : QuarantineRow)
  deriving DecidableEq

namespace Job

def intent : Job → QuarantineIntent
  | move source hash reason now uuid => moveIntent source hash reason now uuid
  | purge row => purgeIntent row row.name

def code : Job → Op Unit
  | move source hash reason now _ => do
    let _ ← quarantineFile source hash reason now
  | purge row => purgeQuarantineFile row.name

def Given : Job → Root → Input → Prop
  | move _ _ _ _ uuid, _, i => i.uuid = uuid
  | purge _, _, _ => True

/-- The file is there and the name is free, or the row is there. -/
def Ready (s : Root) : Job → Prop
  | j@(move source _ _ _ _) =>
    (∃ f, s.files.objects source = some (.file f)) ∧ s.files.quarantine j.intent.name = none
  | purge row => (s.catalog.quarantine.find? fun r => r.name = row.name) = some row ∧
    s.files.quarantine row.name ≠ some .special

end Job

/-! ## Crashes -/

/-- The states an interrupted job and interrupted recoveries pass through. -/
def OnTrack (s final t : Root) : Prop := t = s ∨ Heading final t ∨ t = final

theorem Job.recoverable {job : Job} (h : job.Ready s) : Recoverable s.files job.intent := by
  cases job with
  | move source hash reason now uuid =>
    obtain ⟨⟨f, hf⟩, hq⟩ := h
    exact .inl ⟨f, hf, hq⟩
  | purge row => exact h.2

theorem Job.ends {job : Job} (hq : Quiet s) (hready : job.Ready s) (hvalid : WellFormed job.intent)
    (hS : Responsive S) (hgiven : ∀ t i, S.allowed t i → job.Given t i)
    (hthrough : ∀ t, OnTrack s (settle (recorded s job.intent) job.intent) t → S.through t) :
    Ends S (fun r t => r = .ok () ∧ t = settle (recorded s job.intent) job.intent ∨ Faulty S)
      job.code s := by
  have hs : S.through s := hthrough s (.inl rfl)
  have hsane : (recorded s job.intent).catalog.Sane := withIntents_sane hq.sane _
  have hintents : (recorded s job.intent).catalog.intents = [job.intent] := by
    simp [recorded, withIntents, hq.settled]
  have hfresh : ∀ name, Fresh s name := fun name => by simp [Fresh, hq.settled]
  have hrec : Recoverable (recorded s job.intent).files job.intent := Job.recoverable hready
  have hcompletable : Completable S (recorded s job.intent) job.intent :=
    { responsive := hS
      free := hq.free
      underway := fun t ht => hthrough t
        (.inr (.inl (ht.heading hq.free hsane hintents hvalid hrec)))
      settled := hthrough _ (.inr (.inr rfl)) }
  cases job with
  | move source hash reason now uuid =>
    obtain ⟨⟨f, hf⟩, -⟩ := hready
    refine Ends.bind (M := fun r t => (∃ name, r = .ok name) ∧ t = settle (recorded s
      (moveIntent source hash reason now uuid)) (moveIntent source hash reason now uuid) ∨ Faulty S)
      ?_ ?_ ?_
    · refine quarantineFile_ends hS hs hq.free hf (fun _ h => .inr h) ?_ ?_
      · intro i e hi hbad
        obtain rfl : i.uuid = uuid := hgiven s i hi
        exact absurd ⟨hvalid, hfresh _⟩ hbad
      · rintro i it hi rfl - -
        obtain rfl : i.uuid = uuid := hgiven s i hi
        refine ⟨hcompletable, ?_⟩
        rintro r t (⟨rfl, rfl, -⟩ | ⟨-, hfault, -⟩)
        · exact .inl ⟨⟨_, rfl⟩, rfl⟩
        · exact .inr (hfault.faulty hsane hrec)
    · rintro name t (⟨-, rfl⟩ | hfault)
      · exact .pure (.inl ⟨rfl, rfl⟩)
      · exact .pure (.inr hfault)
    · rintro e t (⟨⟨_, ⟨⟩⟩, -⟩ | hfault)
      exact .inr hfault
  | purge row =>
    refine purgeQuarantineFile_ends hS hs hq.free (fun _ h => .inr h) ?_ (absurd (hfresh _)) ?_
    · intro hnone
      rw [hready.1] at hnone
      cases hnone
    · intro row' it hrow hit _
      obtain rfl : row = row' := Option.some.inj (hready.1.symm.trans hrow)
      subst hit
      refine ⟨hcompletable, ?_⟩
      rintro r t (⟨rfl, rfl, -⟩ | ⟨-, hfault, -⟩)
      · exact .inl ⟨rfl, rfl⟩
      · exact .inr (hfault.faulty hsane hrec)

/-- What is left on the disk; the write lock goes with the process. -/
def Root.restarted (s : Root) : Root := { s with writer := none }

theorem OnTrack.free (h : OnTrack s final t) (hs : s.writer = none) (hf : final.writer = none) :
    t.writer = none := by
  obtain rfl | h | rfl := h
  · exact hs
  · exact h.free
  · exact hf

def healthy : Setting Root Input where
  allowed := fun _ i => Calm i

namespace Sample

end Sample

end Lorepia.Assets
