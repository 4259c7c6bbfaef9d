import Lorepia.Assets.Quarantine

/-!
# Shard reconciliation and the objects it leaves alone

A shard reconciliation moves the files of one directory that no row accounts for into the
quarantine. It reads a file name as a hash whether or not the file is in the directory of that
hash, so it is harmless to an object only as long as no file elsewhere bears its name.
-/

namespace Lorepia.Assets

open Proc Catalog

/-- The row's file is where its hash says, with the bytes and the size of the row. -/
structure Healthy (env : Env) (s : Root) (o : AssetObject) : Prop where
  row : o ∈ s.catalog.objects
  file : ∃ f, s.files.objects (relativeObjectPath o.hash) = some (.file f) ∧
    env.sha256 f.bytes = o.hash ∧ f.bytes.length = o.size

def nextPages (r : ShardReconciler) : List Nat → Op Unit
  | [] => pure ()
  | limit :: rest => do
    let (_, r) ← nextPage r limit
    nextPages r rest

/-- `begin_shard_reconciliation` and any number of pages. -/
def reconcileShard (shard : String) (listing : List DirEntry) (limits : List Nat) : Op Unit := do
  let r ← beginShardReconciliation shard listing
  nextPages r limits

/-- No regular file of the listing that does not belong in the shard is named by the hash of
an object that is in order. -/
def NoNamesake (env : Env) (s : Root) (shard : String) (listing : List DirEntry) : Prop :=
  ∀ e ∈ listing, e.utf8 = true → isExpectedHash shard e.name = false →
    (∃ f, s.files.objects (shardPath shard e.name) = some (.file f)) →
      ∀ o, Healthy env s o → namedHash e.name ≠ some o.hash

/-! ## Names and paths -/

theorem namedHash_text (h : AssetHash) : namedHash h.text = some h := by
  simp [namedHash, AssetHash.parse, h.valid, Except.toOption]

theorem shardPath_name {shard name : String} {h : AssetHash}
    (heq : shardPath shard name = relativeObjectPath h) : namedHash name = some h := by
  have hname : name = h.text := congrArg ObjectPath.name heq
  rw [hname]
  exact namedHash_text h

theorem isExpectedHash_of_path {shard name : String} {h : AssetHash} (hshard : shard.toList.length = 4)
    (heq : shardPath shard name = relativeObjectPath h) : isExpectedHash shard name = true := by
  have hfirst : shard.toList.take 2 = h.text.toList.take 2 :=
    String.ofList_injective (congrArg ObjectPath.first heq)
  have hsecond : (shard.toList.drop 2).take 2 = (h.text.toList.drop 2).take 2 :=
    String.ofList_injective (congrArg ObjectPath.second heq)
  have hshape : shard.toList = h.text.toList.take 4 := by
    calc shard.toList
        = shard.toList.take 2 ++ (shard.toList.drop 2).take 2 := by
          rw [← List.take_add, List.take_of_length_le (by omega)]
      _ = h.text.toList.take 2 ++ (h.text.toList.drop 2).take 2 := by rw [hfirst, hsecond]
      _ = h.text.toList.take 4 := (List.take_add ..).symm
  simp only [isExpectedHash, shardPath_name heq, Option.any_some]
  rw [List.isPrefixOf_iff_prefix, hshape]
  exact List.take_prefix _ _

theorem named_of_expected {shard name : String} (h : isExpectedHash shard name = true) :
    ∃ hash, namedHash name = some hash := by
  cases hname : namedHash name with
  | none => simp [isExpectedHash, hname] at h
  | some hash => exact ⟨hash, rfl⟩

/-! ## What a reconciliation leaves alone -/

/-- The objects that were in order in `s` are, and no path of the object tree has got a new
entry. -/
structure Spared (env : Env) (s t : Root) : Prop where
  free : t.writer = none
  rows : ∀ o, Healthy env s o → o ∈ t.catalog.objects
  files : ∀ o, Healthy env s o →
    t.files.objects (relativeObjectPath o.hash) = s.files.objects (relativeObjectPath o.hash)
  objects : ∀ path, t.files.objects path = s.files.objects path ∨ t.files.objects path = none

variable {env : Env} {s t : Root} {shard : String} {name : String} {h : AssetHash} {source : ObjectPath}

theorem Spared.healthy (h : Spared env s t) {o : AssetObject} (ho : Healthy env s o) :
    Healthy env t o := by
  obtain ⟨f, hf, hhash⟩ := ho.file
  exact ⟨h.rows o ho, f, (h.files o ho).trans hf, hhash⟩

def sparing (env : Env) (s : Root) : Setting Root Input where
  through := Spared env s

theorem sparing_responsive : Responsive (sparing env s) := .inr fun _ => ⟨{}, trivial⟩

def Harmless (env : Env) (s : Root) (source : ObjectPath) (hash : Option AssetHash) : Prop :=
  ∀ o, Healthy env s o → source ≠ relativeObjectPath o.hash ∧ hash ≠ some o.hash

theorem Spared.underway {it : QuarantineIntent} {u : Root}
    (h : Spared env s t) (hop : it.operation = .move source)
    (hsafe : Harmless env s source it.originalHash) (hu : Underway t it u) : Spared env s u := by
  have hpath : ∀ path, u.files.objects path = t.files.objects path ∨
      path = source ∧ u.files.objects path = none := by
    intro path
    refine (hu.objects path).imp_right fun ⟨hmove, hnone⟩ => ⟨?_, hnone⟩
    rw [hop] at hmove
    exact (QuarantineOperation.move.inj hmove).symm
  constructor
  · exact hu.writer.trans h.free
  · intro o ho
    rw [hu.rows]
    exact h.rows o ho
  · intro o ho
    obtain hsame | ⟨heq, -⟩ := hpath (relativeObjectPath o.hash)
    · exact hsame.trans (h.files o ho)
    · exact absurd heq.symm (hsafe o ho).1
  · intro path
    obtain hsame | ⟨-, hnone⟩ := hpath path
    · rw [hsame]
      exact h.objects path
    · exact .inr hnone

theorem Spared.settle {it : QuarantineIntent} (h : Spared env s t)
    (hop : it.operation = .move source) (hphase : it.phase = .prepared)
    (hsafe : Harmless env s source it.originalHash) : Spared env s (settle t it) := by
  -- the files are those of a root on the way, the rows of the others stay
  have hchanged := h.underway hop hsafe (Underway.changed hphase)
  exact ⟨h.free, fun o ho => settle_rows hop (h.rows o ho) (hsafe o ho).2, hchanged.files,
    hchanged.objects⟩

theorem Spared.recorded (h : Spared env s t) (it : QuarantineIntent) : Spared env s (recorded t it) :=
  ⟨h.free, h.rows, h.files, h.objects⟩

theorem quarantineFile_spares {hash : Option AssetHash}
    {reason : QuarantineReason} {now : Nat} {f : FileData} (h : Spared env s t)
    (hf : t.files.objects source = some (.file f)) (hsafe : Harmless env s source hash) :
    Ends (sparing env s) (fun _ u => Spared env s u) (quarantineFile source hash reason now) t := by
  refine quarantineFile_ends sparing_responsive h h.free hf (fun _ _ => h) (fun _ _ _ _ => h) ?_
  rintro i it - rfl - -
  have hop : (moveIntent source hash reason now i.uuid).operation = .move source := rfl
  have hrecorded := h.recorded (moveIntent source hash reason now i.uuid)
  have hsettle := hrecorded.settle hop rfl hsafe
  refine ⟨⟨sparing_responsive, h.free, fun u hu => hrecorded.underway hop hsafe hu, hsettle⟩, ?_⟩
  rintro r u (⟨-, rfl, -⟩ | ⟨-, -, hu⟩)
  · exact hsettle
  · exact hrecorded.underway hop hsafe hu

theorem harmless_of_expected (hspared : Spared env s t)
    (hname : namedHash name = some h) (hnone : (t.catalog.object? h).isSome = false) :
    Harmless env s (shardPath shard name) (namedHash name) := by
  intro o ho
  have hne : o.hash ≠ h := by
    rintro rfl
    have hfind : t.catalog.object? o.hash = none := by simpa using hnone
    have := List.find?_eq_none.mp hfind o (hspared.rows o ho)
    simp at this
  constructor
  · intro heq
    have hnamed := shardPath_name heq
    rw [hname] at hnamed
    exact hne (Option.some.inj hnamed).symm
  · rw [hname]
    intro heq
    exact hne (Option.some.inj heq).symm

theorem harmless_of_misplaced (hshard : shard.toList.length = 4)
    (hmisplaced : isExpectedHash shard name = false)
    (hname : ∀ o, Healthy env s o → namedHash name ≠ some o.hash) :
    Harmless env s (shardPath shard name) (namedHash name) := by
  intro o ho
  refine ⟨fun heq => ?_, hname o ho⟩
  rw [isExpectedHash_of_path hshard heq] at hmisplaced
  cases hmisplaced

section Pages

variable {shard : String} {listing : List DirEntry}

theorem reconcileShardEntry_spares (hshard : shard.toList.length = 4)
    (hsafe : NoNamesake env s shard listing) {entry : DirEntry} (he : entry ∈ listing) (now : Nat)
    (h : Spared env s t) :
    Ends (sparing env s) (fun _ u => Spared env s u) (reconcileShardEntry shard entry now) t := by
  simp only [reconcileShardEntry]
  split
  swap
  · exact .pure h
  next hutf8 =>
  refine ends_openForReconcile sparing_responsive h (fun _ => h) ?_
  match hf : t.files.objects (shardPath shard entry.name) with
  | none => exact .pure h
  | some .special => exact .pure h
  | some (.file f) =>
    -- the file was there from the start
    have hthere : ∃ f, s.files.objects (shardPath shard entry.name) = some (.file f) := by
      obtain hsame | hnone := h.objects (shardPath shard entry.name)
      · exact ⟨f, hsame ▸ hf⟩
      · rw [hnone] at hf
        cases hf
    have hquarantine : ∀ reason (k : String → Op (Option ReconcileFinding)),
        (∀ name, ∃ found, k name = pure found) →
        Harmless env s (shardPath shard entry.name) (namedHash entry.name) →
        Ends (sparing env s) (fun _ u => Spared env s u)
          (quarantineFile (shardPath shard entry.name) (namedHash entry.name) reason now >>= k) t := by
      intro reason k hk hharmless
      refine (quarantineFile_spares h hf hharmless).bind (fun name u hu => ?_) fun _ _ hu => hu
      obtain ⟨found, hfound⟩ := hk name
      rw [hfound]
      exact .pure hu
    simp only [opened, catalogued]
    cases hexpected : isExpectedHash shard entry.name with
    | false =>
      simp only [Bool.false_eq_true, if_false]
      exact hquarantine _ _ (fun _ => ⟨_, rfl⟩)
        (harmless_of_misplaced hshard hexpected (hsafe entry he hutf8 hexpected hthere))
    | true =>
      obtain ⟨hash, hname⟩ := named_of_expected hexpected
      simp only [if_true, hname]
      refine ends_query sparing_responsive h (fun _ => h) ?_
      cases hrow : (t.catalog.object? hash).isSome with
      | true => exact .pure h
      | false =>
        simp only [Bool.false_eq_true, if_false]
        rw [← hname]
        exact hquarantine _ _ (fun _ => ⟨_, rfl⟩) (harmless_of_expected h hname hrow)

def EntriesLeft (env : Env) (s : Root) (listing : List DirEntry)
    (r : Except AssetError (Except AssetError (List ReconcileFinding) × List DirEntry)) (u : Root) :
    Prop :=
  Spared env s u ∧ ∀ a, r = .ok a → a.2 ⊆ listing

def PageLeft (env : Env) (s : Root) (shard : String) (listing : List DirEntry)
    (r : Except AssetError (Except AssetError ShardReconcilePage × ShardReconciler)) (u : Root) :
    Prop :=
  Spared env s u ∧ ∀ a, r = .ok a → a.2.shard = shard ∧ a.2.pending ⊆ listing

theorem examineEntries_spares (hshard : shard.toList.length = 4)
    (hsafe : NoNamesake env s shard listing) (now n : Nat) {pending : List DirEntry}
    (hpending : pending ⊆ listing) (h : Spared env s t) :
    Ends (sparing env s) (EntriesLeft env s listing) (examineEntries shard now n pending) t := by
  induction n generalizing pending t with
  | zero => exact .pure ⟨h, by rintro a ⟨⟩; exact hpending⟩
  | succ n ih =>
    cases pending with
    | nil => exact .pure ⟨h, by rintro a ⟨⟩; exact List.nil_subset _⟩
    | cons entry rest =>
      simp only [examineEntries]
      have hstay : ∀ e, Ends (sparing env s) (EntriesLeft env s listing)
          (pure (.error e, entry :: rest)) t := by
        intro e
        exact .pure ⟨h, by rintro a ⟨⟩; exact hpending⟩
      refine ends_attempt ?_
      rw [← bind_pure heed]
      refine ends_heed sparing_responsive h (fun _ => hstay _) (.pure ?_)
      refine ends_attempt ((reconcileShardEntry_spares hshard hsafe (hpending List.mem_cons_self) now
        h).mono fun r u hu => ?_)
      cases r with
      | error e => exact .pure ⟨hu, by rintro a ⟨⟩; exact hpending⟩
      | ok finding =>
        refine (ih (fun x hx => hpending (List.mem_cons_of_mem _ hx)) hu).bind ?_ ?_
        · rintro ⟨findings, left⟩ v ⟨hv, hleft⟩
          exact .pure ⟨hv, by rintro a ⟨⟩; exact hleft (findings, left) rfl⟩
        · rintro e v ⟨hv, -⟩
          exact ⟨hv, by rintro a ⟨⟩⟩

theorem nextPage_spares (hshard : shard.toList.length = 4) (hsafe : NoNamesake env s shard listing)
    (limit : Nat) {r : ShardReconciler} (hr : r.shard = shard ∧ r.pending ⊆ listing)
    (h : Spared env s t) :
    Ends (sparing env s) (PageLeft env s shard listing) (nextPage r limit) t := by
  have hstay : ∀ e, Ends (sparing env s) (PageLeft env s shard listing) (pure (.error e, r)) t := by
    intro e
    exact .pure ⟨h, by rintro a ⟨⟩; exact hr⟩
  simp only [nextPage]
  refine ends_attempt (ends_ofExcept (then_of (fun _ _ => ?_) fun e _ => hstay e))
  refine ends_sync sparing_responsive h (fun _ => hstay _) ?_
  rw [← bind_pure nowMs]
  refine ends_nowMs sparing_responsive h (fun _ => hstay _) fun i _ => .pure ?_
  rw [hr.1]
  refine (examineEntries_spares hshard hsafe i.now limit hr.2 h).bind ?_ ?_
  · rintro ⟨findings, left⟩ u ⟨hu, hleft⟩
    exact .pure ⟨hu, by rintro a ⟨⟩; exact ⟨rfl, hleft _ rfl⟩⟩
  · rintro e u ⟨hu, -⟩
    exact ⟨hu, by rintro a ⟨⟩⟩

theorem nextPages_spares (hshard : shard.toList.length = 4) (hsafe : NoNamesake env s shard listing)
    (limits : List Nat) {r : ShardReconciler} (hr : r.shard = shard ∧ r.pending ⊆ listing)
    (h : Spared env s t) :
    Ends (sparing env s) (fun _ u => Spared env s u) (nextPages r limits) t := by
  induction limits generalizing r t with
  | nil => exact .pure h
  | cons limit rest ih =>
    refine (nextPage_spares hshard hsafe limit hr h).bind ?_ fun _ _ hu => hu.1
    rintro ⟨reply, r'⟩ u ⟨hu, hr'⟩
    exact ih (hr' _ rfl) hu

theorem reconcileShard_spares (hsafe : NoNamesake env s shard listing) (limits : List Nat)
    (h : Spared env s t) :
    Ends (sparing env s) (fun _ u => Spared env s u) (reconcileShard shard listing limits) t := by
  simp only [reconcileShard, beginShardReconciliation, bind_bind]
  refine ends_ofExcept (then_of (fun _ hvalid => ?_) fun _ _ => h)
  refine ends_sync sparing_responsive h (fun _ => h) ?_
  have hshard : shard.toList.length = 4 := by
    have := ensure_ok.mp hvalid
    simp only [lowerHex, Bool.and_eq_true, beq_iff_eq] at this
    exact this.1
  exact nextPages_spares hshard hsafe limits ⟨rfl, List.Subset.refl _⟩ h

end Pages

/-- **Shard reconciliation leaves alone the objects that are in order**, at every point and
whatever fails, unless a file that does not belong in the shard bears the name of one. -/
theorem shard_reconciliation_harmless (env : Env) (s : Root) (hfree : s.writer = none)
    (shard : String) (listing : List DirEntry) (hsafe : NoNamesake env s shard listing)
    (limits : List Nat) (p : Op Unit) (t : Root)
    (hrun : Reaches (fun _ _ => True) (reconcileShard shard listing limits) s p t)
    (o : AssetObject) (ho : Healthy env s o) : Healthy env t o := by
  have hs : Spared env s s := ⟨hfree, fun _ ho => ho.row, fun _ _ => rfl, fun _ => .inl rfl⟩
  exact ((reconcileShard_spares hsafe limits hs).reaches hrun hs).1.healthy ho

namespace Sample

def rowA : AssetObject := ⟨hashA, 2, .png, relativeObjectPath hashA, .active, 1, 1⟩

def catalogA : Catalog := { Catalog.empty with objects := [rowA], totals := ⟨1, 2, 0, 0, 0, 0⟩ }

/-- The object is in order, and another shard has a file that bears its name. -/
def namesakeRoot : Root where
  files := { files with
    objects := put (put files.objects (relativeObjectPath hashA) (some (.file ⟨0, [1, 1]⟩)))
      (shardPath "bbbb" hashA.text) (some (.file ⟨1, [2, 2]⟩)) }
  catalog := catalogA
  writer := none

def calmInputs : List Input := List.replicate 30 { uuid := "0" }

theorem rowA_healthy : Healthy store.env namesakeRoot rowA :=
  ⟨List.mem_singleton.mpr rfl, ⟨0, [1, 1]⟩, by decide, by decide, rfl⟩

end Sample

open Sample in
/-- The reconciliation of the other shard marks the healthy object as quarantined, while its
file stays where it is. -/
theorem namesake_quarantined :
    Healthy store.env namesakeRoot rowA ∧ ∃ p t,
      Reaches (fun _ _ => True) (reconcileShard "bbbb" [⟨hashA.text, true⟩] [10]) namesakeRoot p t ∧
      t.catalog.objects = [{ rowA with state := .quarantined (hashA.text ++ "-0.quarantine") }] ∧
      t.files.objects (relativeObjectPath hashA) = some (.file ⟨0, [1, 1]⟩) :=
  ⟨rowA_healthy, _, _, reaches_runOn (fun i (_ : i ∈ calmInputs) _ => trivial) _ _,
    by decide, by decide⟩

open Sample in
/-- The shard the object belongs in. -/
theorem own_shard_harmless :
    NoNamesake store.env namesakeRoot "aaaa" [⟨hashA.text, true⟩] ∧
      Healthy store.env
        (runOn calmInputs (reconcileShard "aaaa" [⟨hashA.text, true⟩] [10]) namesakeRoot).2 rowA := by
  have hsafe : NoNamesake store.env namesakeRoot "aaaa" [⟨hashA.text, true⟩] := by
    intro e he _ hmisplaced
    obtain rfl := List.mem_singleton.mp he
    exact absurd hmisplaced (by decide)
  exact ⟨hsafe, shard_reconciliation_harmless store.env namesakeRoot rfl "aaaa" _ hsafe [10] _ _
    (reaches_runOn (fun _ _ _ => trivial) _ _) rowA rowA_healthy⟩

end Lorepia.Assets
