import Mathlib
import Lorepia.Backup.Restore

/-!
# Staging and validating the new tree

A staging directory holds only finished files of the package and copies in progress (`Staged`),
whatever the interruptions so far; once every file has its turn it is the package's data tree.
Validating that tree fails only when the observer asks for it.
-/

namespace Lorepia.Backup

variable {env : Env} {pkg : Package env} {t : Tree}

/-! ## Trees -/

theorem getElem?_insert (t : Tree) (p q : String) (b : Bytes) :
    (t.insert p b)[q]? = if p = q then some b else t[q]? := by
  rw [Std.ExtTreeMap.getElem?_insert]
  simp

theorem getElem?_erase (t : Tree) (p q : String) :
    (t.erase p)[q]? = if p = q then none else t[q]? := by
  rw [Std.ExtTreeMap.getElem?_erase]
  simp

theorem insert_insert (t : Tree) (p : String) (b b' : Bytes) :
    (t.insert p b).insert p b' = t.insert p b' := by
  refine Std.ExtTreeMap.ext_getElem? fun q => ?_
  rw [getElem?_insert, getElem?_insert, getElem?_insert]
  split <;> rfl

theorem erase_of_none {p : String} (h : t[p]? = none) : t.erase p = t := by
  refine Std.ExtTreeMap.ext_getElem? fun q => ?_
  rw [getElem?_erase]
  split
  · next hpq => rw [← hpq, h]
  · rfl

theorem rename_copy (t : Tree) (copy target : String) (b : Bytes) :
    (((t.erase copy).insert copy b).erase copy).insert target
      ((((t.erase copy).insert copy b)[copy]?).getD []) = (t.erase copy).insert target b := by
  have hread : ((t.erase copy).insert copy b)[copy]? = some b := by
    rw [getElem?_insert, if_pos rfl]
  rw [hread, Option.getD_some]
  refine Std.ExtTreeMap.ext_getElem? fun q => ?_
  simp only [getElem?_insert, getElem?_erase]
  split
  · rfl
  · split <;> rfl

theorem chunksFrom_flatten {fuel : Nat} {bytes : Bytes} (h : bytes.length ≤ fuel) :
    (chunksFrom fuel bytes).flatten = bytes := by
  induction fuel generalizing bytes with
  | zero =>
    rw [List.length_eq_zero_iff.mp (Nat.le_zero.mp h)]
    rfl
  | succ fuel ih =>
    cases bytes with
    | nil => rfl
    | cons b bytes =>
      have hrest : ((b :: bytes).drop copyBufferBytes).length ≤ fuel := by
        rw [List.length_drop]
        simp only [List.length_cons, copyBufferBytes] at h ⊢
        omega
      show _ ++ (chunksFrom fuel _).flatten = _
      rw [ih hrest, List.take_append_drop]

theorem chunks_flatten (bytes : Bytes) : (chunks bytes).flatten = bytes :=
  chunksFrom_flatten le_rfl

/-! ## The data tree of a package -/

abbrev Package.data (pkg : Package env) : List (String × BackupEntry) := dataEntries pkg.entries

theorem mem_entries_of_data {d : String × BackupEntry} (hd : d ∈ pkg.data) :
    d.2 ∈ pkg.entries := by
  obtain ⟨e, he, hmap⟩ := List.mem_filterMap.mp hd
  obtain ⟨p, -, rfl⟩ := Option.map_eq_some_iff.mp hmap
  exact he

theorem tree_getElem? {d : String × BackupEntry} (hd : d ∈ pkg.data) :
    pkg.tree[d.1]? = some d.2.content := by
  refine Std.ExtTreeMap.getElem?_ofList_of_mem (k := d.1) (by simp) ?_ ?_
  · have hlt := List.pairwise_map.mp pkg.ordered
    refine List.pairwise_map.mpr (hlt.imp fun h => ?_)
    simp [h]
  · exact List.mem_map.mpr ⟨d, hd, rfl⟩

theorem tree_getElem?_none {p : String} (hp : ∀ d ∈ pkg.data, d.1 ≠ p) : pkg.tree[p]? = none := by
  refine Std.ExtTreeMap.getElem?_ofList_of_contains_eq_false ?_
  refine Bool.eq_false_iff.mpr fun hmem => ?_
  rw [List.map_map, List.contains_iff_mem] at hmem
  obtain ⟨d, hd, rfl⟩ := List.mem_map.mp hmem
  exact hp d hd rfl

theorem nodup_of_ordered {l : List String} (h : l.Pairwise fun p q => compare p q = .lt) :
    l.Nodup :=
  h.imp fun {p q} hlt heq => by
    subst heq
    simp at hlt

theorem tree_keys (pkg : Package env) : pkg.tree.keys = pkg.data.map Prod.fst := by
  have hmem : ∀ p, p ∈ pkg.tree.keys ↔ p ∈ pkg.data.map Prod.fst := by
    intro p
    rw [Std.ExtTreeMap.mem_keys, Std.ExtTreeMap.mem_iff_isSome_getElem?]
    by_cases hp : ∃ d ∈ pkg.data, d.1 = p
    · obtain ⟨d, hd, rfl⟩ := hp
      simp [tree_getElem? hd, List.mem_map_of_mem hd]
    · have hnone : ∀ d ∈ pkg.data, d.1 ≠ p := fun d hd he => hp ⟨d, hd, he⟩
      rw [tree_getElem?_none hnone]
      simpa using fun x hx => hnone (p, x) hx rfl
  have hkeys := Std.ExtTreeMap.ordered_keys (t := pkg.tree)
  have hperm : pkg.tree.keys.Perm (pkg.data.map Prod.fst) :=
    (List.perm_ext_iff_of_nodup (nodup_of_ordered hkeys) (nodup_of_ordered pkg.ordered)).mpr hmem
  refine hperm.eq_of_pairwise (fun a b _ _ hab hba => ?_) hkeys pkg.ordered
  exact absurd hba (Std.OrientedCmp.not_lt_of_lt hab)

theorem tree_isEmpty (pkg : Package env) : pkg.tree.isEmpty = false := by
  obtain ⟨d, hd, -⟩ := pkg.product
  refine Bool.eq_false_iff.mpr fun h => ?_
  have := tree_getElem? hd
  rw [Std.ExtTreeMap.isEmpty_iff.mp h] at this
  simp at this

/-! ## What staging can hold -/

/-- Finished files of the package, and copies of files that are not finished. -/
def Staged (pkg : Package env) (t : Tree) : Prop :=
  ∀ p b, t[p]? = some b →
    (∃ d ∈ pkg.data, d.1 = p ∧ b = d.2.content) ∨
      ∃ d ∈ pkg.data, copyingPath d.1 = p ∧ t[d.1]? = none

theorem staged_empty : Staged pkg ∅ := by
  intro p b h
  simp at h

theorem staged_tree : Staged pkg pkg.tree := by
  intro p b h
  by_cases hp : ∃ d ∈ pkg.data, d.1 = p
  · obtain ⟨d, hd, rfl⟩ := hp
    rw [tree_getElem? hd] at h
    exact .inl ⟨d, hd, rfl, (Option.some.inj h).symm⟩
  · rw [tree_getElem?_none fun d hd he => hp ⟨d, hd, he⟩] at h
    cases h

theorem Staged.content (h : Staged pkg t) {d : String × BackupEntry} (hd : d ∈ pkg.data)
    {b : Bytes} (hb : t[d.1]? = some b) : b = d.2.content := by
  rcases h d.1 b hb with ⟨d', hd', hpath, rfl⟩ | ⟨d', hd', hpath, -⟩
  · have := (tree_getElem? hd').symm.trans (hpath ▸ tree_getElem? hd)
    exact Option.some.inj this
  · exact absurd hpath (pkg.copying_fresh d' hd' d hd)

theorem Staged.eq_tree (h : Staged pkg t) (hall : ∀ d ∈ pkg.data, t[d.1]? ≠ none) :
    t = pkg.tree := by
  refine Std.ExtTreeMap.ext_getElem? fun p => ?_
  rcases hp : t[p]? with _ | b
  · refine (tree_getElem?_none fun d hd he => ?_).symm
    exact hall d hd (he ▸ hp)
  · rcases h p b hp with ⟨d, hd, rfl, rfl⟩ | ⟨d, hd, -, hnone⟩
    · rw [tree_getElem? hd]
    · exact absurd hnone (hall d hd)

section Copy

variable {d : String × BackupEntry}

theorem Staged.erase_copying (h : Staged pkg t) (hd : d ∈ pkg.data) :
    Staged pkg (t.erase (copyingPath d.1)) := by
  intro p b hb
  rw [getElem?_erase] at hb
  split at hb
  · cases hb
  · rcases h p b hb with hleft | ⟨d', hd', hp, hnone⟩
    · exact .inl hleft
    · refine .inr ⟨d', hd', hp, ?_⟩
      rw [getElem?_erase, if_neg (pkg.copying_fresh d hd d' hd'), hnone]

theorem Staged.insert_copying (h : Staged pkg t) (hd : d ∈ pkg.data) (hnone : t[d.1]? = none)
    (c : Bytes) : Staged pkg (t.insert (copyingPath d.1) c) := by
  have hother : ∀ d' ∈ pkg.data, (t.insert (copyingPath d.1) c)[d'.1]? = t[d'.1]? :=
    fun d' hd' => by rw [getElem?_insert, if_neg (pkg.copying_fresh d hd d' hd')]
  intro p b hb
  rw [getElem?_insert] at hb
  split at hb
  · next hp => exact .inr ⟨d, hd, hp, (hother d hd).trans hnone⟩
  · rcases h p b hb with hleft | ⟨d', hd', hp, hnone'⟩
    · exact .inl hleft
    · exact .inr ⟨d', hd', hp, (hother d' hd').trans hnone'⟩

theorem Staged.insert_target (h : Staged pkg t) (hd : d ∈ pkg.data) :
    Staged pkg ((t.erase (copyingPath d.1)).insert d.1 d.2.content) := by
  intro p b hb
  rw [getElem?_insert] at hb
  split at hb
  · next hp => exact .inl ⟨d, hd, hp, (Option.some.inj hb).symm⟩
  · rw [getElem?_erase] at hb
    split at hb
    · cases hb
    · next hcopying =>
      rcases h p b hb with hleft | ⟨d', hd', hp, hnone⟩
      · exact .inl hleft
      · refine .inr ⟨d', hd', hp, ?_⟩
        -- the file just finished is another one, or `p` would be its copy
        rw [getElem?_insert, if_neg fun he => hcopying (by rw [he, hp]), getElem?_erase,
          if_neg (pkg.copying_fresh d hd d' hd'), hnone]

end Copy

/-! ## Journals of this restore -/

/-- A journal record this restore of the package may have written. -/
structure JournalFor (pkg : Package env) (name : String) (p : BackupProgress) : Prop where
  operation : p.operation = .restore
  destinationName : p.destinationName = name
  session : p.sessionId = pkg.sessionId
  manifest : p.sourceManifestSha256 = some pkg.manifestHash
  required : p.requiredBytes = pkg.totalEntryBytes
  bytes : p.verifiedBytes ≤ pkg.totalEntryBytes
  objects : p.verifiedObjects ≤ maxBackupAssetObjects
  lastHash : p.lastVerifiedObjectHash.all (validLowerHex · 64) = true

variable {name : String} {p : BackupProgress}

theorem JournalFor.withPhase (h : JournalFor pkg name p)
    (phase : Phase) : JournalFor pkg name { p with phase } :=
  { h with }

theorem JournalFor.valid (h : JournalFor pkg name p)
    (hp : p.phase ∈ [Phase.prepared, .copied, .verified, .oldMoved, .newPublished, .complete]) :
    validateProgress p = true := by
  simp only [validateProgress, h.operation, h.session, h.manifest, h.required, pkg.session_hex,
    pkg.hash_hex, h.bytes, h.objects, h.lastHash, hp, decide_true, Bool.and_true, Option.any_some]

theorem data_sublist (entries : List BackupEntry) :
    List.Sublist ((dataEntries entries).map Prod.snd) entries := by
  induction entries with
  | nil => exact .slnil
  | cons e entries ih =>
    cases hp : stripData e.path with
    | none =>
      rw [dataEntries, List.filterMap_cons_none (by rw [hp]; rfl)]
      exact ih.cons e
    | some p =>
      rw [dataEntries, List.filterMap_cons_some (by rw [hp]; rfl)]
      exact ih.cons_cons e

theorem data_bytes_le (pkg : Package env) :
    (pkg.data.map fun d => d.2.size).sum ≤ pkg.totalEntryBytes := by
  have hsub := (data_sublist pkg.entries).map BackupEntry.size
  rw [List.map_map] at hsub
  rw [pkg.total]
  exact hsub.sum_le_sum fun _ _ => Nat.zero_le _

theorem data_objects_le (pkg : Package env) :
    pkg.data.countP (fun d => d.2.kind == .assetObject) ≤ maxBackupAssetObjects := by
  have hsub := (data_sublist pkg.entries).countP_le (p := fun e => e.kind == .assetObject)
  rw [List.countP_map] at hsub
  exact hsub.trans pkg.objects

theorem countEntry_ok (h : JournalFor pkg name p) {e : BackupEntry} (he : e ∈ pkg.entries)
    (hbytes : p.verifiedBytes + e.size ≤ pkg.totalEntryBytes)
    (hobjects : p.verifiedObjects + (if e.kind == .assetObject then 1 else 0) ≤
      maxBackupAssetObjects) :
    ∃ p', countEntry e p = .ok p' ∧ JournalFor pkg name p' ∧ p'.phase = p.phase ∧
      p'.replacedExisting = p.replacedExisting ∧ p'.verifiedBytes = p.verifiedBytes + e.size ∧
      p'.verifiedObjects = p.verifiedObjects + (if e.kind == .assetObject then 1 else 0) := by
  have hlt := pkg.total_lt
  rw [countEntry, if_pos (by omega)]
  by_cases hk : e.kind = .assetObject
  · rw [if_pos hk]
    refine ⟨_, rfl, { h with bytes := hbytes, objects := ?_, lastHash := ?_ }, rfl, rfl, rfl, ?_⟩
    · simpa [hk] using hobjects
    · simpa using pkg.entry_hex e he
    · simp [hk]
  · rw [if_neg hk]
    exact ⟨_, rfl, { h with bytes := hbytes }, rfl, rfl, rfl, by simp [hk]⟩

/-- The disk while files are being copied next to the destination `D`. -/
def Preparing (pkg : Package env) (name : String) (D : Option Tree) (d : Disk) : Prop :=
  ∃ j t, d = { journal := some j, destination := D, staging := some t, old := none } ∧
    JournalFor pkg name j ∧ j.phase = .prepared ∧ (D.isSome = true → j.replacedExisting = true) ∧
    Staged pkg t

/-! ## Programs over staging -/

section Specs

open Prog

variable {s : Schedule} {w : World Disk Event} {R : Stop BackupError → World Disk Event → Prop}

def Disk.withStaging (d : Disk) (t : Tree) : Disk := { d with staging := some t }

variable {during : Activity} {Q : Unit → World Disk Event → Prop} {d : String × BackupEntry}

theorem hashFile_wp {bytes : Bytes} {Q : String × Nat → World Disk Event → Prop}
    (hQ : ∀ w', w'.state = w.state → w'.trace = w.trace → Q (env.sha256 bytes, bytes.length) w')
    (hR : ∀ w', w'.state = w.state → w'.trace = w.trace ++ [.cancelled during] → s.Interrupts →
      R (.failed .cancelled) w') : wp s (hashFile env during bytes) Q R w := by
  simp only [hashFile, wp_bind]
  exact wp_heedTimes hQ hR

theorem stage_wp {f : Tree → Tree} {t : Tree} (ht : w.state.staging = some t)
    (hQ : ∀ w', w'.state = w.state.withStaging (f t) → Q () w')
    (hR : ∀ w', w'.state = w.state → s.Interrupts → R .crashed w') :
    wp s (stage f) Q R w := by
  simp only [stage, wp_act]
  refine ⟨fun h => hR _ rfl ⟨_, h⟩, fun _ => hQ _ ?_⟩
  simp [Disk.withStaging, ht]

theorem removeStagedFile_wp {path : String} {t : Tree} (ht : w.state.staging = some t)
    (hQ : ∀ w', w'.state = w.state.withStaging (t.erase path) → Q () w')
    (hR : ∀ w', w'.state = w.state → s.Interrupts → R .crashed w') :
    wp s (removeStagedFile path) Q R w := by
  simp only [removeStagedFile, stagedFile, wp_bind, wp_read, wp_when, ht, Option.bind_some]
  refine ⟨fun _ => stage_wp ht hQ hR, fun habsent => hQ w ?_⟩
  have hnone : t[path]? = none := by simpa using habsent
  rw [erase_of_none hnone, Disk.withStaging, ← ht]

theorem copyChunks_wp {path : String} {cs : List Bytes} {t : Tree} {c : Bytes}
    (ht : w.state.staging = some (t.insert path c))
    (hQ : ∀ w', w'.state = w.state.withStaging (t.insert path (c ++ cs.flatten)) → Q () w')
    (hR : ∀ e w' c', w'.state = w.state.withStaging (t.insert path c') → s.Interrupts → R e w') :
    wp s (copyChunks path cs) Q R w := by
  have hw : w.state = w.state.withStaging (t.insert path c) := by rw [Disk.withStaging, ← ht]
  induction cs generalizing w c with
  | nil =>
    simp only [copyChunks, wp_heed]
    refine ⟨fun h => hR _ _ c hw ⟨_, h⟩, fun _ => hQ _ ?_⟩
    simpa using hw
  | cons chunk cs ih =>
    simp only [copyChunks, wp_bind, wp_heed]
    refine ⟨fun h => hR _ _ c hw ⟨_, h⟩, fun _ => ?_⟩
    refine stage_wp ht (fun w' hw' => ?_) fun w' hw' => hR _ w' c (hw'.trans hw)
    have hgrown : ((t.insert path c)[path]?).getD [] ++ chunk = c ++ chunk := by
      rw [getElem?_insert, if_pos rfl, Option.getD_some]
    rw [hgrown, insert_insert] at hw'
    refine ih (c := c ++ chunk) (by rw [hw']; rfl) (fun w'' hw'' => hQ w'' ?_)
      (fun e w'' c' hw'' => hR e w'' c' ?_) (by rw [hw']; rfl)
    · rw [hw'', hw']
      simp [Disk.withStaging]
    · rw [hw'', hw']
      rfl

theorem copyVerified_wp (hd : d ∈ pkg.data) (ht : w.state.staging = some t) (hst : Staged pkg t)
    (hnone : t[d.1]? = none)
    (hQ : ∀ w', w'.state =
      w.state.withStaging ((t.erase (copyingPath d.1)).insert d.1 d.2.content) → Q () w')
    (hR : ∀ e w' t', w'.state = w.state.withStaging t' → Staged pkg t' → s.Interrupts → R e w') :
    wp s (copyVerified env d.2 d.1) Q R w := by
  have hw : w.state = w.state.withStaging t := by rw [Disk.withStaging, ← ht]
  have hsame : copyingPath d.1 ≠ d.1 := pkg.copying_fresh d hd d hd
  have hentry := mem_entries_of_data hd
  have herased := hst.erase_copying hd
  have hnone' : (t.erase (copyingPath d.1))[d.1]? = none := by
    rw [getElem?_erase, if_neg hsame, hnone]
  simp only [copyVerified, wp_bind]
  refine removeStagedFile_wp ht (fun w₁ hw₁ => ?_) fun w₁ hw₁ => hR _ w₁ t (hw₁.trans hw) hst
  refine stage_wp (t := t.erase (copyingPath d.1)) (by rw [hw₁]; rfl) (fun w₂ hw₂ => ?_)
    fun w₂ hw₂ => hR _ w₂ _ (hw₂.trans hw₁) herased
  rw [hw₁] at hw₂
  refine copyChunks_wp (t := t.erase (copyingPath d.1)) (c := []) (by rw [hw₂]; rfl)
    (fun w₃ hw₃ => ?_) fun e w₃ c hw₃ => ?_
  · rw [List.nil_append, chunks_flatten, hw₂] at hw₃
    have hcopy : (w₃.state.staging.bind fun t => t[copyingPath d.1]?) = some d.2.content := by
      rw [hw₃]
      show ((t.erase (copyingPath d.1)).insert (copyingPath d.1) d.2.content)[copyingPath d.1]? = _
      rw [getElem?_insert, if_pos rfl]
    simp only [stagedFile, wp_read, hcopy, Option.getD_some]
    have hstop : ∀ w', w'.state = w₃.state → s.Interrupts → ∀ e, R e w' := fun w' hw' hs e =>
      hR e w' _ (hw'.trans hw₃) (herased.insert_copying hd hnone' _) hs
    refine hashFile_wp (fun w₄ hw₄ _ => ?_) fun w₄ hw₄ _ hs => hstop w₄ hw₄ hs _
    rw [pkg.entry_hash d.2 hentry, pkg.entry_size d.2 hentry]
    simp only [ne_eq, not_true_eq_false, or_self, if_false]
    refine stage_wp (t := (t.erase (copyingPath d.1)).insert (copyingPath d.1) d.2.content)
      (by rw [hw₄, hw₃]; rfl) (fun w₅ hw₅ => hQ w₅ ?_) fun w₅ hw₅ hs => hstop w₅ (hw₅.trans hw₄) hs _
    rw [hw₅, hw₄, hw₃]
    rw [rename_copy]
    rfl
  · refine hR e w₃ _ ?_ (herased.insert_copying hd hnone' c)
    rw [hw₃, hw₂]
    rfl

theorem writeProgress_wp {event : Event} {p : BackupProgress} (hp : validateProgress p = true)
    (hQ : Q () (w.after event fun d => { d with journal := some p }))
    (hR : s.Interrupts → R .crashed w.tick) : wp s (writeProgress event p) Q R w := by
  simp only [writeProgress, wp_bind, wp_require, wp_act, hp, true_implies, not_true_eq_false,
    false_implies, and_true]
  exact ⟨fun h => hR ⟨_, h⟩, fun _ => hQ⟩

theorem notify_wp (hQ : Q () w.tick)
    (hR : s.Interrupts → R (.failed .cancelled) (w.after (.cancelled .announcing) id)) :
    wp s notify Q R w := by
  simp only [notify, wp_heed]
  exact ⟨fun h => hR ⟨_, h⟩, fun _ => hQ⟩

/-- A finished file is recognised, and nothing else is taken for one. -/
theorem alreadyValid_wp (hd : d ∈ pkg.data)
    {Q : Bool → World Disk Event → Prop} (ht : w.state.staging = some t) (hst : Staged pkg t)
    (hQ : ∀ w', w'.state = w.state → Q (t[d.1]?).isSome w')
    (hR : ∀ w', w'.state = w.state → s.Interrupts → R (.failed .cancelled) w') :
    wp s (alreadyValid env d.2 d.1) Q R w := by
  have hentry := mem_entries_of_data hd
  simp only [alreadyValid, stagedFile, wp_bind, wp_read, ht, Option.bind_some]
  cases hb : t[d.1]? with
  | none =>
    rw [hb] at hQ
    exact hQ w rfl
  | some b =>
    rw [hb] at hQ
    refine wp_bind.mpr (hashFile_wp (fun w' hw' _ => ?_) fun w' hw' _ => hR w' hw')
    rw [hst.content hd hb, pkg.entry_hash d.2 hentry, pkg.entry_size d.2 hentry]
    simpa using hQ w' hw'

theorem stageEntry_wp (hd : d ∈ pkg.data) (ht : w.state.staging = some t) (hst : Staged pkg t)
    (hQ : ∀ w' t', w'.state = w.state.withStaging t' → Staged pkg t' →
      (∀ d' ∈ pkg.data, t[d'.1]? ≠ none → t'[d'.1]? ≠ none) → t'[d.1]? ≠ none → Q () w')
    (hR : ∀ e w' t', w'.state = w.state.withStaging t' → Staged pkg t' → s.Interrupts → R e w') :
    wp s (stageEntry env d.2 d.1) Q R w := by
  have hw : w.state = w.state.withStaging t := by rw [Disk.withStaging, ← ht]
  simp only [stageEntry, wp_bind]
  refine alreadyValid_wp hd ht hst (fun w₁ hw₁ => ?_) fun w₁ hw₁ => hR _ w₁ t (hw₁.trans hw) hst
  rw [wp_when]
  refine ⟨fun hinvalid => ?_, fun hvalid => ?_⟩
  · have hnone : t[d.1]? = none :=
      Option.not_isSome_iff_eq_none.mp (Bool.eq_false_iff.mp hinvalid)
    refine wp_bind.mpr (removeStagedFile_wp (hw₁ ▸ ht) (fun w₂ hw₂ => ?_)
      fun w₂ hw₂ => hR _ w₂ t ((hw₂.trans hw₁).trans hw) hst)
    rw [erase_of_none hnone, hw₁] at hw₂
    refine copyVerified_wp hd (by rw [hw₂]; rfl) hst hnone (fun w₃ hw₃ => ?_)
      fun e w₃ t₃ hw₃ => hR e w₃ t₃ (by rw [hw₃, hw₂]; rfl)
    refine hQ w₃ _ (by rw [hw₃, hw₂]; rfl) (hst.insert_target hd) (fun d' hd' h => ?_) ?_
    · rw [getElem?_insert]
      split
      · simp
      · rwa [getElem?_erase, if_neg (pkg.copying_fresh d hd d' hd')]
    · rw [getElem?_insert, if_pos rfl]
      simp
  · refine hQ w₁ t (hw₁.trans hw) hst (fun _ _ h => h) fun hnone => hvalid ?_
    rw [hnone]
    rfl

theorem copyEntries_cons (target : String) (entry : BackupEntry)
    (l : List (String × BackupEntry)) (p : BackupProgress) :
    copyEntries env ((target, entry) :: l) p = (do
      stageEntry env entry target
      let p ← liftExcept (countEntry entry p)
      writeProgress .writeJournal p
      notify
      copyEntries env l p) := rfl

theorem copyEntries_wp {name : String} {D : Option Tree} {l : List (String × BackupEntry)}
    {j p : BackupProgress} {Q : BackupProgress → World Disk Event → Prop}
    (hl : ∀ d ∈ l, d ∈ pkg.data) (hbytes : p.verifiedBytes + (l.map fun d => d.2.size).sum ≤
      pkg.totalEntryBytes)
    (hobjects : p.verifiedObjects + l.countP (fun d => d.2.kind == .assetObject) ≤
      maxBackupAssetObjects)
    (hp : JournalFor pkg name p) (hphase : p.phase = .prepared)
    (hreplaced : D.isSome = true → p.replacedExisting = true)
    (hw : w.state = { journal := some j, destination := D, staging := some t, old := none })
    (hj : JournalFor pkg name j) (hjphase : j.phase = .prepared)
    (hjreplaced : D.isSome = true → j.replacedExisting = true) (hst : Staged pkg t)
    (hQ : ∀ p' w' j' t', JournalFor pkg name p' → p'.phase = .prepared →
      (D.isSome = true → p'.replacedExisting = true) →
      w'.state = { journal := some j', destination := D, staging := some t', old := none } →
      Preparing pkg name D w'.state → Staged pkg t' →
      (∀ d ∈ pkg.data, t[d.1]? ≠ none → t'[d.1]? ≠ none) → (∀ d ∈ l, t'[d.1]? ≠ none) → Q p' w')
    (hR : ∀ e w', Preparing pkg name D w'.state → s.Interrupts → R e w') :
    wp s (copyEntries env l p) Q R w := by
  induction l generalizing w j p t with
  | nil =>
    exact hQ p w j t hp hphase hreplaced hw ⟨j, t, hw, hj, hjphase, hjreplaced, hst⟩ hst
      (fun _ _ h => h) (by simp)
  | cons d l ih =>
    obtain ⟨target, entry⟩ := d
    have hd : (target, entry) ∈ pkg.data := hl _ List.mem_cons_self
    have he : entry ∈ pkg.entries := mem_entries_of_data hd
    have hprep : ∀ t', Staged pkg t' → Preparing pkg name D (w.state.withStaging t') :=
      fun t' ht' => ⟨j, t', by rw [hw]; rfl, hj, hjphase, hjreplaced, ht'⟩
    simp only [copyEntries_cons, wp_bind]
    refine stageEntry_wp hd (by rw [hw]) hst (fun w₂ t₂ hw₂ hst₂ hkept htarget => ?_)
      fun e w₂ t₂ hw₂ hst₂ => hR e w₂ (hw₂ ▸ hprep t₂ hst₂)
    simp only [List.map_cons, List.sum_cons, List.countP_cons] at hbytes hobjects
    obtain ⟨p', hcount, hp', hphase', hreplaced', hbytes', hobjects'⟩ :=
      countEntry_ok hp he (by omega) (by omega)
    rw [hcount]
    have hp'' : p'.phase = .prepared := hphase'.trans hphase
    refine writeProgress_wp (hp'.valid (by simp [hp''])) ?_ fun hs => ?_
    · have hw₃ : (w₂.after .writeJournal fun d => { d with journal := some p' }).state =
          { journal := some p', destination := D, staging := some t₂, old := none } := by
        rw [World.after_state, hw₂, hw]
        rfl
      have hr : D.isSome = true → p'.replacedExisting = true := fun h =>
        hreplaced'.trans (hreplaced h)
      refine notify_wp ?_ fun hs => hR _ _ ⟨p', t₂, hw₃, hp', hp'', hr, hst₂⟩ hs
      refine ih (fun d hd => hl d (List.mem_cons_of_mem _ hd)) (by omega) (by omega) hp' hp'' hr
        hw₃ hp' hp'' hr hst₂ fun q w' j' t' h₁ h₂ h₃ h₄ h₅ h₆ h₇ h₈ => ?_
      refine hQ q w' j' t' h₁ h₂ h₃ h₄ h₅ h₆ (fun d hd h => h₇ d hd (hkept d hd h)) fun d hmem => ?_
      rcases List.mem_cons.mp hmem with rfl | hmem
      · exact h₇ _ hd htarget
      · exact h₈ d hmem
    · refine hR _ _ ?_ hs
      rw [World.tick_state, hw₂]
      exact hprep t₂ hst₂

/-! ## Validation -/

/-- Why a validation of `root` failed: the observer asked for it, or `root` is not the
data tree. -/
def Refused (s : Schedule) (pkg : Package env) (during : Activity) (root : Option Tree)
    (w w' : World Disk Event) : Prop :=
  (w'.trace = w.trace ++ [.cancelled during] ∧ s.Interrupts) ∨ root ≠ some pkg.tree

theorem checkEntries_wp {root : Tree} {l : List (String × BackupEntry)} (hl : ∀ d ∈ l, d ∈ pkg.data)
    (hQ : ∀ w', w'.state = w.state → w'.trace = w.trace → Q () w')
    (hR : ∀ e w', w'.state = w.state → Refused s pkg during (some root) w w' →
      R (.failed e) w') : wp s (checkEntries env during root l) Q R w := by
  induction l generalizing w with
  | nil => exact hQ w rfl rfl
  | cons d l ih =>
    obtain ⟨path, entry⟩ := d
    have hd : (path, entry) ∈ pkg.data := hl _ List.mem_cons_self
    simp only [checkEntries, wp_bind, wp_heed]
    refine ⟨fun h => hR _ _ rfl (.inl ⟨rfl, ⟨_, h⟩⟩), fun _ => ?_⟩
    refine hashFile_wp (fun w₁ hw₁ htr₁ => ?_) fun w₁ hw₁ htr₁ hs => hR _ w₁ hw₁ (.inl ⟨htr₁, hs⟩)
    simp only [wp_require]
    refine ⟨fun _ => ?_, fun hdiffer => hR _ w₁ hw₁ (.inr fun he => hdiffer ?_)⟩
    · refine ih (fun d hd => hl d (List.mem_cons_of_mem _ hd))
        (fun w₂ hw₂ htr₂ => hQ w₂ (hw₂.trans hw₁) (htr₂.trans htr₁)) fun e w₂ hw₂ hrefused => ?_
      refine hR e w₂ (hw₂.trans hw₁) (hrefused.imp_left fun h => ⟨h.1.trans ?_, h.2⟩)
      rw [htr₁]
      rfl
    · rw [Option.some.inj he, tree_getElem? hd, Option.getD_some]
      have hentry := mem_entries_of_data hd
      exact ⟨pkg.entry_hash entry hentry, pkg.entry_size entry hentry⟩

theorem validateRestoredData_wp {root : Disk → Option Tree}
    (hQ : ∀ w', w'.state = w.state → (root w.state).isSome = true → Q () w')
    (hR : ∀ e w', w'.state = w.state → Refused s pkg during (root w.state) w w' →
      R (.failed e) w') : wp s (validateRestoredData pkg during root) Q R w := by
  have hcancel : ∀ w' : World Disk Event, w'.state = w.state → w'.trace = w.trace → s w'.clock = true →
      R (.failed .cancelled) (w'.after (.cancelled during) id) := fun w' hw' htr' h =>
    hR _ _ hw' (.inl ⟨by rw [World.after_trace, htr'], ⟨_, h⟩⟩)
  simp only [validateRestoredData, wp_bind, wp_heed, wp_read, World.tick_state]
  refine ⟨hcancel w rfl rfl, fun _ => ?_⟩
  cases hroot : root w.state with
  | none => exact hR _ _ rfl (.inr (by rw [hroot]; simp))
  | some tree =>
    rw [hroot] at hR hQ
    have hother : ∀ {e} {w' : World Disk Event}, w'.state = w.state → tree ≠ pkg.tree → R (.failed e) w' :=
      fun hw' hne => hR _ _ hw' (.inr fun he => hne (Option.some.inj he))
    simp only [wp_bind, wp_require, wp_heed]
    refine ⟨fun _ => ?_, fun hkeys => hother rfl fun he => hkeys (he ▸ tree_keys pkg)⟩
    refine checkEntries_wp (fun _ hd => hd) (fun w₁ hw₁ htr₁ => ?_) fun e w₁ hw₁ hrefused =>
      hR e w₁ hw₁ hrefused
    refine ⟨hcancel w₁ hw₁ htr₁, fun _ => ⟨fun _ => ⟨hcancel w₁.tick hw₁ htr₁, fun _ =>
      ⟨fun _ => hQ _ hw₁ rfl, fun hbad => hother hw₁ fun he => hbad ?_⟩⟩,
      fun hbad => hother hw₁ fun he => hbad ?_⟩⟩
    · obtain ⟨d, hd, hpath, hvalid⟩ := pkg.catalog
      rw [he, ← hpath, tree_getElem? hd]
      exact hvalid
    · obtain ⟨d, hd, hpath, hvalid⟩ := pkg.product
      rw [he, ← hpath, tree_getElem? hd]
      exact hvalid

theorem hashEntries_wp {l : List BackupEntry} (hl : ∀ e ∈ l, e ∈ pkg.entries)
    (hQ : ∀ w', w'.state = w.state → Q () w')
    (hR : ∀ w', w'.state = w.state → s.Interrupts → R (.failed .cancelled) w') :
    wp s (hashEntries env l) Q R w := by
  induction l generalizing w with
  | nil => exact hQ w rfl
  | cons entry l ih =>
    have he := hl entry List.mem_cons_self
    simp only [hashEntries, wp_bind]
    refine hashFile_wp (fun w₁ hw₁ _ => ?_) fun w₁ hw₁ _ => hR w₁ hw₁
    simp only [wp_require, pkg.entry_hash entry he, pkg.entry_size entry he, true_implies,
      not_true_eq_false, false_implies, and_true]
    exact ih (fun e h => hl e (List.mem_cons_of_mem _ h)) (fun w₂ hw₂ => hQ w₂ (hw₂.trans hw₁))
      fun w₂ hw₂ => hR w₂ (hw₂.trans hw₁)

theorem verifyPackageContents_wp (hQ : ∀ w', w'.state = w.state → Q () w')
    (hR : ∀ w', w'.state = w.state → s.Interrupts → R (.failed .cancelled) w') :
    wp s (verifyPackageContents pkg) Q R w := by
  simp only [verifyPackageContents, wp_bind]
  refine hashEntries_wp (fun _ h => h) (fun w₁ hw₁ => ?_) hR
  exact wp_heedTimes (fun w₂ hw₂ _ => hQ w₂ (hw₂.trans hw₁))
    fun w₂ hw₂ _ => hR w₂ (hw₂.trans hw₁)

end Specs

end Lorepia.Backup
