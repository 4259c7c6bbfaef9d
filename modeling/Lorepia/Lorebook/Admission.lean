import Lorepia.Lib.Budget
import Lorepia.Lorebook.Prices

/-!
# Which entries a prompt gets

The matched entries are admitted in their rank, as long as the text with its separators and
the reserved tokens stay within the limits; an entry that does not fit is passed over. The state
of the loop is determined by the entries admitted so far (`Admitted.of`), so the rules of
`Budget.fitting` apply (`admitEntries_eq`).
-/

namespace Lorepia.Lorebook

variable {ρ : Type} {T : Tools ρ} {catalog : LorebookCatalog} {request : SelectionRequest} {generation : Nat} {compiled : CompiledCatalog ρ} {entry : LoreEntry} {fingerprint : Digest} {selection : Selection}

/-! ## The loop -/

/-- The contents of entries with separators between them. -/
def SelectionSettings.join (settings : SelectionSettings) (entries : List LoreEntry) : String :=
  settings.separator.intercalate (entries.map (·.content))

def reserved (entries : List LoreEntry) : Nat := (entries.map (·.reservedTokens)).sum

def SelectionSettings.Holds (settings : SelectionSettings) (entries : List LoreEntry) : Prop :=
  (settings.join entries).utf8ByteSize ≤ settings.maxOutputBytes ∧
    reserved entries ≤ settings.maxOutputTokens

instance (settings : SelectionSettings) (entries : List LoreEntry) :
    Decidable (settings.Holds entries) :=
  inferInstanceAs (Decidable (_ ∧ _))

/-- What the loop has built up when these entries are admitted. -/
def Admitted.of (settings : SelectionSettings) (entries : List LoreEntry) : Admitted :=
  ⟨settings.join entries, entries.map (·.id), reserved entries⟩

/-- The entries the loop admits. -/
def admitted (settings : SelectionSettings) (matched : List LoreEntry) : List LoreEntry :=
  Budget.fitting (fun taken entry => settings.Holds (taken ++ [entry])) matched []

theorem Admitted.of_concat (settings : SelectionSettings) (taken : List LoreEntry) (entry : LoreEntry) :
    Admitted.of settings (taken ++ [entry]) =
      let a := Admitted.of settings taken
      ⟨a.promptText ++ (if a.selectedIds = [] then "" else settings.separator) ++ entry.content,
        a.selectedIds ++ [entry.id], a.selectedTokens + entry.reservedTokens⟩ := by
  have hjoin : settings.join (taken ++ [entry]) =
      settings.join taken ++ (if (Admitted.of settings taken).selectedIds = [] then ""
        else settings.separator) ++ entry.content := by
    unfold SelectionSettings.join Admitted.of
    by_cases htaken : taken = []
    · subst htaken
      simp
    · rw [List.map_append, String.intercalate_append_of_ne_nil (by simpa using htaken) (by simp)]
      simp [htaken]
  rw [Admitted.of, hjoin]
  simp [Admitted.of, reserved]

theorem admitEntries_eq (settings : SelectionSettings) (matched taken : List LoreEntry) :
    admitEntries settings matched (.of settings taken) =
      .of settings (Budget.fitting (fun taken entry => settings.Holds (taken ++ [entry])) matched
        taken) := by
  induction matched generalizing taken with
  | nil => rfl
  | cons entry rest ih =>
    have hnext := Admitted.of_concat settings taken entry
    rw [admitEntries, Budget.fitting]
    dsimp only at hnext
    generalize (if (Admitted.of settings taken).selectedIds = [] then "" else settings.separator) =
      separator at hnext ⊢
    -- the test of the loop is whether the entry fits
    split
    next hfull =>
      have hfits : ¬ settings.Holds (taken ++ [entry]) := by
        intro hholds
        have hbytes : (Admitted.of settings (taken ++ [entry])).promptText.utf8ByteSize ≤ _ := hholds.1
        have htokens : (Admitted.of settings (taken ++ [entry])).selectedTokens ≤ _ := hholds.2
        rw [hnext] at hbytes htokens
        simp only [String.utf8ByteSize_append] at hbytes htokens
        omega
      rw [if_neg hfits]
      exact ih taken
    next hroom =>
      have hfits : settings.Holds (taken ++ [entry]) := by
        show (Admitted.of settings (taken ++ [entry])).promptText.utf8ByteSize ≤ _ ∧
          (Admitted.of settings (taken ++ [entry])).selectedTokens ≤ _
        rw [hnext]
        simp only [String.utf8ByteSize_append]
        omega
      rw [if_pos hfits, ← ih, hnext]

/-! ## The rank is strict -/

theorem compareEntries_swap (left right : LoreEntry) :
    (compareEntries left right).swap = compareEntries right left := by
  simp only [compareEntries, Ordering.swap_then, ← Std.OrientedCmp.eq_swap]

theorem compareEntries_lt {left right : LoreEntry} (h : rankedBefore left right)
    (hid : left.id ≠ right.id) : compareEntries left right = .lt := by
  cases hcompare : compareEntries left right with
  | lt => rfl
  | gt => exact absurd hcompare h
  | eq =>
    refine absurd (id_eq_of_ranked h ?_) hid
    rw [rankedBefore, ← compareEntries_swap, hcompare]
    decide

theorem matched_ids (T : Tools ρ) (h : catalog.validate = .ok ())
    (request : SelectionRequest) : ((request.matched T catalog).map (·.id)).Nodup := by
  rw [SelectionRequest.matched, ((List.perm_insertionSort _ _).map _).nodup_iff]
  exact (LorebookCatalog.validate_ids h).sublist
    ((List.filter_sublist.trans List.filter_sublist).map _)

theorem matched_strict (T : Tools ρ) (h : catalog.validate = .ok ())
    (request : SelectionRequest) :
    (request.matched T catalog).Pairwise fun left right => compareEntries left right = .lt := by
  have hids := matched_ids T h request
  have hranked := List.pairwise_insertionSort rankedBefore
    (catalog.enabled.filter (LoreEntry.answer T request.searchText request.seed))
  exact hranked.imp₂ (fun _ _ h hid => compareEntries_lt h hid) (List.pairwise_map.mp hids)

theorem mem_matched
    :
    entry ∈ request.matched T catalog ↔
      entry ∈ catalog.enabled ∧ entry.answer T request.searchText request.seed = true := by
  rw [SelectionRequest.matched, List.mem_insertionSort, List.mem_filter]

/-! ## Selections -/

theorem selectUncached_ok
    (hcompiled : compileCatalog T catalog generation = .ok compiled)
   
    (h : selectUncached T compiled request (.build T request) fingerprint = .ok selection) :
    ∃ selected, selected = admitted request.settings (request.matched T catalog) ∧
      selection.promptText = request.settings.join selected ∧
      selection.receipt.selectedIds = selected.map (·.id) ∧
      selection.receipt.selectedTokens = reserved selected ∧
      selection.receipt.selectedBytes = selection.promptText.utf8ByteSize := by
  obtain ⟨found, hfound, h⟩ := except_bind_ok.mp h
  have hnaive := findMatches_eq_naiveFind hcompiled request
  rw [hfound] at hnaive
  obtain ⟨-, -, hmatched⟩ := naiveFind_ok.mp hnaive.symm
  have hloop := admitEntries_eq request.settings found.matched []
  cases h
  rw [← (Prod.mk.inj hmatched).1] at hloop ⊢
  refine ⟨_, rfl, ?_, ?_, ?_, rfl⟩
  · exact congrArg Admitted.promptText hloop
  · exact congrArg Admitted.selectedIds hloop
  · exact congrArg Admitted.selectedTokens hloop

theorem filter_before {before after earlier later : List LoreEntry}
    (hstrict : (before ++ entry :: after).Pairwise fun left right => compareEntries left right = .lt)
    (hearlier : earlier.Sublist before) (hlater : later.Sublist after) :
    (earlier ++ later).filter (compareEntries · entry = .lt) = earlier := by
  obtain ⟨-, hafter, hbefore⟩ := List.pairwise_append.mp hstrict
  rw [List.filter_append, List.filter_eq_self.mpr, List.filter_eq_nil_iff.mpr, List.append_nil]
  · intro other hother
    have hgt := List.rel_of_pairwise_cons hafter (hlater.subset hother)
    rw [← compareEntries_swap, hgt]
    decide
  · intro other hother
    exact decide_eq_true (hbefore other (hearlier.subset hother) entry List.mem_cons_self)

/-- What a selection admits: different matched entries in their rank, whose contents joined by
the separator are the prompt text, within the limits of the output. An entry that matches and
is not admitted exceeds a limit together with the entries admitted before it. -/
theorem selectUncached_admits {T : Tools ρ} {catalog : LorebookCatalog} {generation : Nat}
    {compiled : CompiledCatalog ρ} (hcompiled : compileCatalog T catalog generation = .ok compiled)
    {request : SelectionRequest} {fingerprint : Digest} {selection : Selection}
    (h : selectUncached T compiled request (.build T request) fingerprint = .ok selection) :
    ∃ selected : List LoreEntry,
      (∀ entry ∈ selected, entry ∈ catalog.enabled ∧
        entry.answer T request.searchText request.seed = true) ∧
      selected.Pairwise (fun left right => compareEntries left right = .lt) ∧
      selection.receipt.selectedIds = selected.map (·.id) ∧
      selection.receipt.selectedIds.Nodup ∧
      selection.promptText = request.settings.separator.intercalate (selected.map (·.content)) ∧
      selection.receipt.selectedBytes = selection.promptText.utf8ByteSize ∧
      selection.receipt.selectedTokens = (selected.map (·.reservedTokens)).sum ∧
      selection.receipt.selectedBytes ≤ request.settings.maxOutputBytes ∧
      selection.receipt.selectedTokens ≤ request.settings.maxOutputTokens ∧
      ∀ entry ∈ catalog.enabled, entry.answer T request.searchText request.seed = true →
        entry ∉ selected →
        let together := selected.filter (compareEntries · entry = .lt) ++ [entry]
        request.settings.maxOutputBytes <
            (request.settings.separator.intercalate (together.map (·.content))).utf8ByteSize ∨
          request.settings.maxOutputTokens < (together.map (·.reservedTokens)).sum := by
  have hvalid := (compileCatalog_ok hcompiled).1
  have hstrict := matched_strict T hvalid request
  obtain ⟨selected, heq, htext, hids, htokens, hbytes⟩ := selectUncached_ok hcompiled h
  have hsub : selected.Sublist (request.matched T catalog) := heq ▸ Budget.fitting_sublist _
  have hranked := hstrict.sublist hsub
  have hholds : request.settings.Holds selected := by
    rw [heq]
    refine Budget.fitting_keeps (fun _ _ _ hfits => hfits) _ ?_
    exact ⟨Nat.zero_le _, Nat.zero_le _⟩
  refine ⟨selected, fun entry hentry => mem_matched.mp (hsub.subset hentry), hranked, hids, ?_, htext,
    hbytes, htokens, ?_, ?_, ?_⟩
  · rw [hids]
    exact (matched_ids T hvalid request).sublist (hsub.map _)
  · rw [hbytes, htext]
    exact hholds.1
  · rw [htokens]
    exact hholds.2
  · intro entry henabled hanswer hnot
    obtain ⟨before, after, hsplit⟩ := List.append_of_mem (mem_matched.mpr ⟨henabled, hanswer⟩)
    rw [heq, admitted, hsplit] at hnot
    obtain ⟨earlier, later, hselected, hearlier, hlater, hfull⟩ := Budget.fitting_skipped hnot
    have hfilter := filter_before (hsplit ▸ hstrict) hearlier hlater
    rw [← hselected, ← hsplit, ← admitted, ← heq] at hfilter
    rw [hfilter]
    rw [SelectionSettings.Holds, not_and_or, Nat.not_le, Nat.not_le] at hfull
    exact hfull

/-- A request whose output has room for one of the two entries. -/
def tightRequest : SelectionRequest :=
  { knightRequest with settings := { knightRequest.settings with maxOutputBytes := 10 } }

theorem selectUncached_admits_tight : ∃ compiled selection,
    compileCatalog asciiTools knightCatalog 1 = .ok compiled ∧
      selectUncached asciiTools compiled tightRequest (.build asciiTools tightRequest)
        (Vector.replicate 32 0) = .ok selection ∧
      ∃ selected : List LoreEntry, selection.promptText = " ".intercalate (selected.map (·.content)) ∧
        selection.promptText.utf8ByteSize ≤ 10 := by
  obtain ⟨compiled, hcompiled⟩ := exists_ok_of_toBool
    (x := compileCatalog asciiTools knightCatalog 1) (by decide)
  have hnaive := (selectUncached_eq_naive hcompiled tightRequest (Vector.replicate 32 0)).2
  obtain ⟨outcome, houtcome⟩ := exists_ok_of_toBool
    (x := naiveSelect asciiTools knightCatalog tightRequest) (by decide)
  rw [houtcome] at hnaive
  obtain ⟨selection, hselection, -⟩ := except_map_ok.mp hnaive
  obtain ⟨selected, -, -, -, -, htext, hbytes, -, hlimit, -⟩ :=
    selectUncached_admits hcompiled hselection
  exact ⟨compiled, selection, hcompiled, hselection, selected, htext, hbytes ▸ hlimit⟩

end Lorepia.Lorebook
