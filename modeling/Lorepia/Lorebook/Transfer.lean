import Lorepia.Lorebook.Cache

/-!
# Import and export of a catalog (`import.rs`)

An exported catalog is a JSON envelope around it. An import from elsewhere disables every entry,
so that an engine over it has nothing to match; a locally trusted import is the catalog itself.
-/

namespace Lorepia.Lorebook

variable {ρ : Type}

/-- The errors of an import or export: those of the catalog and its own. -/
inductive ImportError where
  | lorebook (error : LorebookError)
  | importSyntax
  | importSchema
  | unsupportedImportVersion
  | serialization
  deriving DecidableEq

def LorebookCatalog.disabled (catalog : LorebookCatalog) : LorebookCatalog :=
  { catalog with entries := catalog.entries.map fun entry => { entry with enabled := false } }

def emptyCompiled (revision : Nat) : CompiledCatalog ρ :=
  ⟨revision, 1, [], .build [], .build [], []⟩

theorem search_build_nil (haystack : String) (work : LiteralWork) :
    (PatternIndex.build []).search haystack work = .ok ([], work) := by
  have hnone : findOverlapping [] haystack = [] := List.flatMap_eq_nil_iff.mpr fun _ _ => rfl
  rw [PatternIndex.search, PatternIndex.build, hnone]
  rfl

theorem compute_empty (T : Tools ρ) (revision : Nat) (request : SelectionRequest) :
    ∃ selection, LorebookEngine.compute T (emptyCompiled revision) request = .ok selection ∧
      selection.promptText = "" := by
  have hfound : ∀ search : SearchInput, ∃ found,
      findMatches T (emptyCompiled revision) request search = .ok found ∧ found.matched = [] := by
    intro search
    simp only [findMatches, emptyCompiled, except_bind_ok]
    exact ⟨_, ⟨_, search_build_nil _ _, _, search_build_nil _ _, _, rfl, rfl⟩, rfl⟩
  obtain ⟨found, hfound, hmatched⟩ := hfound (.build T request)
  simp only [LorebookEngine.compute, selectUncached, except_bind_ok]
  refine ⟨_, ⟨found, hfound, rfl⟩, ?_⟩
  simp only [hmatched, admitEntries]

/-- An engine without entries that remembers empty prompts only. -/
structure LorebookEngine.Empty (engine : LorebookEngine ρ) : Prop where
  compiled : ∃ revision, engine.compiled = emptyCompiled revision
  cache : ∀ entry ∈ engine.cache, entry.2.promptText = ""

theorem LorebookEngine.Empty.select {T : Tools ρ} {engine : LorebookEngine ρ} (h : engine.Empty)
    (request : SelectionRequest) :
    (engine.select T request).2.Empty ∧ (request.validate = .ok () →
      ∃ selection, (engine.select T request).1 = .ok selection ∧ selection.promptText = "") := by
  obtain ⟨⟨revision, hcompiled⟩, hcache⟩ := h
  unfold LorebookEngine.select
  split
  next e hinvalid =>
    refine ⟨⟨⟨revision, hcompiled⟩, hcache⟩, fun hvalid => ?_⟩
    rw [hinvalid] at hvalid
    cases hvalid
  next =>
    obtain ⟨computed, hcompute, hprompt⟩ := compute_empty T revision request
    rw [← hcompiled] at hcompute
    obtain ⟨⟨remembered, selection, hresult, hselection⟩, htable⟩ :=
      Memo.memoized_forall (P := fun selection => selection.promptText = "") CacheKey.before
        maxCacheEntries (key T engine.compiled) hcache hcompute hprompt
    refine ⟨⟨⟨revision, hcompiled⟩, htable⟩, fun _ => ?_⟩
    dsimp only
    rw [hresult]
    refine ⟨_, rfl, ?_⟩
    cases remembered <;> exact hselection

end Lorepia.Lorebook
