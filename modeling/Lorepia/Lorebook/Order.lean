import Lorepia.Lorebook.Admission
import Lorepia.Lorebook.Cache

/-!
# The order of a catalog

The positions of entries appear in the indexes of a compiled catalog, and the limits are charged
in an order that depends on them. A selection does not: which catalogs compile is a matter of
their entries (`compileCatalog_succeeds`), a search succeeds when all prices together are within
the limits, and the rank of the entries is the same in every order.
-/

namespace Lorepia.Lorebook

variable {ρ : Type}

/-! ## Which catalogs compile -/

/-- A literal is not empty when it is normalised, a regular expression can be built. -/
def MatchCondition.Compiles (T : Tools ρ) : MatchCondition → Prop
  | literal value caseSensitive => normalizeSearchText T value caseSensitive ≠ ""
  | regex pattern _ caseInsensitive => ∃ r, T.buildRegex pattern caseInsensitive = some r

theorem exists_mapM_ok {α β ε : Type} {f : α → Except ε β} {l : List α}
    (h : ∀ a ∈ l, ∃ b, f a = .ok b) : ∃ l', l.mapM f = .ok l' := by
  induction l with
  | nil => exact ⟨[], rfl⟩
  | cons a rest ih =>
    obtain ⟨b, hb⟩ := h a List.mem_cons_self
    obtain ⟨l', hl'⟩ := ih fun a' ha' => h a' (List.mem_cons_of_mem _ ha')
    exact ⟨b :: l', by rw [List.mapM_cons, hb, hl']; rfl⟩

theorem collectCondition_succeeds {T : Tools ρ} {p : Patterns} {condition : MatchCondition} :
    (∃ p', collectCondition T p condition = .ok p') ↔
      (condition.pattern = none → condition.Compiles T) := by
  cases condition with
  | regex pattern requiredLiteral caseInsensitive => exact ⟨fun _ hnone => (nomatch hnone), fun _ => ⟨_, rfl⟩⟩
  | literal value caseSensitive =>
    constructor
    · rintro ⟨p', hp'⟩ -
      obtain ⟨_, hcheck, -⟩ := except_bind_ok.mp hp'
      have hnonempty := ensure_ok.mp hcheck
      exact hnonempty
    · intro hcompiles
      have hnonempty : normalizeSearchText T value caseSensitive ≠ "" := hcompiles rfl
      cases caseSensitive with
      | true => exact ⟨_, except_bind_ok.mpr ⟨⟨⟩, ensure_ok.mpr hnonempty, rfl⟩⟩
      | false => exact ⟨_, except_bind_ok.mpr ⟨⟨⟩, ensure_ok.mpr hnonempty, rfl⟩⟩

theorem collectConditions_succeeds {T : Tools ρ} {conditions : List MatchCondition} {p : Patterns} :
    (∃ p', collectConditions T conditions p = .ok p') ↔
      ∀ condition ∈ conditions, condition.pattern = none → condition.Compiles T := by
  induction conditions generalizing p with
  | nil => exact ⟨fun _ _ hmem => (nomatch hmem), fun _ => ⟨p, rfl⟩⟩
  | cons condition rest ih =>
    rw [List.forall_mem_cons]
    constructor
    · rintro ⟨p', hp'⟩
      obtain ⟨p₁, hp₁, hrest⟩ := except_bind_ok.mp hp'
      exact ⟨collectCondition_succeeds.mp ⟨p₁, hp₁⟩, ih.mp ⟨p', hrest⟩⟩
    · rintro ⟨hfirst, hrest⟩
      obtain ⟨p₁, hp₁⟩ := collectCondition_succeeds.mpr hfirst
      obtain ⟨p', hp'⟩ := (ih (p := p₁)).mpr hrest
      exact ⟨p', except_bind_ok.mpr ⟨p₁, hp₁, hp'⟩⟩

section
variable {T : Tools ρ} {sensitive folded : List String}

def MatchCondition.Known (T : Tools ρ) (sensitive folded : List String) (condition : MatchCondition) :
    Prop :=
  (∀ pattern ∈ condition.normalized T true, pattern ∈ sensitive) ∧
    ∀ pattern ∈ condition.normalized T false, pattern ∈ folded

theorem PatternIndex.exists_lookup {index : PatternIndex} {pattern : String}
    (h : pattern ∈ index.patterns) : ∃ i, index.lookup pattern = .ok i := by
  unfold PatternIndex.lookup
  cases hfind : index.patterns.findIdx? (· = pattern) with
  | some i => exact ⟨i, rfl⟩
  | none => exact absurd (List.findIdx?_eq_none_iff.mp hfind pattern h) (by simp)

variable (entryIndex : Nat) (indexes : PatternIndex × PatternIndex)

theorem exists_compileCondition {condition : MatchCondition} (hcompiles : condition.Compiles T)
    (hknown : condition.Known T indexes.1.patterns indexes.2.patterns) :
    ∃ compiled, compileCondition T entryIndex indexes.1 indexes.2 condition = .ok compiled := by
  cases condition with
  | literal value caseSensitive =>
    cases caseSensitive with
    | true =>
      obtain ⟨i, hi⟩ := PatternIndex.exists_lookup (hknown.1 _ rfl)
      exact ⟨_, except_bind_ok.mpr ⟨i, hi, rfl⟩⟩
    | false =>
      obtain ⟨i, hi⟩ := PatternIndex.exists_lookup (hknown.2 _ rfl)
      exact ⟨_, except_bind_ok.mpr ⟨i, hi, rfl⟩⟩
  | regex pattern requiredLiteral caseInsensitive =>
    obtain ⟨r, hr⟩ := hcompiles
    exact ⟨.regex r, by simp only [compileCondition, hr]⟩

theorem exists_compileConditions {conditions : MatchConditions}
    (h : ∀ condition ∈ conditionIter conditions, condition.Compiles T ∧
      condition.Known T indexes.1.patterns indexes.2.patterns) :
    ∃ compiled, compileConditions T entryIndex indexes.1 indexes.2 conditions = .ok compiled := by
  obtain ⟨primary, secondary⟩ := conditions
  have hmany : ∀ values : List MatchCondition,
      (∀ condition ∈ values, condition ∈ primary ++ secondary.values) →
      ∃ compiled, values.mapM (compileCondition T entryIndex indexes.1 indexes.2) = .ok compiled :=
    fun values hvalues => exists_mapM_ok fun condition hmem =>
      exists_compileCondition entryIndex indexes (h condition (hvalues condition hmem)).1
        (h condition (hvalues condition hmem)).2
  obtain ⟨compiledPrimary, hprimary⟩ := hmany primary fun _ hmem => List.mem_append_left _ hmem
  obtain ⟨compiledValues, hvalues⟩ := hmany secondary.values fun _ hmem => List.mem_append_right _ hmem
  cases secondary with
  | none => exact ⟨_, except_bind_ok.mpr ⟨_, hprimary, rfl⟩⟩
  | any values =>
    refine ⟨⟨compiledPrimary, .any compiledValues⟩, except_bind_ok.mpr ⟨_, hprimary, ?_⟩⟩
    exact except_bind_ok.mpr ⟨.any compiledValues, except_map_ok.mpr ⟨_, hvalues, rfl⟩, rfl⟩
  | all values =>
    refine ⟨⟨compiledPrimary, .all compiledValues⟩, except_bind_ok.mpr ⟨_, hprimary, ?_⟩⟩
    exact except_bind_ok.mpr ⟨.all compiledValues, except_map_ok.mpr ⟨_, hvalues, rfl⟩, rfl⟩

theorem exists_compileActivation {entry : LoreEntry}
    (h : ∀ condition ∈ entry.conditions, condition.Compiles T ∧
      condition.Known T indexes.1.patterns indexes.2.patterns) :
    ∃ compiled, compileActivation T entryIndex indexes.1 indexes.2 entry.activation = .ok compiled := by
  unfold LoreEntry.conditions at h
  cases hactivation : entry.activation with
  | constant => exact ⟨_, rfl⟩
  | selective conditions =>
    rw [hactivation] at h
    obtain ⟨compiled, hcompiled⟩ := exists_compileConditions entryIndex indexes h
    exact ⟨_, except_bind_ok.mpr ⟨compiled, hcompiled, rfl⟩⟩
  | probability basisPoints conditions =>
    cases conditions with
    | none => exact ⟨_, rfl⟩
    | some conditions =>
      rw [hactivation] at h
      obtain ⟨compiled, hcompiled⟩ := exists_compileConditions entryIndex indexes h
      exact ⟨_, except_bind_ok.mpr ⟨compiled, hcompiled, rfl⟩⟩

omit entryIndex indexes in
theorem exists_compileEntries {entries : List LoreEntry} {c : CompiledCatalog ρ}
    (hsized : c.sensitive.Sized ∧ c.folded.Sized)
    (h : ∀ entry ∈ entries, ∀ condition ∈ entry.conditions, condition.Compiles T ∧
      condition.Known T c.sensitive.patterns c.folded.patterns) :
    ∃ c', compileEntries T entries c = .ok c' := by
  induction entries generalizing c with
  | nil => exact ⟨c, rfl⟩
  | cons entry rest ih =>
    obtain ⟨activation, hactivation⟩ := exists_compileActivation c.entries.length (c.sensitive, c.folded)
      (h entry List.mem_cons_self)
    have hreg := registers c.entries.length activation.conditionIter (c.sensitive, c.folded) hsized
    have hknown : ∀ e ∈ rest, ∀ condition ∈ e.conditions, condition.Compiles T ∧ condition.Known T
        (registerCandidates c.entries.length activation.conditionIter (c.sensitive, c.folded)).1.patterns
        (registerCandidates c.entries.length activation.conditionIter (c.sensitive, c.folded)).2.patterns := by
      rw [hreg.patterns.1, hreg.patterns.2]
      exact fun e he => h e (List.mem_cons_of_mem _ he)
    obtain ⟨c', hc'⟩ := ih (c := ⟨c.revision, c.generation, _, _, _, _⟩) hreg.sized hknown
    exact ⟨c', except_bind_ok.mpr ⟨activation, hactivation, hc'⟩⟩

end

/-- The patterns of the regular expressions of the enabled entries. -/
def LorebookCatalog.regexPatterns (catalog : LorebookCatalog) : List String :=
  (catalog.enabled.flatMap LoreEntry.conditions).filterMap MatchCondition.pattern

theorem compileCatalog_succeeds {T : Tools ρ} {catalog : LorebookCatalog} {generation : Nat} :
    (∃ c, compileCatalog T catalog generation = .ok c) ↔
      catalog.validate = .ok () ∧
      (∀ condition ∈ catalog.enabled.flatMap LoreEntry.conditions, condition.Compiles T) ∧
      catalog.regexPatterns.length ≤ maxActiveRegexConditions ∧
      (catalog.regexPatterns.map String.utf8ByteSize).sum ≤ maxActiveRegexPatternBytes := by
  constructor
  · rintro ⟨c, h⟩
    obtain ⟨hvalid, q, hindexed, -⟩ := compileCatalog_ok h
    obtain ⟨_, -, h⟩ := except_bind_ok.mp h
    obtain ⟨p, hp, h⟩ := except_bind_ok.mp h
    obtain ⟨_, hconditions, h⟩ := except_bind_ok.mp h
    obtain ⟨_, hbytes, -⟩ := except_bind_ok.mp h
    have hcollects := collectConditions_ok hp
    rw [ensure_ok, hcollects.regexConditions, Nat.zero_add] at hconditions
    rw [ensure_ok, hcollects.regexBytes, Nat.zero_add] at hbytes
    refine ⟨hvalid, fun condition hmem => ?_, hconditions, hbytes⟩
    have hliteral := collectConditions_succeeds.mp ⟨p, hp⟩ condition hmem
    cases condition with
    | literal value caseSensitive => exact hliteral rfl
    | regex pattern requiredLiteral caseInsensitive =>
      -- it has been built for the compiled entry
      obtain ⟨entry, hentry, hmem⟩ := List.mem_flatMap.mp hmem
      obtain ⟨compiled, -, hrepresents⟩ := exists_of_forall₂_left hindexed.entries hentry
      obtain ⟨condition, -, hcondition⟩ := exists_of_forall₂_left hrepresents.iter hmem
      cases hcondition with
      | regex hbuilt => exact ⟨_, hbuilt⟩
  · rintro ⟨hvalid, hcompiles, hconditions, hbytes⟩
    obtain ⟨p, hp⟩ := (collectConditions_succeeds (p := ⟨[], [], 0, 0⟩)).mpr
      fun condition hmem _ => hcompiles condition hmem
    have hcollects := collectConditions_ok hp
    have hknown : ∀ entry ∈ catalog.enabled, ∀ condition ∈ entry.conditions,
        condition.Compiles T ∧ condition.Known T p.sensitive p.folded := by
      intro entry hentry condition hmem
      have hall := List.mem_flatMap.mpr ⟨entry, hentry, hmem⟩
      refine ⟨hcompiles condition hall, fun pattern hpattern => ?_, fun pattern hpattern => ?_⟩
      · exact (hcollects.sensitive pattern).mpr (.inr (List.mem_filterMap.mpr ⟨_, hall, hpattern⟩))
      · exact (hcollects.folded pattern).mpr (.inr (List.mem_filterMap.mpr ⟨_, hall, hpattern⟩))
    obtain ⟨c, hc⟩ := exists_compileEntries (c := ⟨catalog.revision, generation, [], .build p.sensitive,
      .build p.folded, []⟩) ⟨List.length_replicate, List.length_replicate⟩ hknown
    refine ⟨c, except_bind_ok.mpr ⟨(), hvalid, except_bind_ok.mpr ⟨p, hp, ?_⟩⟩⟩
    refine except_bind_ok.mpr ⟨⟨⟩, ensure_ok.mpr ?_, except_bind_ok.mpr ⟨⟨⟩, ensure_ok.mpr ?_, hc⟩⟩
    · rw [hcollects.regexConditions, Nat.zero_add]
      exact hconditions
    · rw [hcollects.regexBytes, Nat.zero_add]
      exact hbytes

/-! ## Candidates -/

def LoreEntry.candidate (T : Tools ρ) (text : String) (entry : LoreEntry) : Bool :=
  (activationConditions entry.activation).isNone ||
    entry.conditions.any fun condition => condition.pattern.isSome || condition.answer T text

theorem length_filter_range {α : Type} (p : α → Bool) (l : List α) :
    ((List.range l.length).filter fun k => (l[k]?.map p).getD false).length = (l.filter p).length := by
  induction l using List.reverseRecOn with
  | nil => rfl
  | append_singleton rest a ih =>
    have hsame : ∀ k ∈ List.range rest.length,
        (((rest ++ [a])[k]?.map p).getD false) = ((rest[k]?.map p).getD false) := by
      intro k hk
      rw [List.getElem?_append_left (List.mem_range.mp hk)]
    rw [List.length_append, List.length_singleton, List.range_succ, List.filter_append,
      List.filter_congr hsame, List.filter_append, List.length_append, List.length_append, ih]
    simp only [List.filter_singleton, List.getElem?_concat_length, Option.map_some, Option.getD_some]
    cases p a with
    | true => rfl
    | false => rfl

section
variable {T : Tools ρ} {sensitive folded : List String} {text : String} {hits : PatternHits}

theorem RepresentsEntry.candidate_iff {entry : LoreEntry} {compiled : CompiledEntry ρ}
    (h : RepresentsEntry T sensitive folded entry compiled)
    (hmarks : Marks T sensitive folded text hits) :
    entry.candidate T text = true ↔
      compiled.activation.unconditional = true ∨
        ∃ reference, .literal reference ∈ compiled.activation.conditionIter ∧
          hits.contains reference = true := by
  have hnone : (activationConditions entry.activation).isNone = compiled.activation.conditions.isNone := by
    obtain ⟨-, hactivation⟩ := h
    generalize entry.activation = activation, compiled.activation = compiled at hactivation ⊢
    cases hactivation with
    | constant => rfl
    | always => rfl
    | selective _ => rfl
    | probability _ => rfl
  have hany : (entry.conditions.any fun condition => condition.pattern.isSome || condition.answer T text) =
        true ↔
      compiled.activation.containsRegex = true ∨
        ∃ reference, .literal reference ∈ compiled.activation.conditionIter ∧
          hits.contains reference = true := by
    rw [List.any_eq_true, CompiledActivation.containsRegex, List.any_eq_true]
    constructor
    · rintro ⟨condition, hmem, hcondition⟩
      obtain ⟨c, hc, hrepresents⟩ := exists_of_forall₂_left h.iter hmem
      cases hrepresents with
      | regex _ => exact .inl ⟨_, hc, rfl⟩
      | literal hi => exact .inr ⟨_, hc, (hmarks _ _ _ hi).trans hcondition⟩
    · rintro (⟨c, hc, hregex⟩ | ⟨reference, hc, hhit⟩)
      · obtain ⟨condition, hmem, hrepresents⟩ := exists_of_forall₂_right h.iter hc
        cases hrepresents with
        | regex _ => exact ⟨_, hmem, rfl⟩
        | literal _ => cases hregex
      · obtain ⟨condition, hmem, hrepresents⟩ := exists_of_forall₂_right h.iter hc
        cases hrepresents with
        | literal hi => exact ⟨_, hmem, (hmarks _ _ _ hi).symm.trans hhit⟩
  rw [LoreEntry.candidate, Bool.or_eq_true, hnone, hany, CompiledActivation.unconditional,
    Bool.or_eq_true, or_assoc]

variable {entries : List LoreEntry} {c : CompiledCatalog ρ}

theorem contains_of_mentioned (h : Indexed T sensitive folded entries c) {k : Nat}
    (hk : k ∈ c.sensitive.mentioned hits.sensitive ∨ k ∈ c.folded.mentioned hits.folded) :
    ∃ entry, c.entries[k]? = some entry ∧ ∃ reference,
      .literal reference ∈ entry.activation.conditionIter ∧ hits.contains reference = true := by
  have hget : ∀ {β : Type} {l : List β} {i : Nat} {b d : β}, l[i]? = some b → l.getD i d = b := by
    intro β l i b d hi
    rw [List.getD_eq_getElem?_getD, hi, Option.getD_some]
  obtain ⟨reference, hhit, hmentions⟩ : ∃ reference, hits.contains reference = true ∧
      Mentions (c.sensitive, c.folded) reference k := by
    obtain hk | hk := hk
    · obtain ⟨i, hhit, list, hlist, hk⟩ := mem_mentioned.mp hk
      have hmem : k ∈ c.sensitive.candidateEntries.getD i [] := by rwa [hget hlist]
      exact ⟨⟨false, i⟩, hget hhit, hmem⟩
    · obtain ⟨i, hhit, list, hlist, hk⟩ := mem_mentioned.mp hk
      have hmem : k ∈ c.folded.candidateEntries.getD i [] := by rwa [hget hlist]
      exact ⟨⟨true, i⟩, hget hhit, hmem⟩
  obtain ⟨entry, hentry, hmem⟩ := h.mentioned reference k hmentions
  exact ⟨entry, hentry, reference, hmem, hhit⟩

theorem mem_candidates (h : Indexed T sensitive folded entries c)
    (hmarks : Marks T sensitive folded text hits) (k : Nat) :
    k ∈ c.candidates hits ↔
      (c.entries[k]?.map fun entry => entry.source.candidate T text).getD false = true := by
  rw [(candidates_spec h hits).2.2 k, mem_unconditional h]
  cases hentry : c.entries[k]? with
  | none =>
    have hle := List.getElem?_eq_none_iff.mp hentry
    simp only [Option.map_none, Option.getD_none, Bool.false_eq_true, iff_false]
    omega
  | some entry =>
    have hlt := (List.getElem?_eq_some_iff.mp hentry).1
    have hcandidate := (getElem_represents h hentry).candidate_iff hmarks
    simp only [Option.map_some, Option.getD_some, hcandidate, hlt, true_and]
    have hunconditional : c.unconditionalAt k = entry.activation.unconditional := by
      rw [CompiledCatalog.unconditionalAt, hentry, Option.map_some, Option.getD_some]
    rw [hunconditional]
    refine or_congr_right ⟨?_, ?_⟩
    · intro hmentioned
      obtain ⟨entry', hentry', hhit⟩ := contains_of_mentioned h hmentioned
      obtain rfl := Option.some.inj (hentry.symm.trans hentry')
      exact hhit
    · rintro ⟨reference, hmem, hhit⟩
      exact mentioned_of_contains h hits hentry hmem hhit

theorem length_candidates (h : Indexed T sensitive folded entries c)
    (hmarks : Marks T sensitive folded text hits) :
    (c.candidates hits).length = (entries.filter (LoreEntry.candidate T text)).length := by
  have hperm : (c.candidates hits).Perm ((List.range c.entries.length).filter fun k =>
      (c.entries[k]?.map fun entry => entry.source.candidate T text).getD false) := by
    refine (List.perm_ext_iff_of_nodup (candidates_spec h hits).1 (List.nodup_range.filter _)).mpr
      fun k => ?_
    rw [List.mem_filter, List.mem_range, mem_candidates h hmarks, iff_and_self]
    exact fun hk => candidates_lt h hits ((mem_candidates h hmarks k).mpr hk)
  rw [hperm.length_eq, length_filter_range, ← sources_eq h, List.filter_map, List.length_map]
  rfl

end

theorem findMatches_candidates {T : Tools ρ} {catalog : LorebookCatalog} {generation : Nat}
    {c : CompiledCatalog ρ} (hc : compileCatalog T catalog generation = .ok c)
    {request : SelectionRequest} {found : Found}
    (h : findMatches T c request (.build T request) = .ok found) :
    found.candidates.length =
      (catalog.enabled.filter (LoreEntry.candidate T request.searchText)).length := by
  obtain ⟨-, p, hindexed, -⟩ := compileCatalog_ok hc
  rw [findMatches_eq T c request (.build T request) rfl] at h
  obtain ⟨_, -, h⟩ := except_bind_ok.mp h
  obtain ⟨_, -, h⟩ := except_bind_ok.mp h
  obtain rfl := Except.ok.inj h
  simp only [SearchInput.build]
  exact length_candidates hindexed (marks_hits hindexed request.searchText)

/-! ## Another order -/

section
variable {T : Tools ρ} {catalog other : LorebookCatalog} (hrevision : catalog.revision = other.revision)
  (hperm : catalog.entries.Perm other.entries)
include hperm

theorem enabled_perm : catalog.enabled.Perm other.enabled := hperm.filter _

include hrevision in
theorem validate_perm (h : catalog.validate = .ok ()) : other.validate = .ok () := by
  rw [LorebookCatalog.validate_ok] at h ⊢
  obtain ⟨hnonzero, hlength, hvalid, hids, hbytes⟩ := h
  refine ⟨hrevision ▸ hnonzero, hperm.length_eq ▸ hlength, fun entry hentry => ?_, ?_, ?_⟩
  · exact hvalid entry (hperm.mem_iff.mpr hentry)
  · exact (hperm.map _).nodup_iff.mp hids
  · rwa [← (hperm.map _).sum_eq]

include hrevision in
theorem compileCatalog_perm {generation : Nat} {c : CompiledCatalog ρ}
    (h : compileCatalog T catalog generation = .ok c) : ∃ c', compileCatalog T other generation = .ok c' := by
  obtain ⟨hvalid, hcompiles, hconditions, hbytes⟩ := compileCatalog_succeeds.mp ⟨c, h⟩
  have hall := (enabled_perm hperm).flatMap_right LoreEntry.conditions
  have hpatterns : catalog.regexPatterns.Perm other.regexPatterns := hall.filterMap _
  refine compileCatalog_succeeds.mpr ⟨validate_perm hrevision hperm hvalid, fun condition hmem => ?_, ?_, ?_⟩
  · exact hcompiles condition (hall.mem_iff.mpr hmem)
  · rwa [← hpatterns.length_eq]
  · rwa [← (hpatterns.map _).sum_eq]

theorem literalEvents_perm (text : String) :
    literalEvents T catalog text = literalEvents T other text := by
  have hliterals : ∀ caseSensitive,
      (catalog.literals T caseSensitive).Perm (other.literals T caseSensitive) := fun caseSensitive =>
    (((enabled_perm hperm).flatMap_right LoreEntry.conditions).filterMap _).dedup
  rw [literalEvents, literalEvents, ((hliterals true).map _).sum_eq, ((hliterals false).map _).sum_eq]

theorem price_perm (request : SelectionRequest) : request.price T catalog = request.price T other :=
  ((enabled_perm hperm).map _).sum_eq

theorem matched_perm (hvalid : catalog.validate = .ok ()) (request : SelectionRequest) :
    request.matched T catalog = request.matched T other := by
  refine insertionSort_eq_of_perm (fun left hleft right hright hlr hrl => ?_)
    ((enabled_perm hperm).filter _)
  have hstored : ∀ {entry p}, entry ∈ catalog.enabled.filter p → entry ∈ catalog.entries :=
    fun hentry => List.mem_of_mem_filter (List.mem_of_mem_filter hentry)
  exact List.inj_on_of_nodup_map (LorebookCatalog.validate_ids hvalid) (hstored hleft) (hstored hright)
    (id_eq_of_ranked hlr hrl)

theorem findMatches_perm {generation : Nat} {c c' : CompiledCatalog ρ}
    (hc : compileCatalog T catalog generation = .ok c) (hc' : compileCatalog T other generation = .ok c')
    {request : SelectionRequest} {found : Found}
    (h : findMatches T c request (.build T request) = .ok found) :
    ∃ found', findMatches T c' request (.build T request) = .ok found' ∧
      found'.candidates.length = found.candidates.length ∧ found'.matched = found.matched ∧
      found'.literalEvents = found.literalEvents ∧ found'.limits = found.limits := by
  have hnaive := findMatches_eq_naiveFind hc request
  rw [h] at hnaive
  have hok := naiveFind_ok.mp hnaive.symm
  rw [literalEvents_perm hperm, price_perm hperm, matched_perm hperm (compileCatalog_ok hc).1] at hok
  have hnaive' := findMatches_eq_naiveFind hc' request
  rw [naiveFind_ok.mpr hok] at hnaive'
  obtain ⟨found', hfound', heq⟩ := except_map_ok.mp hnaive'
  obtain ⟨hmatched, hevents, hlimits⟩ : _ ∧ _ ∧ _ := by simpa only [Prod.mk.injEq] using heq
  refine ⟨found', hfound', ?_, hmatched, hevents, hlimits⟩
  rw [findMatches_candidates hc' hfound', findMatches_candidates hc h]
  exact ((enabled_perm hperm).filter _).length_eq.symm

include hrevision in
theorem uncachedSelection_of_perm {generation : Nat} {request : SelectionRequest} {selection : Selection}
    (h : uncachedSelection T catalog generation request = .ok selection) :
    uncachedSelection T other generation request = .ok selection := by
  obtain ⟨c, hc, h⟩ := except_bind_ok.mp h
  obtain ⟨_, hrequest, h⟩ := except_bind_ok.mp h
  obtain ⟨found, hfound, h⟩ := except_bind_ok.mp h
  obtain ⟨c', hc'⟩ := compileCatalog_perm hrevision hperm hc
  obtain ⟨found', hfound', hcandidates, hmatched, hevents, hlimits⟩ :=
    findMatches_perm hperm hc hc' hfound
  have hrevisions : c'.revision = c.revision := by
    rw [(compileCatalog_labels hc).1, (compileCatalog_labels hc').1, hrevision]
  have hkey : LorebookEngine.key T c' request = LorebookEngine.key T c request := by
    simp only [LorebookEngine.key, buildCacheKey, hrevisions, (compileCatalog_labels hc).2,
      (compileCatalog_labels hc').2]
  refine except_bind_ok.mpr ⟨c', hc', except_bind_ok.mpr ⟨_, hrequest, ?_⟩⟩
  refine except_bind_ok.mpr ⟨found', hfound', ?_⟩
  rw [hkey, hrevisions, hcandidates, hmatched, hevents, hlimits]
  exact h

end

/-- A selection does not depend on the order in which the entries of a catalog are stored. -/
theorem uncachedSelection_perm (T : Tools ρ) {catalog other : LorebookCatalog}
    (hrevision : catalog.revision = other.revision) (hperm : catalog.entries.Perm other.entries)
    (generation : Nat) (request : SelectionRequest) (selection : Selection) :
    uncachedSelection T catalog generation request = .ok selection ↔
      uncachedSelection T other generation request = .ok selection :=
  ⟨uncachedSelection_of_perm hrevision hperm, uncachedSelection_of_perm hrevision.symm hperm.symm⟩

def reversedCatalog : LorebookCatalog := ⟨knightCatalog.revision, knightCatalog.entries.reverse⟩

theorem uncachedSelection_perm_knight : ∃ selection,
    uncachedSelection asciiTools knightCatalog 1 knightRequest = .ok selection ∧
      uncachedSelection asciiTools reversedCatalog 1 knightRequest = .ok selection := by
  obtain ⟨selection, hselection⟩ := exists_ok_of_toBool
    (x := uncachedSelection asciiTools knightCatalog 1 knightRequest) (by decide)
  have hrevision : knightCatalog.revision = reversedCatalog.revision := rfl
  have hperm : knightCatalog.entries.Perm reversedCatalog.entries := (List.reverse_perm _).symm
  exact ⟨selection, hselection,
    (uncachedSelection_perm asciiTools hrevision hperm 1 knightRequest selection).mp hselection⟩

end Lorepia.Lorebook
