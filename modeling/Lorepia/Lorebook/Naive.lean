import Mathlib
import Lorepia.Lorebook.Index

/-!
# What a selection means

Without an index a selection evaluates every enabled entry in the order of the catalog, a
literal by looking for it in the text (`naiveFind`, `naiveSelect`). The engine computes the
same: the entries it skips would not have matched and would have cost nothing, those that cost
something are looked at in the order of the catalog, and the rank of the matched entries does
not depend on the order in which they were found.
-/

namespace Lorepia.Lorebook

variable {ρ : Type}

/-! ## The naive reading -/

def literalHolds (T : Tools ρ) (text value : String) (caseSensitive : Bool) : Bool :=
  decide ((normalizeSearchText T value caseSensitive).toList <:+:
    (normalizeSearchText T text caseSensitive).toList)

def regexMatches (T : Tools ρ) (pattern : String) (caseInsensitive : Bool) (text : String) : Nat :=
  ((T.buildRegex pattern caseInsensitive).map fun regex => T.findIter regex text).getD 0

def MatchCondition.holds (T : Tools ρ) (text : String) : MatchCondition → Evaluation
  | literal value caseSensitive, limits => .ok (literalHolds T text value caseSensitive, limits)
  | regex pattern _ caseInsensitive, limits =>
    limits.evaluate (regexMatches T pattern caseInsensitive text) text

def MatchConditions.holds (T : Tools ρ) (text : String) (conditions : MatchConditions) : Evaluation :=
  fun limits => do
    let (held, limits) ← anyHolds (MatchCondition.holds T text) conditions.primary limits
    if held then
      match conditions.secondary with
      | .none => .ok (true, limits)
      | .any values => anyHolds (MatchCondition.holds T text) values limits
      | .all values => allHold (MatchCondition.holds T text) values limits
    else .ok (false, limits)

def LoreEntry.holds (T : Tools ρ) (text : String) (seed : UInt64) (entry : LoreEntry) : Evaluation :=
  fun limits =>
    match entry.activation with
    | .constant => .ok (true, limits)
    | .selective conditions => conditions.holds T text limits
    | .probability basisPoints none =>
      .ok (probabilityAdmits T seed entry.id.text basisPoints, limits)
    | .probability basisPoints (some conditions) => do
      let (held, limits) ← conditions.holds T text limits
      if held then .ok (probabilityAdmits T seed entry.id.text basisPoints, limits)
      else .ok (false, limits)

def LorebookCatalog.literals (T : Tools ρ) (catalog : LorebookCatalog) (caseSensitive : Bool) :
    List String :=
  ((catalog.enabled.flatMap LoreEntry.conditions).filterMap (·.normalized T caseSensitive)).dedup

def literalEvents (T : Tools ρ) (catalog : LorebookCatalog) (text : String) : Nat :=
  ((catalog.literals T true).map fun p => occurrences p (normalizeSearchText T text true)).sum +
    ((catalog.literals T false).map fun p => occurrences p (normalizeSearchText T text false)).sum

/-- The matched entries in their rank, the occurrences of literals, and the limits spent. -/
def naiveFind (T : Tools ρ) (catalog : LorebookCatalog) (request : SelectionRequest) :
    Except LorebookError (List LoreEntry × Nat × EvaluationLimits) := do
  let text := request.searchText
  ensure (literalEvents T catalog text ≤ request.settings.maxLiteralMatchEvents)
    (.searchLimitExceeded .literalMatchEvents)
  let (matched, limits) ← passing (LoreEntry.holds T text request.seed) catalog.enabled (.new request)
  .ok (matched.insertionSort rankedBefore, literalEvents T catalog text, limits)

/-- What a selection returns, apart from the revisions and fields about caching and indexing. -/
structure Outcome where
  promptText : String
  matchedCount : Nat
  selectedIds : List EntryId
  selectedTokens : Nat
  literalMatchEvents : Nat
  regexEvaluations : Nat
  regexScanBytes : Nat
  regexMatches : Nat
  deriving DecidableEq

def Selection.outcome (selection : Selection) : Outcome where
  promptText := selection.promptText
  matchedCount := selection.receipt.matchedCount
  selectedIds := selection.receipt.selectedIds
  selectedTokens := selection.receipt.selectedTokens
  literalMatchEvents := selection.receipt.literalMatchEvents
  regexEvaluations := selection.receipt.regexEvaluations
  regexScanBytes := selection.receipt.regexScanBytes
  regexMatches := selection.receipt.regexMatches

def naiveSelect (T : Tools ρ) (catalog : LorebookCatalog) (request : SelectionRequest) :
    Except LorebookError Outcome := do
  let (matched, events, limits) ← naiveFind T catalog request
  let admitted := admitEntries request.settings matched ⟨"", [], 0⟩
  .ok {
    promptText := admitted.promptText
    matchedCount := matched.length
    selectedIds := admitted.selectedIds
    selectedTokens := admitted.selectedTokens
    literalMatchEvents := events
    regexEvaluations := limits.evaluations
    regexScanBytes := limits.scanBytes
    regexMatches := limits.matchCount }

/-! ## The rank -/

def LoreEntry.rank (entry : LoreEntry) : Int ×ₗ Int ×ₗ Int ×ₗ String :=
  toLex (-entry.priority, toLex (-(entry.source.precedence : Int),
    toLex (entry.order, entry.id.text)))

theorem then_ne_gt {a b : Ordering} : a.then b ≠ .gt ↔ a = .lt ∨ a = .eq ∧ b ≠ .gt := by
  cases a <;> cases b <;> decide

theorem rankedBefore_iff {left right : LoreEntry} :
    rankedBefore left right ↔ left.rank ≤ right.rank := by
  simp only [rankedBefore, compareEntries, then_ne_gt, LoreEntry.rank, Prod.Lex.toLex_le_toLex,
    compare_lt_iff_lt, compare_eq_iff_eq, neg_lt_neg_iff, neg_inj, Nat.cast_lt, Nat.cast_inj,
    compare_gt_iff_gt, not_lt, ne_eq]
  constructor <;> grind

instance : IsTrans LoreEntry rankedBefore :=
  ⟨fun _ _ _ h₁ h₂ => rankedBefore_iff.mpr ((rankedBefore_iff.mp h₁).trans (rankedBefore_iff.mp h₂))⟩

instance : Std.Total rankedBefore :=
  ⟨fun a b => by simpa only [rankedBefore_iff] using le_total a.rank b.rank⟩

theorem id_eq_of_ranked {left right : LoreEntry} (h : rankedBefore left right)
    (h' : rankedBefore right left) : left.id = right.id := by
  have heq := le_antisymm (rankedBefore_iff.mp h) (rankedBefore_iff.mp h')
  have htext : left.id.text = right.id.text := by
    simp only [LoreEntry.rank, EmbeddingLike.apply_eq_iff_eq, Prod.mk.injEq] at heq
    exact heq.2.2.2
  cases hleft : left.id
  cases hright : right.id
  simp only [hleft, hright] at htext
  subst htext
  rfl

/-! ## Compiled conditions mean their sources -/

section
variable {α β : Type} {f : α → Evaluation} {g : β → Evaluation}

theorem anyHolds_congr {l : List α} {l' : List β} (h : List.Forall₂ (fun a b => f a = g b) l l')
    (limits : EvaluationLimits) : anyHolds f l limits = anyHolds g l' limits := by
  induction h generalizing limits with
  | nil => rfl
  | cons hfirst _ ih =>
    simp only [anyHolds, hfirst]
    congr 1
    funext r
    rw [ih]

theorem allHold_congr {l : List α} {l' : List β} (h : List.Forall₂ (fun a b => f a = g b) l l')
    (limits : EvaluationLimits) : allHold f l limits = allHold g l' limits := by
  induction h generalizing limits with
  | nil => rfl
  | cons hfirst _ ih =>
    simp only [allHold, hfirst]
    congr 1
    funext r
    rw [ih]

end

def Marks (T : Tools ρ) (sensitive folded : List String) (text : String) (hits : PatternHits) : Prop :=
  ∀ (caseSensitive : Bool) (i : Nat) p, (if caseSensitive then sensitive else folded)[i]? = some p →
    hits.contains ⟨!caseSensitive, i⟩ =
      decide (p.toList <:+: (normalizeSearchText T text caseSensitive).toList)

section
variable {T : Tools ρ} {sensitive folded : List String} {text : String} {hits : PatternHits}

theorem Represents.holds_eq {condition : MatchCondition} {compiled : CompiledCondition ρ}
    (h : Represents T sensitive folded condition compiled) (hmarks : Marks T sensitive folded text hits) :
    compiled.holds T hits text = condition.holds T text := by
  funext limits
  cases h with
  | @literal value caseSensitive i hi =>
    simp only [CompiledCondition.holds, MatchCondition.holds, literalHolds, hmarks _ _ _ hi]
  | @regex pattern _ caseInsensitive r hr =>
    simp only [CompiledCondition.holds, MatchCondition.holds, regexMatches, hr, Option.map_some,
      Option.getD_some]

theorem RepresentsConditions.holds_eq {conditions : MatchConditions} {compiled : CompiledConditions ρ}
    (h : RepresentsConditions T sensitive folded conditions compiled)
    (hmarks : Marks T sensitive folded text hits) :
    compiled.holds T hits text = conditions.holds T text := by
  have hmany : ∀ {values : List MatchCondition} {compiled : List (CompiledCondition ρ)},
      List.Forall₂ (Represents T sensitive folded) values compiled →
      List.Forall₂ (fun c v => CompiledCondition.holds T hits text c = MatchCondition.holds T text v)
        compiled values :=
    fun h => (h.imp fun _ _ hone => hone.holds_eq hmarks).flip
  obtain ⟨primary, secondary⟩ := conditions
  obtain ⟨compiledPrimary, compiledSecondary⟩ := compiled
  obtain ⟨hprimary, hsecondary⟩ := h
  funext limits
  simp only [CompiledConditions.holds, MatchConditions.holds, anyHolds_congr (hmany hprimary)]
  cases hsecondary with
  | none => rfl
  | any hvalues => simp only [anyHolds_congr (hmany hvalues)]
  | all hvalues => simp only [allHold_congr (hmany hvalues)]

theorem RepresentsEntry.holds_eq {entry : LoreEntry} {compiled : CompiledEntry ρ}
    (h : RepresentsEntry T sensitive folded entry compiled)
    (hmarks : Marks T sensitive folded text hits) (seed : UInt64) :
    compiled.activation.holds T compiled.source hits text seed = entry.holds T text seed := by
  obtain ⟨source, activation⟩ := compiled
  obtain ⟨rfl, hactivation⟩ := h
  funext limits
  unfold LoreEntry.holds
  generalize source.activation = a at hactivation
  cases hactivation with
  | constant => rfl
  | always => rfl
  | selective h => simp only [CompiledActivation.holds, h.holds_eq hmarks]
  | probability h => simp only [CompiledActivation.holds, h.holds_eq hmarks]

end

/-! ## What an evaluation answers -/

section
variable {α : Type} {holds : α → Evaluation} {answer : α → Bool}

theorem answers_anyHolds {l : List α} (h : ∀ a ∈ l, Answers holds a (answer a)) :
    Answers (anyHolds holds) l (l.any answer) := by
  intro limits b limits' hok
  induction l generalizing limits with
  | nil =>
    cases hok
    rfl
  | cons a rest ih =>
    obtain ⟨⟨held, limits₁⟩, hfirst, hok⟩ := except_bind_ok.mp hok
    have hheld := h a List.mem_cons_self _ _ _ hfirst
    rw [List.any_cons, ← hheld]
    cases held with
    | true =>
      cases hok
      rfl
    | false => exact ih (fun a' ha' => h a' (List.mem_cons_of_mem _ ha')) limits₁ hok

theorem answers_allHold {l : List α} (h : ∀ a ∈ l, Answers holds a (answer a)) :
    Answers (allHold holds) l (l.all answer) := by
  intro limits b limits' hok
  induction l generalizing limits with
  | nil =>
    cases hok
    rfl
  | cons a rest ih =>
    obtain ⟨⟨held, limits₁⟩, hfirst, hok⟩ := except_bind_ok.mp hok
    have hheld := h a List.mem_cons_self _ _ _ hfirst
    rw [List.all_cons, ← hheld]
    cases held with
    | false =>
      cases hok
      rfl
    | true => exact ih (fun a' ha' => h a' (List.mem_cons_of_mem _ ha')) limits₁ hok

theorem free_anyHolds {l : List α} (h : ∀ a ∈ l, Free holds a) : Free (anyHolds holds) l := by
  induction l with
  | nil => exact ⟨false, fun _ => rfl⟩
  | cons a rest ih =>
    obtain ⟨b, hb⟩ := h a List.mem_cons_self
    obtain ⟨b', hb'⟩ := ih fun a' ha' => h a' (List.mem_cons_of_mem _ ha')
    cases b with
    | true => exact ⟨true, fun limits => by simp only [anyHolds, hb limits]; rfl⟩
    | false => exact ⟨b', fun limits => by simp only [anyHolds, hb limits]; exact hb' limits⟩

theorem free_allHold {l : List α} (h : ∀ a ∈ l, Free holds a) : Free (allHold holds) l := by
  induction l with
  | nil => exact ⟨true, fun _ => rfl⟩
  | cons a rest ih =>
    obtain ⟨b, hb⟩ := h a List.mem_cons_self
    obtain ⟨b', hb'⟩ := ih fun a' ha' => h a' (List.mem_cons_of_mem _ ha')
    cases b with
    | false => exact ⟨false, fun limits => by simp only [allHold, hb limits]; rfl⟩
    | true => exact ⟨b', fun limits => by simp only [allHold, hb limits]; exact hb' limits⟩

end

section
variable (T : Tools ρ) (hits : PatternHits) (input : String)

def CompiledCondition.answer : CompiledCondition ρ → Bool
  | literal reference => hits.contains reference
  | regex r => decide (T.findIter r input ≠ 0)

def CompiledConditions.answer (conditions : CompiledConditions ρ) : Bool :=
  conditions.primary.any (CompiledCondition.answer T hits input) &&
    match conditions.secondary with
    | .none => true
    | .any values => values.any (CompiledCondition.answer T hits input)
    | .all values => values.all (CompiledCondition.answer T hits input)

def CompiledEntry.answer (seed : UInt64) (entry : CompiledEntry ρ) : Bool :=
  match entry.activation with
  | .constant => true
  | .selective conditions => conditions.answer T hits input
  | .probability basisPoints none => probabilityAdmits T seed entry.source.id.text basisPoints
  | .probability basisPoints (some conditions) =>
    conditions.answer T hits input && probabilityAdmits T seed entry.source.id.text basisPoints

variable {T hits input}

theorem CompiledCondition.answers (condition : CompiledCondition ρ) :
    Answers (CompiledCondition.holds T hits input) condition (condition.answer T hits input) := by
  intro limits b limits' hok
  cases condition with
  | literal reference =>
    cases hok
    rfl
  | regex r =>
    obtain ⟨_, _, hok⟩ := except_bind_ok.mp hok
    obtain ⟨_, _, hok⟩ := except_bind_ok.mp hok
    obtain ⟨_, _, hok⟩ := except_bind_ok.mp hok
    cases hok
    rfl

theorem CompiledConditions.answers (conditions : CompiledConditions ρ) :
    Answers (CompiledConditions.holds T hits input) conditions (conditions.answer T hits input) := by
  intro limits b limits' hok
  obtain ⟨primary, secondary⟩ := conditions
  obtain ⟨⟨held, limits₁⟩, hprimary, hok⟩ := except_bind_ok.mp hok
  have hheld := answers_anyHolds (fun c _ => CompiledCondition.answers c) _ _ _ hprimary
  simp only [CompiledConditions.answer, ← hheld]
  cases held with
  | false =>
    cases hok
    rfl
  | true =>
    cases secondary with
    | none =>
      cases hok
      rfl
    | any values => exact answers_anyHolds (fun c _ => CompiledCondition.answers c) _ _ _ hok
    | all values => exact answers_allHold (fun c _ => CompiledCondition.answers c) _ _ _ hok

theorem CompiledEntry.answers (seed : UInt64) (entry : CompiledEntry ρ) :
    Answers (fun entry : CompiledEntry ρ => entry.activation.holds T entry.source hits input seed)
      entry (entry.answer T hits input seed) := by
  intro limits b limits' hok
  obtain ⟨source, activation⟩ := entry
  cases activation with
  | constant =>
    cases hok
    rfl
  | selective conditions => exact conditions.answers _ _ _ hok
  | probability basisPoints conditions =>
    cases conditions with
    | none =>
      cases hok
      rfl
    | some conditions =>
      obtain ⟨⟨held, limits₁⟩, hconditions, hok⟩ := except_bind_ok.mp hok
      have hheld := conditions.answers _ _ _ hconditions
      simp only [CompiledEntry.answer, ← hheld]
      cases held with
      | false =>
        cases hok
        rfl
      | true =>
        cases hok
        rfl

theorem CompiledCondition.free {condition : CompiledCondition ρ} (h : condition.isRegex = false) :
    Free (CompiledCondition.holds T hits input) condition := by
  cases condition with
  | literal reference => exact ⟨hits.contains reference, fun _ => rfl⟩
  | regex r => cases h

theorem CompiledConditions.free {conditions : CompiledConditions ρ}
    (h : ∀ c ∈ conditions.primary ++ conditions.secondary.values, c.isRegex = false) :
    Free (CompiledConditions.holds T hits input) conditions := by
  obtain ⟨primary, secondary⟩ := conditions
  have hfree : ∀ c ∈ primary ++ secondary.values, Free (CompiledCondition.holds T hits input) c :=
    fun c hc => CompiledCondition.free (h c hc)
  obtain ⟨b, hb⟩ := free_anyHolds fun c hc => hfree c (List.mem_append_left _ hc)
  unfold CompiledConditions.holds
  cases b with
  | false => exact ⟨false, fun limits => by simp only [hb limits]; rfl⟩
  | true =>
    have hsecond : ∀ c ∈ secondary.values, Free (CompiledCondition.holds T hits input) c :=
      fun c hc => hfree c (List.mem_append_right _ hc)
    cases secondary with
    | none => exact ⟨true, fun limits => by simp only [hb limits]; rfl⟩
    | any values =>
      obtain ⟨b', hb'⟩ := free_anyHolds hsecond
      exact ⟨b', fun limits => by simp only [hb limits]; exact hb' limits⟩
    | all values =>
      obtain ⟨b', hb'⟩ := free_allHold hsecond
      exact ⟨b', fun limits => by simp only [hb limits]; exact hb' limits⟩

theorem not_unconditional {activation : CompiledActivation ρ} (h : activation.unconditional = false) :
    ∃ conditions, activation.conditions = some conditions ∧
      ∀ c ∈ conditions.primary ++ conditions.secondary.values, c.isRegex = false := by
  obtain ⟨hsome, hregex⟩ := Bool.or_eq_false_iff.mp h
  cases hconditions : activation.conditions with
  | none =>
    rw [hconditions] at hsome
    cases hsome
  | some conditions =>
    refine ⟨conditions, rfl, fun c hc => ?_⟩
    have hnone := List.any_eq_false.mp hregex c
    rw [CompiledActivation.conditionIter, hconditions] at hnone
    simpa using hnone hc

theorem CompiledEntry.free (seed : UInt64) {entry : CompiledEntry ρ}
    (h : entry.activation.unconditional = false) :
    Free (fun entry : CompiledEntry ρ => entry.activation.holds T entry.source hits input seed)
      entry := by
  obtain ⟨source, activation⟩ := entry
  obtain ⟨conditions, hconditions, hregex⟩ := not_unconditional h
  have hfree : Free (CompiledConditions.holds T hits input) conditions :=
    CompiledConditions.free hregex
  obtain ⟨b, hb⟩ := hfree
  cases activation with
  | constant => cases hconditions
  | selective _ =>
    cases hconditions
    exact ⟨b, hb⟩
  | probability basisPoints _ =>
    cases hconditions
    cases b with
    | false => exact ⟨false, fun limits => by simp only [CompiledActivation.holds, hb limits]; rfl⟩
    | true => exact ⟨_, fun limits => by simp only [CompiledActivation.holds, hb limits]; rfl⟩

theorem CompiledEntry.answer_eq_false (seed : UInt64) {entry : CompiledEntry ρ}
    (h : entry.activation.unconditional = false)
    (hnone : ∀ reference, .literal reference ∈ entry.activation.conditionIter →
      hits.contains reference = false) :
    entry.answer T hits input seed = false := by
  obtain ⟨source, activation⟩ := entry
  obtain ⟨conditions, hconditions, hregex⟩ := not_unconditional h
  have hprimary : conditions.primary.any (CompiledCondition.answer T hits input) = false := by
    refine List.any_eq_false.mpr fun c hc => ?_
    have hmem := List.mem_append_left conditions.secondary.values hc
    cases c with
    | regex r => cases hregex _ hmem
    | literal reference =>
      have hiter : .literal reference ∈ activation.conditionIter := by
        rw [CompiledActivation.conditionIter, hconditions]
        exact hmem
      simp [CompiledCondition.answer, hnone reference hiter]
  cases activation with
  | constant => cases hconditions
  | selective _ =>
    cases hconditions
    simp [CompiledEntry.answer, CompiledConditions.answer, hprimary]
  | probability basisPoints _ =>
    cases hconditions
    simp [CompiledEntry.answer, CompiledConditions.answer, hprimary]

end

/-! ## The engine computes the naive reading -/

section
variable {T : Tools ρ} {sensitive folded : List String} {entries : List LoreEntry}
  {c : CompiledCatalog ρ} (h : Indexed T sensitive folded entries c)
  (hits : PatternHits) (text : String) (seed : UInt64)

def CompiledCatalog.answerAt (c : CompiledCatalog ρ) (T : Tools ρ) (hits : PatternHits) (text : String)
    (seed : UInt64) (k : Nat) : Bool :=
  (c.entries[k]?.map fun entry => entry.answer T hits text seed).getD false

theorem answers_entryHolds (k : Nat) :
    Answers (c.entryHolds T hits text seed) k (c.answerAt T hits text seed k) := by
  intro limits b limits' hok
  unfold CompiledCatalog.entryHolds at hok
  unfold CompiledCatalog.answerAt
  cases hk : c.entries[k]? with
  | none =>
    rw [hk] at hok
    cases hok
    rfl
  | some entry =>
    rw [hk] at hok
    exact entry.answers seed _ _ _ hok

theorem free_entryHolds {k : Nat} (hk : c.unconditionalAt k = false) :
    Free (c.entryHolds T hits text seed) k := by
  unfold CompiledCatalog.unconditionalAt at hk
  unfold CompiledCatalog.entryHolds
  cases hentry : c.entries[k]? with
  | none => exact ⟨false, fun limits => by simp only [hentry]⟩
  | some entry =>
    rw [hentry] at hk
    obtain ⟨b, hb⟩ : Free (fun entry : CompiledEntry ρ =>
      entry.activation.holds T entry.source hits text seed) entry := CompiledEntry.free seed hk
    exact ⟨b, fun limits => by simp only [hentry]; exact hb limits⟩

include h

theorem mem_unconditional {k : Nat} :
    k ∈ c.unconditional ↔ k < c.entries.length ∧ c.unconditionalAt k = true := by
  rw [h.unconditional, List.mem_filter, List.mem_range]

theorem mentioned_of_contains {k : Nat} {entry : CompiledEntry ρ} (hk : c.entries[k]? = some entry)
    {reference : PatternRef} (hmem : .literal reference ∈ entry.activation.conditionIter)
    (hhit : hits.contains reference = true) :
    k ∈ c.sensitive.mentioned hits.sensitive ∨ k ∈ c.folded.mentioned hits.folded := by
  have hmark : ∀ {marks : List Bool} {i : Nat}, marks.getD i false = true → marks[i]? = some true := by
    intro marks i hi
    cases hget : marks[i]? with
    | none => simp [hget] at hi
    | some b => simpa [hget] using hi
  have hentries : ∀ {lists : List (List Nat)} {i : Nat}, k ∈ lists.getD i [] →
      ∃ list, lists[i]? = some list ∧ k ∈ list := by
    intro lists i hi
    cases hget : lists[i]? with
    | none => simp [hget] at hi
    | some list => exact ⟨list, rfl, by simpa [hget] using hi⟩
  have hmentions := h.registered k entry hk reference hmem
  obtain ⟨isFolded, i⟩ := reference
  cases isFolded with
  | true => exact .inr (mem_mentioned.mpr ⟨i, hmark hhit, hentries hmentions⟩)
  | false => exact .inl (mem_mentioned.mpr ⟨i, hmark hhit, hentries hmentions⟩)

theorem mem_candidates_of_answer {k : Nat} (hk : c.answerAt T hits text seed k = true) :
    k ∈ c.candidates hits := by
  rw [(candidates_spec h hits).2.2 k, mem_unconditional h]
  unfold CompiledCatalog.answerAt at hk
  cases hentry : c.entries[k]? with
  | none =>
    rw [hentry] at hk
    cases hk
  | some entry =>
    have hlt := (List.getElem?_eq_some_iff.mp hentry).1
    cases hunconditional : c.unconditionalAt k with
    | true => exact .inl ⟨hlt, rfl⟩
    | false =>
      -- some literal of the entry was found, otherwise it would not match
      refine .inr ⟨hlt, ?_⟩
      by_contra hnone
      have hfalse : entry.answer T hits text seed = false := by
        refine CompiledEntry.answer_eq_false seed ?_ fun reference hmem => ?_
        · simpa [CompiledCatalog.unconditionalAt, hentry] using hunconditional
        · by_contra hhit
          exact hnone (mentioned_of_contains h hits hentry hmem (by simpa using hhit))
      rw [hentry] at hk
      exact absurd hk (by simp [hfalse])

theorem candidates_lt {k : Nat} (hk : k ∈ c.candidates hits) : k < c.entries.length := by
  obtain hk | ⟨hk, -⟩ := ((candidates_spec h hits).2.2 k).mp hk
  · exact ((mem_unconditional h).mp hk).1
  · exact hk

theorem perm_matched : ((c.candidates hits).filter (c.answerAt T hits text seed)).Perm
    ((List.range c.entries.length).filter (c.answerAt T hits text seed)) := by
  refine (List.perm_ext_iff_of_nodup ((candidates_spec h hits).1.filter _)
    (List.nodup_range.filter _)).mpr fun k => ?_
  rw [List.mem_filter, List.mem_filter, List.mem_range]
  constructor
  · exact fun ⟨hk, hanswer⟩ => ⟨candidates_lt h hits hk, hanswer⟩
  · exact fun ⟨_, hanswer⟩ => ⟨mem_candidates_of_answer h hits text seed hanswer, hanswer⟩

theorem filter_candidates : (c.candidates hits).filter c.unconditionalAt =
    (List.range c.entries.length).filter c.unconditionalAt := by
  obtain ⟨hnodup, ⟨rest, hrest⟩, -⟩ := candidates_spec h hits
  have hnone : rest.filter c.unconditionalAt = [] := by
    refine List.filter_eq_nil_iff.mpr fun k hk hunconditional => ?_
    have hmem : k ∈ c.candidates hits := hrest ▸ List.mem_append_right _ hk
    have hfirst := (mem_unconditional h).mpr ⟨candidates_lt h hits hmem, hunconditional⟩
    rw [← hrest] at hnodup
    exact (List.nodup_append.mp hnodup).2.2 k hfirst k hk rfl
  have hall : c.unconditional.filter c.unconditionalAt = c.unconditional :=
    List.filter_eq_self.mpr fun k hk => ((mem_unconditional h).mp hk).2
  rw [← hrest, List.filter_append, hnone, hall, List.append_nil, h.unconditional]

theorem spending_candidates (limits : EvaluationLimits) :
    spending (c.entryHolds T hits text seed) (c.candidates hits) limits =
      spending (c.entryHolds T hits text seed) (List.range c.entries.length) limits :=
  spending_congr (fun _ _ => free_entryHolds hits text seed) (fun _ _ => free_entryHolds hits text seed)
    (filter_candidates h hits) limits

omit h in
theorem sources_subset {l : List Nat} {entry : LoreEntry} (hentry : entry ∈ c.sources l) :
    entry ∈ c.entries.map (·.source) := by
  obtain ⟨k, -, hk⟩ := List.mem_filterMap.mp hentry
  obtain ⟨compiled, hcompiled, rfl⟩ := Option.map_eq_some_iff.mp hk
  exact List.mem_map_of_mem (List.mem_of_getElem? hcompiled)

theorem sources_eq : c.entries.map (·.source) = entries := by
  have hentries := h.entries
  clear h
  generalize c.entries = compiled at hentries
  induction hentries with
  | nil => rfl
  | cons hfirst _ ih => rw [List.map_cons, hfirst.source, ih]

theorem getElem_represents {k : Nat} {compiled : CompiledEntry ρ} (hk : c.entries[k]? = some compiled) :
    RepresentsEntry T sensitive folded compiled.source compiled := by
  have hentries := h.entries
  clear h
  generalize c.entries = all at hentries hk
  induction hentries generalizing k with
  | nil => cases hk
  | cons hfirst _ ih =>
    cases k with
    | zero =>
      cases hk
      rwa [hfirst.source]
    | succ k => exact ih hk

theorem passing_entries (hmarks : Marks T sensitive folded text hits) (limits : EvaluationLimits) :
    passing (LoreEntry.holds T text seed) entries limits =
      (spending (c.entryHolds T hits text seed) (List.range c.entries.length) limits).map fun limits' =>
        (c.sources ((List.range c.entries.length).filter (c.answerAt T hits text seed)), limits') := by
  have htest : ∀ (k : Nat) compiled, c.entries[k]? = some compiled →
      c.entryHolds T hits text seed k = LoreEntry.holds T text seed compiled.source := by
    intro k compiled hk
    rw [← (getElem_represents h hk).holds_eq hmarks seed]
    funext limits
    simp only [CompiledCatalog.entryHolds, hk]
  rw [← sources_eq h, passing_map, passing_range htest, passing_eq fun k _ => answers_entryHolds hits text seed k]
  cases spending (c.entryHolds T hits text seed) (List.range c.entries.length) limits with
  | error e => rfl
  | ok limits' => simp only [Except.map, CompiledCatalog.sources, List.map_filterMap]

theorem ranked_eq (hids : (entries.map LoreEntry.id).Nodup) :
    (c.sources ((c.candidates hits).filter (c.answerAt T hits text seed))).insertionSort rankedBefore =
      (c.sources ((List.range c.entries.length).filter
        (c.answerAt T hits text seed))).insertionSort rankedBefore := by
  refine insertionSort_eq_of_perm (fun a ha b hb hab hba => ?_)
    ((perm_matched h hits text seed).filterMap _)
  have ha' := sources_subset ha
  have hb' := sources_subset hb
  rw [sources_eq h] at ha' hb'
  exact List.inj_on_of_nodup_map hids ha' hb' (id_eq_of_ranked hab hba)

end

theorem marks_hits {T : Tools ρ} {sensitive folded : List String} {entries : List LoreEntry}
    {c : CompiledCatalog ρ} (h : Indexed T sensitive folded entries c) (text : String) :
    Marks T sensitive folded text ⟨c.sensitive.hits (normalizeSearchText T text true),
      c.folded.hits (normalizeSearchText T text false)⟩ := by
  intro caseSensitive i p hp
  rw [← h.patterns.1, ← h.patterns.2] at hp
  cases caseSensitive with
  | true =>
    rw [if_pos rfl] at hp
    simp only [PatternHits.contains, Bool.not_true, Bool.false_eq_true, if_false]
    rw [getD_hits _ _ hp]
  | false =>
    rw [if_neg Bool.false_ne_true] at hp
    simp only [PatternHits.contains, Bool.not_false, if_true]
    rw [getD_hits _ _ hp]

theorem literalEvents_eq {T : Tools ρ} {catalog : LorebookCatalog} {p : Patterns}
    (hp : Collects T (catalog.enabled.flatMap LoreEntry.conditions) ⟨[], [], 0, 0⟩ p) (text : String) :
    literalEvents T catalog text =
      (p.sensitive.map fun pattern => occurrences pattern (normalizeSearchText T text true)).sum +
        (p.folded.map fun pattern => occurrences pattern (normalizeSearchText T text false)).sum := by
  obtain ⟨hsensitive, hfolded⟩ := hp.nodup ⟨List.nodup_nil, List.nodup_nil⟩
  have hperm : (catalog.literals T true).Perm p.sensitive := by
    refine (List.perm_ext_iff_of_nodup (List.nodup_dedup _) hsensitive).mpr fun pattern => ?_
    rw [hp.sensitive, List.mem_dedup]
    simp
  have hperm' : (catalog.literals T false).Perm p.folded := by
    refine (List.perm_ext_iff_of_nodup (List.nodup_dedup _) hfolded).mpr fun pattern => ?_
    rw [hp.folded, List.mem_dedup]
    simp
  rw [literalEvents, (hperm.map _).sum_eq, (hperm'.map _).sum_eq]

theorem findMatches_eq (T : Tools ρ) (c : CompiledCatalog ρ) (request : SelectionRequest)
    (search : SearchInput) {events : Nat}
    (hevents : events = (c.sensitive.patterns.map fun p => occurrences p search.sensitive).sum +
      (c.folded.patterns.map fun p => occurrences p search.folded).sum) :
    findMatches T c request search = (do
      ensure (events ≤ request.settings.maxLiteralMatchEvents) (.searchLimitExceeded .literalMatchEvents)
      let hits : PatternHits := ⟨c.sensitive.hits search.sensitive, c.folded.hits search.folded⟩
      let (matched, limits) ← passing (c.entryHolds T hits search.regex request.seed)
        (c.candidates hits) (.new request)
      .ok ⟨c.candidates hits, (c.sources matched).insertionSort rankedBefore, events, limits⟩) := by
  subst hevents
  unfold findMatches
  dsimp only
  rw [search_eq _ _ (Nat.zero_le _)]
  simp only [Nat.zero_add]
  by_cases hsensitive : (c.sensitive.patterns.map fun p => occurrences p search.sensitive).sum ≤
      request.settings.maxLiteralMatchEvents
  · rw [if_pos hsensitive]
    simp only [bind, Except.bind]
    rw [search_eq _ _ hsensitive]
    by_cases hboth : (c.sensitive.patterns.map fun p => occurrences p search.sensitive).sum +
        (c.folded.patterns.map fun p => occurrences p search.folded).sum ≤
        request.settings.maxLiteralMatchEvents
    · rw [if_pos hboth]
      simp only [ensure, if_pos hboth]
    · rw [if_neg hboth]
      simp only [ensure, if_neg hboth]
  · have hboth : ¬ (c.sensitive.patterns.map fun p => occurrences p search.sensitive).sum +
        (c.folded.patterns.map fun p => occurrences p search.folded).sum ≤
        request.settings.maxLiteralMatchEvents := by omega
    rw [if_neg hsensitive]
    simp only [ensure, if_neg hboth, bind, Except.bind]

theorem findMatches_eq_naiveFind {T : Tools ρ} {catalog : LorebookCatalog} {generation : Nat}
    {compiled : CompiledCatalog ρ} (h : compileCatalog T catalog generation = .ok compiled)
    (request : SelectionRequest) :
    (findMatches T compiled request (.build T request)).map
        (fun found => (found.matched, found.literalEvents, found.limits)) =
      naiveFind T catalog request := by
  obtain ⟨hvalid, p, hindexed, hp⟩ := compileCatalog_ok h
  have hids : (catalog.enabled.map LoreEntry.id).Nodup :=
    (LorebookCatalog.validate_ids hvalid).sublist (List.filter_sublist.map _)
  have hmarks := marks_hits hindexed request.searchText
  have hevents := literalEvents_eq hp request.searchText
  rw [← hindexed.patterns.1, ← hindexed.patterns.2] at hevents
  rw [findMatches_eq T compiled request (.build T request) hevents, naiveFind,
    passing_entries hindexed _ _ _ hmarks]
  simp only [SearchInput.build]
  rw [passing_eq fun k _ => answers_entryHolds _ _ _ k, spending_candidates hindexed]
  by_cases hroom : literalEvents T catalog request.searchText ≤ request.settings.maxLiteralMatchEvents
  · simp only [ensure, if_pos hroom, bind, Except.bind]
    generalize spending _ _ _ = spent
    cases spent with
    | error e => rfl
    | ok limits => simp only [Except.map, ranked_eq hindexed _ _ _ hids]
  · simp only [ensure, if_neg hroom, bind, Except.bind]
    rfl

/-- A selection with the indexes of a compiled catalog finds, admits and spends what the naive
evaluation of its entries does, and fails when that fails. -/
theorem selectUncached_eq_naive {T : Tools ρ} {catalog : LorebookCatalog} {generation : Nat}
    {compiled : CompiledCatalog ρ} (h : compileCatalog T catalog generation = .ok compiled)
    (request : SelectionRequest) (fingerprint : Digest) :
    (findMatches T compiled request (.build T request)).map
        (fun found => (found.matched, found.literalEvents, found.limits)) =
      naiveFind T catalog request ∧
    (selectUncached T compiled request (.build T request) fingerprint).map Selection.outcome =
      naiveSelect T catalog request := by
  have hfind := findMatches_eq_naiveFind h request
  refine ⟨hfind, ?_⟩
  unfold selectUncached naiveSelect
  rw [← hfind]
  cases findMatches T compiled request (.build T request) with
  | error e => rfl
  | ok found => rfl

/-- Tools for ASCII texts, where a regular expression is a text to look for. -/
def asciiTools : Tools String where
  nfkc text := text
  toLowercase c := [c.toLower]
  isWhitespace c := c = ' ' || c = '\n'
  buildRegex pattern _ := some pattern
  findIter pattern text := occurrences pattern text
  sha256 _ := Vector.replicate 32 0

def knightCatalog : LorebookCatalog where
  revision := 1
  entries :=
    [{ id := ⟨"knight", by decide⟩, source := .global, priority := 0, order := 0, enabled := true
       activation := .selective ⟨[.literal "Sir" false], .none⟩
       content := "A knight.", reservedTokens := 3 },
     { id := ⟨"rain", by decide⟩, source := .chat, priority := 0, order := 1, enabled := true
       activation := .selective ⟨[.regex "rain" "rain" false], .none⟩
       content := "It rains.", reservedTokens := 3 }]

def knightRequest : SelectionRequest where
  conversation := ⟨1, 1, 1, [⟨1, .complete, "the rain fell on SIR Tom"⟩], .missing⟩
  settings := ⟨8, .exclude, 100, 1000, 100, 10, 1000, 10, "t", "1", " "⟩
  seed := 7

theorem selectUncached_eq_naive_knight : ∃ compiled,
    compileCatalog asciiTools knightCatalog 1 = .ok compiled ∧
      (selectUncached asciiTools compiled knightRequest (.build asciiTools knightRequest)
        (Vector.replicate 32 0)).map (fun s => s.outcome.promptText) = .ok "It rains. A knight." := by
  cases hcompiled : compileCatalog asciiTools knightCatalog 1 with
  | error e =>
    have hok : (compileCatalog asciiTools knightCatalog 1).toBool = true := by decide
    rw [hcompiled] at hok
    cases hok
  | ok compiled =>
    refine ⟨compiled, rfl, ?_⟩
    have hnaive := (selectUncached_eq_naive hcompiled knightRequest (Vector.replicate 32 0)).2
    have hprompt : (naiveSelect asciiTools knightCatalog knightRequest).map Outcome.promptText =
        .ok "It rains. A knight." := by decide
    rw [← hnaive] at hprompt
    cases hselect : selectUncached asciiTools compiled knightRequest (.build asciiTools knightRequest)
        (Vector.replicate 32 0) with
    | error e =>
      rw [hselect] at hprompt
      cases hprompt
    | ok selection =>
      rw [hselect] at hprompt
      exact hprompt

end Lorepia.Lorebook
