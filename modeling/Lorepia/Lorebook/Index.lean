import Mathlib
import Lorepia.Lorebook.Engine

/-!
# What the indexes know

A search marks exactly the patterns that occur in the text, and counts their occurrences. A
compiled catalog has the entries of the source in their order, each with its conditions
(`Represents`), and is indexed: an entry is among the candidates of every pattern it mentions,
or has to be looked at in any case (`Indexed`).
-/

namespace Lorepia.Lorebook

variable {ρ : Type}

/-! ## Searching -/

def occurrences (pattern text : String) : Nat :=
  text.toList.inits.countP fun seen => pattern.toList.isSuffixOf seen

variable {patterns : List String} {i k : Nat} {α β : Type} {l : List Nat} {index : PatternIndex}

theorem mem_findOverlapping {text : String} : i ∈ findOverlapping patterns text ↔
      ∃ p, patterns[i]? = some p ∧ p.toList <:+: text.toList := by
  simp only [findOverlapping, List.mem_flatMap, List.mem_inits, List.mem_filter, List.mem_range,
    List.isSuffixOf_iff_suffix]
  constructor
  · rintro ⟨seen, hseen, hi, hsuffix⟩
    rw [List.getD_eq_getElem _ _ hi] at hsuffix
    exact ⟨patterns[i], List.getElem?_eq_getElem hi, hsuffix.isInfix.trans hseen.isInfix⟩
  · rintro ⟨p, hp, before, after, htext⟩
    obtain ⟨hi, rfl⟩ := List.getElem?_eq_some_iff.mp hp
    refine ⟨before ++ patterns[i].toList, ⟨after, htext⟩, hi, ?_⟩
    rw [List.getD_eq_getElem _ _ hi]
    exact List.suffix_append _ _

theorem countP_eq_sum (p : α → Bool) (l : List α) :
    l.countP p = (l.map fun a => if p a then 1 else 0).sum := by
  induction l with
  | nil => rfl
  | cons a rest ih =>
    rw [List.countP_cons, ih, List.map_cons, List.sum_cons]
    omega

theorem length_flatMap_filter (places : List α) (n : Nat) (p : α → Nat → Bool) :
    (places.flatMap fun a => (List.range n).filter (p a)).length =
      ((List.range n).map fun i => places.countP fun a => p a i).sum := by
  induction places with
  | nil => simp
  | cons a rest ih =>
    simp only [List.flatMap_cons, List.length_append, ih, ← List.countP_eq_length_filter,
      List.countP_cons]
    rw [countP_eq_sum, ← List.sum_map_add]
    congr 1
    refine List.map_congr_left fun i _ => ?_
    omega

theorem length_findOverlapping (patterns : List String) (text : String) :
    (findOverlapping patterns text).length = (patterns.map fun p => occurrences p text).sum := by
  rw [findOverlapping, length_flatMap_filter]
  congr 1
  refine List.ext_getElem (by simp) fun i h₁ h₂ => ?_
  simp only [List.length_map, List.length_range] at h₁
  simp [occurrences, h₁]

theorem getD_foldl_set (l : List Nat) (hits : List Bool) (i : Nat) (hi : i < hits.length) :
    (l.foldl (fun hits found => hits.set found true) hits).getD i false =
      (hits.getD i false || decide (i ∈ l)) := by
  induction l generalizing hits with
  | nil => simp
  | cons j rest ih =>
    rw [List.foldl_cons, ih (hits.set j true) (by simpa using hi)]
    by_cases hij : j = i
    · subst hij
      simp [hi]
    · have hij' : i ≠ j := fun h => hij h.symm
      simp [List.getElem?_set_ne hij, hij']

/-- The loop fails exactly when there are more events than the work allows. -/
theorem markHits_eq (l : List Nat) (hits : List Bool) {work : LiteralWork}
    (h : work.events ≤ work.maxEvents) :
    PatternIndex.markHits l hits work =
      if work.events + l.length ≤ work.maxEvents then
        .ok (l.foldl (fun hits found => hits.set found true) hits,
          { work with events := work.events + l.length })
      else .error (.searchLimitExceeded .literalMatchEvents) := by
  induction l generalizing hits work with
  | nil => simp [PatternIndex.markHits, h]
  | cons found rest ih =>
    simp only [PatternIndex.markHits, LiteralWork.charge, List.length_cons, List.foldl_cons]
    by_cases hroom : work.maxEvents < work.events + 1
    · have hfull : ¬ work.events + (rest.length + 1) ≤ work.maxEvents := by omega
      rw [if_pos hroom, if_neg hfull]
      rfl
    · rw [if_neg hroom]
      show PatternIndex.markHits rest (hits.set found true) _ = _
      rw [ih _ (by simp only; omega)]
      have hsum : work.events + 1 + rest.length = work.events + (rest.length + 1) := by omega
      simp only [hsum]

def PatternIndex.hits (index : PatternIndex) (text : String) : List Bool :=
  (findOverlapping index.patterns text).foldl (fun hits found => hits.set found true)
    (List.replicate index.patterns.length false)

theorem search_eq (index : PatternIndex) (text : String) {work : LiteralWork}
    (h : work.events ≤ work.maxEvents) :
    index.search text work =
      if work.events + (index.patterns.map fun p => occurrences p text).sum ≤ work.maxEvents then
        .ok (index.hits text, { work with
          events := work.events + (index.patterns.map fun p => occurrences p text).sum })
      else .error (.searchLimitExceeded .literalMatchEvents) := by
  rw [← length_findOverlapping]
  exact markHits_eq _ _ h

theorem getD_hits (index : PatternIndex) (text : String) {p : String}
    (hp : index.patterns[i]? = some p) :
    (index.hits text).getD i false = decide (p.toList <:+: text.toList) := by
  obtain ⟨hi, -⟩ := List.getElem?_eq_some_iff.mp hp
  rw [PatternIndex.hits, getD_foldl_set _ _ _ (by simpa using hi)]
  have hmem : i ∈ findOverlapping index.patterns text ↔ p.toList <:+: text.toList := by
    rw [mem_findOverlapping]
    constructor
    · rintro ⟨q, hq, h⟩
      rw [hp] at hq
      cases hq
      exact h
    · exact fun h => ⟨p, hp, h⟩
  simp [hi, hmem]

/-! ## Candidates -/

/-- The marks say which of the `n` entries are among the candidates. -/
structure Candidates.Valid (n : Nat) (c : Candidates) : Prop where
  marks : ∀ k, c.seen.getD k true = decide (n ≤ k ∨ k ∈ c.found)
  nodup : c.found.Nodup
  bounded : ∀ k ∈ c.found, k < n

variable {n : Nat} {c : Candidates}

theorem Candidates.valid_empty (n : Nat) : Candidates.Valid n ⟨List.replicate n false, []⟩ := by
  refine ⟨fun k => ?_, List.nodup_nil, fun k hk => (nomatch hk)⟩
  by_cases hk : k < n
  · simp [hk, Nat.not_le.mpr hk]
  · simp [Nat.not_lt.mp hk]

theorem Candidates.add_eq (h : c.Valid n) (k : Nat) :
    c.add k = if n ≤ k ∨ k ∈ c.found then c else ⟨c.seen.set k true, c.found ++ [k]⟩ := by
  simp only [Candidates.add, h.marks k, decide_eq_true_eq]

theorem Candidates.Valid.add (h : c.Valid n) (k : Nat) : (c.add k).Valid n := by
  rw [add_eq h]
  by_cases hk : n ≤ k ∨ k ∈ c.found
  · rw [if_pos hk]
    exact h
  · rw [if_neg hk]
    have hmark := h.marks k
    rw [decide_eq_false hk] at hmark
    have hlength : k < c.seen.length := by
      by_contra hout
      rw [List.getD_eq_default _ _ (Nat.not_lt.mp hout)] at hmark
      cases hmark
    rw [not_or] at hk
    refine ⟨fun j => ?_, ?_, fun j hj => ?_⟩
    · by_cases hj : j = k
      · subst hj
        simp [hlength]
      · have hset : (c.seen.set k true).getD j true = c.seen.getD j true := by
          simp [List.getElem?_set_ne (Ne.symm hj)]
        rw [hset, h.marks j]
        simp [hj]
    · rw [List.nodup_append]
      refine ⟨h.nodup, List.nodup_singleton k, fun a ha b hb => ?_⟩
      rw [List.mem_singleton.mp hb]
      rintro rfl
      exact hk.2 ha
    · obtain hj | hj := List.mem_append.mp hj
      · exact h.bounded j hj
      · rw [List.mem_singleton.mp hj]
        exact Nat.not_le.mp hk.1

/-- Candidates are added at the end. -/
structure Candidates.Extends (n : Nat) (l : List Nat) (c c' : Candidates) : Prop where
  valid : c'.Valid n
  start : c.found <+: c'.found
  mem : ∀ k, k ∈ c'.found ↔ k ∈ c.found ∨ k < n ∧ k ∈ l

theorem Candidates.extends_add (h : c.Valid n) (k : Nat) : c.Extends n [k] (c.add k) := by
  refine ⟨h.add k, ?_, fun j => ?_⟩
  · rw [add_eq h]
    split
    · exact List.prefix_refl _
    · exact List.prefix_append _ _
  · rw [add_eq h]
    split
    next hk =>
      constructor
      · exact .inl
      · rintro (hj | ⟨hj, hjk⟩)
        · exact hj
        · rw [List.mem_singleton.mp hjk] at hj ⊢
          exact hk.resolve_left (Nat.not_le.mpr hj)
    next hk =>
      rw [not_or] at hk
      rw [List.mem_append]
      constructor
      · rintro (hj | hj)
        · exact .inl hj
        · refine .inr ⟨?_, hj⟩
          rw [List.mem_singleton.mp hj]
          exact Nat.not_le.mp hk.1
      · rintro (hj | ⟨-, hj⟩)
        · exact .inl hj
        · exact .inr hj

theorem Candidates.Extends.trans {l' : List Nat} {c c' c'' : Candidates} (h : c.Extends n l c')
    (h' : c'.Extends n l' c'') : c.Extends n (l ++ l') c'' := by
  refine ⟨h'.valid, h.start.trans h'.start, fun k => ?_⟩
  rw [h'.mem, h.mem, List.mem_append]
  constructor
  · rintro ((hk | ⟨hk, hl⟩) | ⟨hk, hl⟩)
    · exact .inl hk
    · exact .inr ⟨hk, .inl hl⟩
    · exact .inr ⟨hk, .inr hl⟩
  · rintro (hk | ⟨hk, hl | hl⟩)
    · exact .inl (.inl hk)
    · exact .inl (.inr ⟨hk, hl⟩)
    · exact .inr ⟨hk, hl⟩

theorem Candidates.extends_refl (h : c.Valid n) : c.Extends n [] c :=
  ⟨h, List.prefix_refl _, fun k => by simp⟩

theorem Candidates.extends_foldl (h : c.Valid n) (l : List Nat) :
    c.Extends n l (l.foldl Candidates.add c) := by
  induction l generalizing c with
  | nil => exact extends_refl h
  | cons k rest ih =>
    have hfirst := extends_add h k
    exact hfirst.trans (ih hfirst.valid)

def PatternIndex.mentioned (index : PatternIndex) (hits : List Bool) : List Nat :=
  (hits.zip index.candidateEntries).flatMap fun (hit, entries) => if hit then entries else []

theorem Candidates.extends_addPatterns (h : c.Valid n) (index : PatternIndex) (hits : List Bool) :
    c.Extends n (index.mentioned hits) (c.addPatterns index hits) := by
  unfold Candidates.addPatterns PatternIndex.mentioned
  generalize hits.zip index.candidateEntries = pairs
  induction pairs generalizing c with
  | nil => exact extends_refl h
  | cons pair rest ih =>
    obtain ⟨hit, entries⟩ := pair
    have hfirst : c.Extends n (if hit then entries else [])
        (if hit then entries.foldl Candidates.add c else c) := by
      split
      · exact extends_foldl h entries
      · exact extends_refl h
    exact hfirst.trans (ih hfirst.valid)

theorem mem_mentioned {hits : List Bool} : k ∈ index.mentioned hits ↔
      ∃ i : Nat, hits[i]? = some true ∧
        ∃ entries, index.candidateEntries[i]? = some entries ∧ k ∈ entries := by
  constructor
  · intro h
    obtain ⟨⟨hit, entries⟩, hpair, hk⟩ := List.mem_flatMap.mp h
    obtain ⟨i, hi⟩ := List.mem_iff_getElem?.mp hpair
    obtain ⟨hhit, hentries⟩ := List.getElem?_zip_eq_some.mp hi
    cases hit with
    | true => exact ⟨i, hhit, entries, hentries, hk⟩
    | false => cases hk
  · rintro ⟨i, hhit, entries, hentries, hk⟩
    refine List.mem_flatMap.mpr ⟨(true, entries), List.mem_iff_getElem?.mpr ⟨i, ?_⟩, hk⟩
    exact List.getElem?_zip_eq_some.mpr ⟨hhit, hentries⟩

theorem Candidates.found_foldl (h : c.Valid n) (hbound : ∀ k ∈ l, k < n)
    (hnodup : (c.found ++ l).Nodup) : (l.foldl Candidates.add c).found = c.found ++ l := by
  induction l generalizing c with
  | nil => simp
  | cons k rest ih =>
    have hk : ¬ (n ≤ k ∨ k ∈ c.found) := by
      rintro (hk | hk)
      · exact absurd (hbound k List.mem_cons_self) (Nat.not_lt.mpr hk)
      · exact (List.nodup_append.mp hnodup).2.2 k hk k List.mem_cons_self rfl
    have hadd : (c.add k).found = c.found ++ [k] := by rw [add_eq h, if_neg hk]
    rw [List.foldl_cons, ih (h.add k) (fun j hj => hbound j (List.mem_cons_of_mem _ hj)), hadd]
    · simp
    · rw [hadd]
      simpa using hnodup

/-! ## Registering candidates -/

def PatternRef.side (reference : PatternRef) (indexes : PatternIndex × PatternIndex) : PatternIndex :=
  if reference.folded then indexes.2 else indexes.1

def Mentions (indexes : PatternIndex × PatternIndex) (reference : PatternRef) (entry : Nat) : Prop :=
  entry ∈ (reference.side indexes).candidateEntries.getD reference.index []

def PatternIndex.Sized (index : PatternIndex) : Prop :=
  index.candidateEntries.length = index.patterns.length

theorem mem_pushCandidate {j : Nat} : j ∈ pushCandidate k l ↔ j ∈ l ∨ j = k := by
  unfold pushCandidate
  split
  next h =>
    refine ⟨.inl, ?_⟩
    rintro (hj | rfl)
    · exact hj
    · exact List.mem_of_getLast? h
  next => simp

theorem PatternIndex.Sized.register (h : index.Sized) (pattern entry : Nat) :
    (index.register pattern entry).Sized := by
  unfold PatternIndex.Sized at h ⊢
  simpa [PatternIndex.register] using h

theorem PatternIndex.mem_register {pattern entry : Nat} :
    k ∈ ((index.register pattern entry).candidateEntries[i]?).getD [] ↔
      k ∈ (index.candidateEntries[i]?).getD [] ∨
        i = pattern ∧ i < index.candidateEntries.length ∧ k = entry := by
  simp only [PatternIndex.register, List.getElem?_modify]
  cases hi : index.candidateEntries[i]? with
  | none =>
    have hlength := Nat.not_lt.mpr (List.getElem?_eq_none_iff.mp hi)
    simp [hlength]
  | some entries =>
    have hlength := (List.getElem?_eq_some_iff.mp hi).1
    by_cases hip : pattern = i
    · simp [hip, hlength, mem_pushCandidate]
    · have hip' : ¬ i = pattern := fun h => hip h.symm
      simp [hip, hip']

def registerAt (entry : Nat) (reference : PatternRef) (indexes : PatternIndex × PatternIndex) :
    PatternIndex × PatternIndex :=
  if reference.folded then (indexes.1, indexes.2.register reference.index entry)
  else (indexes.1.register reference.index entry, indexes.2)

section
variable {indexes : PatternIndex × PatternIndex}

theorem sized_registerAt (entry : Nat) (reference : PatternRef)
    (h : indexes.1.Sized ∧ indexes.2.Sized) :
    (registerAt entry reference indexes).1.Sized ∧ (registerAt entry reference indexes).2.Sized := by
  unfold registerAt
  split
  · exact ⟨h.1, h.2.register _ _⟩
  · exact ⟨h.1.register _ _, h.2⟩

theorem patterns_registerAt (entry : Nat) (reference : PatternRef)
    (indexes : PatternIndex × PatternIndex) :
    (registerAt entry reference indexes).1.patterns = indexes.1.patterns ∧
      (registerAt entry reference indexes).2.patterns = indexes.2.patterns := by
  unfold registerAt
  split <;> exact ⟨rfl, rfl⟩

theorem mentions_registerAt {entry k : Nat} {reference other : PatternRef} :
    Mentions (registerAt entry reference indexes) other k ↔
      Mentions indexes other k ∨
        other = reference ∧ other.index < (other.side indexes).candidateEntries.length ∧ k = entry := by
  obtain ⟨side, i⟩ := reference
  obtain ⟨side', j⟩ := other
  -- the sides are different, or the index of that side is the one that changes
  cases side <;> cases side' <;>
    simp [Mentions, registerAt, PatternRef.side, PatternIndex.mem_register]

end

/-- What registering an entry does to the indexes. -/
structure Registers (entry : Nat) (conditions : List (CompiledCondition ρ))
    (before after : PatternIndex × PatternIndex) : Prop where
  patterns : after.1.patterns = before.1.patterns ∧ after.2.patterns = before.2.patterns
  sized : after.1.Sized ∧ after.2.Sized
  kept : ∀ reference k, Mentions before reference k → Mentions after reference k
  added : ∀ reference, .literal reference ∈ conditions →
    reference.index < (reference.side before).patterns.length → Mentions after reference entry
  only : ∀ reference k, Mentions after reference k →
    Mentions before reference k ∨ k = entry ∧ .literal reference ∈ conditions

theorem PatternRef.length_side (reference : PatternRef) {indexes : PatternIndex × PatternIndex}
    (h : indexes.1.Sized ∧ indexes.2.Sized) :
    (reference.side indexes).candidateEntries.length = (reference.side indexes).patterns.length := by
  unfold PatternRef.side
  split
  · exact h.2
  · exact h.1

theorem PatternRef.patterns_side (reference : PatternRef) {before after : PatternIndex × PatternIndex}
    (h : after.1.patterns = before.1.patterns ∧ after.2.patterns = before.2.patterns) :
    (reference.side after).patterns = (reference.side before).patterns := by
  unfold PatternRef.side
  split
  · exact h.2
  · exact h.1

theorem registers (entry : Nat) (conditions : List (CompiledCondition ρ))
    (indexes : PatternIndex × PatternIndex) (h : indexes.1.Sized ∧ indexes.2.Sized) :
    Registers entry conditions indexes (registerCandidates entry conditions indexes) := by
  induction conditions generalizing indexes with
  | nil => exact ⟨⟨rfl, rfl⟩, h, fun _ _ hk => hk, fun _ hmem => (nomatch hmem), fun _ _ hk => .inl hk⟩
  | cons condition rest ih =>
    cases condition with
    | regex r =>
      have hrest := ih indexes h
      refine ⟨hrest.patterns, hrest.sized, hrest.kept, fun reference hmem => ?_, fun reference k hk => ?_⟩
      · exact hrest.added reference ((List.mem_cons.mp hmem).resolve_left nofun)
      · exact (hrest.only reference k hk).imp_right fun ⟨hk, hmem⟩ => ⟨hk, List.mem_cons_of_mem _ hmem⟩
    | literal first =>
      show Registers entry _ indexes (registerCandidates entry rest (registerAt entry first indexes))
      have hrest := ih _ (sized_registerAt entry first h)
      have hpatterns := patterns_registerAt entry first indexes
      refine ⟨⟨hrest.patterns.1.trans hpatterns.1, hrest.patterns.2.trans hpatterns.2⟩, hrest.sized,
        fun reference k hk => hrest.kept _ _ (mentions_registerAt.mpr (.inl hk)),
        fun reference hmem hbound => ?_, fun reference k hk => ?_⟩
      · obtain heq | hmem := List.mem_cons.mp hmem
        · cases heq
          refine hrest.kept _ _ (mentions_registerAt.mpr (.inr ⟨rfl, ?_, rfl⟩))
          rwa [PatternRef.length_side _ h]
        · exact hrest.added reference hmem (by rwa [reference.patterns_side hpatterns])
      · obtain hfirst | ⟨hk, hmem⟩ := hrest.only reference k hk
        · obtain hbefore | ⟨rfl, -, hk⟩ := mentions_registerAt.mp hfirst
          · exact .inl hbefore
          · exact .inr ⟨hk, List.mem_cons_self⟩
        · exact .inr ⟨hk, List.mem_cons_of_mem _ hmem⟩

/-! ## Compiled catalogs -/

theorem PatternIndex.lookup_ok {pattern : String}
    (h : index.lookup pattern = .ok i) : index.patterns[i]? = some pattern := by
  unfold PatternIndex.lookup at h
  split at h
  next j hj =>
    cases h
    obtain ⟨hlt, heq, -⟩ := List.findIdx?_eq_some_iff_getElem.mp hj
    rw [List.getElem?_eq_getElem hlt]
    simpa using heq
  next => cases h

section
variable (T : Tools ρ) (sensitive folded : List String)

/-- A compiled condition with what it was compiled from. -/
inductive Represents : MatchCondition → CompiledCondition ρ → Prop
  | literal {value : String} {caseSensitive : Bool} {i : Nat}
      (h : (if caseSensitive then sensitive else folded)[i]? =
        some (normalizeSearchText T value caseSensitive)) :
      Represents (.literal value caseSensitive) (.literal ⟨!caseSensitive, i⟩)
  | regex {pattern requiredLiteral : String} {caseInsensitive : Bool} {r : ρ}
      (h : T.buildRegex pattern caseInsensitive = some r) :
      Represents (.regex pattern requiredLiteral caseInsensitive) (.regex r)

inductive RepresentsSecondary : SecondaryConditions → CompiledSecondary ρ → Prop
  | none : RepresentsSecondary .none .none
  | any {values : List MatchCondition} {compiled : List (CompiledCondition ρ)}
      (h : List.Forall₂ (Represents T sensitive folded) values compiled) :
      RepresentsSecondary (.any values) (.any compiled)
  | all {values : List MatchCondition} {compiled : List (CompiledCondition ρ)}
      (h : List.Forall₂ (Represents T sensitive folded) values compiled) :
      RepresentsSecondary (.all values) (.all compiled)

structure RepresentsConditions (conditions : MatchConditions) (compiled : CompiledConditions ρ) :
    Prop where
  primary : List.Forall₂ (Represents T sensitive folded) conditions.primary compiled.primary
  secondary : RepresentsSecondary T sensitive folded conditions.secondary compiled.secondary

inductive RepresentsActivation : Activation → CompiledActivation ρ → Prop
  | constant : RepresentsActivation .constant .constant
  | selective {conditions : MatchConditions} {compiled : CompiledConditions ρ}
      (h : RepresentsConditions T sensitive folded conditions compiled) :
      RepresentsActivation (.selective conditions) (.selective compiled)
  | always {basisPoints : Nat} :
      RepresentsActivation (.probability basisPoints none) (.probability basisPoints none)
  | probability {basisPoints : Nat} {conditions : MatchConditions} {compiled : CompiledConditions ρ}
      (h : RepresentsConditions T sensitive folded conditions compiled) :
      RepresentsActivation (.probability basisPoints (some conditions))
        (.probability basisPoints (some compiled))

structure RepresentsEntry (entry : LoreEntry) (compiled : CompiledEntry ρ) : Prop where
  source : compiled.source = entry
  activation : RepresentsActivation T sensitive folded entry.activation compiled.activation

end

section
variable {T : Tools ρ} {entryIndex : Nat} {sensitive folded : PatternIndex}

theorem compileCondition_ok {condition : MatchCondition} {compiled : CompiledCondition ρ}
    (h : compileCondition T entryIndex sensitive folded condition = .ok compiled) :
    Represents T sensitive.patterns folded.patterns condition compiled := by
  cases condition with
  | literal value caseSensitive =>
    cases caseSensitive with
    | true =>
      obtain ⟨i, hi, h⟩ := except_bind_ok.mp h
      cases h
      exact .literal (PatternIndex.lookup_ok hi)
    | false =>
      obtain ⟨i, hi, h⟩ := except_bind_ok.mp h
      cases h
      exact .literal (PatternIndex.lookup_ok hi)
  | regex pattern requiredLiteral caseInsensitive =>
    simp only [compileCondition] at h
    cases hr : T.buildRegex pattern caseInsensitive with
    | none =>
      rw [hr] at h
      cases h
    | some r =>
      rw [hr] at h
      cases h
      exact .regex hr

theorem compileMany_ok {values : List MatchCondition} {compiled : List (CompiledCondition ρ)}
    (h : values.mapM (compileCondition T entryIndex sensitive folded) = .ok compiled) :
    List.Forall₂ (Represents T sensitive.patterns folded.patterns) values compiled :=
  (forall₂_of_mapM h).imp fun _ _ => compileCondition_ok

theorem compileConditions_ok {conditions : MatchConditions} {compiled : CompiledConditions ρ}
    (h : compileConditions T entryIndex sensitive folded conditions = .ok compiled) :
    RepresentsConditions T sensitive.patterns folded.patterns conditions compiled := by
  obtain ⟨primary, secondary⟩ := conditions
  obtain ⟨compiledPrimary, hprimary, h⟩ := except_bind_ok.mp h
  cases secondary with
  | none =>
    cases h
    exact ⟨compileMany_ok hprimary, .none⟩
  | any values =>
    obtain ⟨compiledSecondary, hsecondary, h⟩ := except_bind_ok.mp h
    cases h
    obtain ⟨compiledValues, hvalues, rfl⟩ := except_map_ok.mp hsecondary
    exact ⟨compileMany_ok hprimary, .any (compileMany_ok hvalues)⟩
  | all values =>
    obtain ⟨compiledSecondary, hsecondary, h⟩ := except_bind_ok.mp h
    cases h
    obtain ⟨compiledValues, hvalues, rfl⟩ := except_map_ok.mp hsecondary
    exact ⟨compileMany_ok hprimary, .all (compileMany_ok hvalues)⟩

theorem compileActivation_ok {activation : Activation} {compiled : CompiledActivation ρ}
    (h : compileActivation T entryIndex sensitive folded activation = .ok compiled) :
    RepresentsActivation T sensitive.patterns folded.patterns activation compiled := by
  cases activation with
  | constant =>
    cases h
    exact .constant
  | selective conditions =>
    obtain ⟨compiledConditions, hconditions, h⟩ := except_bind_ok.mp h
    cases h
    exact .selective (compileConditions_ok hconditions)
  | probability basisPoints conditions =>
    cases conditions with
    | none =>
      cases h
      exact .always
    | some conditions =>
      obtain ⟨compiledConditions, hconditions, h⟩ := except_bind_ok.mp h
      cases h
      exact .probability (compileConditions_ok hconditions)

end

section
variable {T : Tools ρ} {sensitive folded : List String}

theorem Represents.bounded {condition : MatchCondition} {reference : PatternRef}
    (h : Represents T sensitive folded condition (.literal reference)) :
    reference.index < (if reference.folded then folded else sensitive).length := by
  cases h with
  | @literal value caseSensitive i h =>
    have hlt := (List.getElem?_eq_some_iff.mp h).1
    cases caseSensitive with
    | true => exact hlt
    | false => exact hlt

theorem RepresentsConditions.iter {conditions : MatchConditions} {compiled : CompiledConditions ρ}
    (h : RepresentsConditions T sensitive folded conditions compiled) :
    List.Forall₂ (Represents T sensitive folded) (conditionIter conditions)
      (compiled.primary ++ compiled.secondary.values) := by
  obtain ⟨primary, secondary⟩ := compiled
  obtain ⟨sourcePrimary, sourceSecondary⟩ := conditions
  obtain ⟨hprimary, hsecondary⟩ := h
  refine List.rel_append hprimary ?_
  cases hsecondary with
  | none => exact .nil
  | any hvalues => exact hvalues
  | all hvalues => exact hvalues

theorem RepresentsEntry.iter {entry : LoreEntry} {compiled : CompiledEntry ρ}
    (h : RepresentsEntry T sensitive folded entry compiled) :
    List.Forall₂ (Represents T sensitive folded) entry.conditions compiled.activation.conditionIter := by
  obtain ⟨-, hactivation⟩ := h
  unfold LoreEntry.conditions
  generalize entry.activation = activation, compiled.activation = compiled at hactivation ⊢
  cases hactivation with
  | constant => exact .nil
  | always => exact .nil
  | selective hconditions => exact hconditions.iter
  | probability hconditions => exact hconditions.iter

end

/-- The entry has to be looked at whatever the conversation says. -/
def CompiledCatalog.unconditionalAt (c : CompiledCatalog ρ) (k : Nat) : Bool :=
  (c.entries[k]?.map fun entry => entry.activation.unconditional).getD false

/-- The catalog has been compiled from these entries, and its indexes know them. -/
structure Indexed (T : Tools ρ) (sensitive folded : List String) (entries : List LoreEntry)
    (c : CompiledCatalog ρ) : Prop where
  patterns : c.sensitive.patterns = sensitive ∧ c.folded.patterns = folded
  sized : c.sensitive.Sized ∧ c.folded.Sized
  entries : List.Forall₂ (RepresentsEntry T sensitive folded) entries c.entries
  unconditional : c.unconditional = (List.range c.entries.length).filter c.unconditionalAt
  registered : ∀ (k : Nat) entry, c.entries[k]? = some entry →
    ∀ reference, .literal reference ∈ entry.activation.conditionIter →
      Mentions (c.sensitive, c.folded) reference k
  mentioned : ∀ reference k, Mentions (c.sensitive, c.folded) reference k →
    ∃ entry, c.entries[k]? = some entry ∧ .literal reference ∈ entry.activation.conditionIter

theorem compileEntries_ok {T : Tools ρ} {sensitive folded : List String} {done rest : List LoreEntry}
    {c c' : CompiledCatalog ρ} (hc : Indexed T sensitive folded done c)
    (h : compileEntries T rest c = .ok c') : Indexed T sensitive folded (done ++ rest) c' := by
  induction rest generalizing done c with
  | nil =>
    cases h
    simpa using hc
  | cons entry rest ih =>
    obtain ⟨activation, hactivation, h⟩ := except_bind_ok.mp h
    rw [show done ++ entry :: rest = (done ++ [entry]) ++ rest by simp]
    refine ih ?_ h
    have hrepr : RepresentsActivation T sensitive folded entry.activation activation := by
      have hok := compileActivation_ok hactivation
      rwa [hc.patterns.1, hc.patterns.2] at hok
    have hreg := registers c.entries.length activation.conditionIter (c.sensitive, c.folded) hc.sized
    have hold : ∀ k : Nat, k < c.entries.length →
        (c.entries ++ [(⟨entry, activation⟩ : CompiledEntry ρ)])[k]? = c.entries[k]? :=
      fun k hk => List.getElem?_append_left hk
    have hnew : (c.entries ++ [(⟨entry, activation⟩ : CompiledEntry ρ)])[c.entries.length]? =
        some ⟨entry, activation⟩ := by simp
    refine ⟨⟨hreg.patterns.1.trans hc.patterns.1, hreg.patterns.2.trans hc.patterns.2⟩, hreg.sized,
      List.rel_append hc.entries (.cons ⟨rfl, hrepr⟩ .nil), ?_, fun k compiled hk reference hmem => ?_,
      fun reference k hk => ?_⟩
    · rw [hc.unconditional]
      simp only [List.length_append, List.length_singleton, List.range_succ, List.filter_append]
      have hsame : ∀ k ∈ List.range c.entries.length, c.unconditionalAt k =
          ((c.entries ++ [(⟨entry, activation⟩ : CompiledEntry ρ)])[k]?.map
            fun entry => entry.activation.unconditional).getD false := by
        intro k hk
        rw [hold k (List.mem_range.mp hk), CompiledCatalog.unconditionalAt]
      rw [List.filter_congr hsame]
      simp only [CompiledCatalog.unconditionalAt, List.filter_cons, List.filter_nil, hnew,
        Option.map_some, Option.getD_some]
      cases activation.unconditional with
      | true => rfl
      | false => exact (List.append_nil _).symm
    · by_cases hlast : k = c.entries.length
      · -- the entry itself
        subst hlast
        obtain rfl := Option.some.inj (hnew.symm.trans hk)
        obtain ⟨value, -, hvalue⟩ := exists_of_forall₂_right (RepresentsEntry.iter ⟨rfl, hrepr⟩) hmem
        refine hreg.added reference hmem ?_
        have hbound := hvalue.bounded
        rw [← hc.patterns.1, ← hc.patterns.2] at hbound
        unfold PatternRef.side
        split
        next hside => rwa [if_pos hside] at hbound
        next hside => rwa [if_neg hside] at hbound
      · have hlt : k < c.entries.length := by
          have := (List.getElem?_eq_some_iff.mp hk).1
          simp only [List.length_append, List.length_singleton] at this
          omega
        rw [hold k hlt] at hk
        exact hreg.kept _ _ (hc.registered k compiled hk reference hmem)
    · obtain hbefore | ⟨rfl, hmem⟩ := hreg.only reference k hk
      · obtain ⟨compiled, hcompiled, hmem⟩ := hc.mentioned reference k hbefore
        exact ⟨compiled, (hold k (List.getElem?_eq_some_iff.mp hcompiled).1).trans hcompiled, hmem⟩
      · exact ⟨_, hnew, hmem⟩

/-! ## The candidates of a selection -/

theorem candidates_spec {T : Tools ρ} {sensitive folded : List String} {entries : List LoreEntry}
    {c : CompiledCatalog ρ} (h : Indexed T sensitive folded entries c) (hits : PatternHits) :
    (c.candidates hits).Nodup ∧ c.unconditional <+: c.candidates hits ∧
      ∀ k, k ∈ c.candidates hits ↔ k ∈ c.unconditional ∨ k < c.entries.length ∧
        (k ∈ c.sensitive.mentioned hits.sensitive ∨ k ∈ c.folded.mentioned hits.folded) := by
  have hbound : ∀ k ∈ c.unconditional, k < c.entries.length := by
    intro k hk
    rw [h.unconditional] at hk
    exact List.mem_range.mp (List.mem_filter.mp hk).1
  have hnodup : c.unconditional.Nodup := by
    rw [h.unconditional]
    exact List.nodup_range.filter _
  have hvalid := Candidates.valid_empty c.entries.length
  have hfirst := Candidates.extends_foldl hvalid c.unconditional
  have hfound := Candidates.found_foldl hvalid hbound (by simpa using hnodup)
  rw [List.nil_append] at hfound
  have hsecond := Candidates.extends_addPatterns hfirst.valid c.sensitive hits.sensitive
  have hthird := Candidates.extends_addPatterns hsecond.valid c.folded hits.folded
  have hrest := hsecond.trans hthird
  refine ⟨hthird.valid.nodup, ?_, fun k => ?_⟩
  · rw [← hfound]
    exact hrest.start
  · have hmem := hrest.mem k
    rw [hfound, List.mem_append] at hmem
    exact hmem

/-! ## Collecting patterns -/

theorem mem_insertPattern {pattern other : String} :
    other ∈ insertPattern pattern patterns ↔ other = pattern ∨ other ∈ patterns := by
  unfold insertPattern
  split
  next h =>
    constructor
    · exact .inr
    · rintro (rfl | hother)
      · exact h
      · exact hother
  next => rw [List.mem_orderedInsert]

theorem nodup_insertPattern {pattern : String} (h : patterns.Nodup) :
    (insertPattern pattern patterns).Nodup := by
  unfold insertPattern
  split
  next => exact h
  next hnew =>
    rw [(List.perm_orderedInsert _ _ _).nodup_iff]
    exact List.nodup_cons.mpr ⟨hnew, h⟩

/-- The normalised form of a literal condition with the given flag. -/
def MatchCondition.normalized (T : Tools ρ) (caseSensitive : Bool) : MatchCondition → Option String
  | literal value flag =>
    if flag = caseSensitive then some (normalizeSearchText T value caseSensitive) else none
  | regex _ _ _ => none

def MatchCondition.pattern : MatchCondition → Option String
  | literal _ _ => none
  | regex pattern _ _ => some pattern

/-- The patterns collected are those from the start and the literals of the conditions; the
regular expressions are counted. -/
structure Collects (T : Tools ρ) (conditions : List MatchCondition) (p p' : Patterns) : Prop where
  nodup : p.sensitive.Nodup ∧ p.folded.Nodup → p'.sensitive.Nodup ∧ p'.folded.Nodup
  sensitive : ∀ pattern, pattern ∈ p'.sensitive ↔
    pattern ∈ p.sensitive ∨ pattern ∈ conditions.filterMap (·.normalized T true)
  folded : ∀ pattern, pattern ∈ p'.folded ↔
    pattern ∈ p.folded ∨ pattern ∈ conditions.filterMap (·.normalized T false)
  regexConditions : p'.activeRegexConditions =
    p.activeRegexConditions + (conditions.filterMap MatchCondition.pattern).length
  regexBytes : p'.activeRegexPatternBytes =
    p.activeRegexPatternBytes + ((conditions.filterMap MatchCondition.pattern).map String.utf8ByteSize).sum

theorem collectCondition_ok {T : Tools ρ} {condition : MatchCondition} {p p' : Patterns}
    (h : collectCondition T p condition = .ok p') : Collects T [condition] p p' := by
  cases condition with
  | regex pattern requiredLiteral caseInsensitive =>
    cases h
    exact ⟨id, fun pattern => by simp [MatchCondition.normalized],
      fun pattern => by simp [MatchCondition.normalized], rfl, rfl⟩
  | literal value caseSensitive =>
    obtain ⟨-, -, h⟩ := except_bind_ok.mp h
    cases caseSensitive with
    | true =>
      cases h
      refine ⟨fun hp => ⟨nodup_insertPattern hp.1, hp.2⟩, fun pattern => ?_, fun pattern => ?_, rfl, rfl⟩
      · simp [MatchCondition.normalized, mem_insertPattern, or_comm]
      · simp [MatchCondition.normalized]
    | false =>
      cases h
      refine ⟨fun hp => ⟨hp.1, nodup_insertPattern hp.2⟩, fun pattern => ?_, fun pattern => ?_, rfl, rfl⟩
      · simp [MatchCondition.normalized]
      · simp [MatchCondition.normalized, mem_insertPattern, or_comm]

theorem collectConditions_ok {T : Tools ρ} {conditions : List MatchCondition} {p p' : Patterns}
    (h : collectConditions T conditions p = .ok p') : Collects T conditions p p' := by
  induction conditions generalizing p with
  | nil =>
    cases h
    exact ⟨id, fun _ => by simp, fun _ => by simp, rfl, rfl⟩
  | cons condition rest ih =>
    obtain ⟨p₁, hfirst, h⟩ := except_bind_ok.mp h
    have h₁ := collectCondition_ok hfirst
    have h₂ := ih h
    rw [show condition :: rest = [condition] ++ rest from rfl]
    refine ⟨fun hp => h₂.nodup (h₁.nodup hp), fun pattern => ?_, fun pattern => ?_, ?_, ?_⟩
    · rw [h₂.sensitive, h₁.sensitive, List.filterMap_append, List.mem_append, or_assoc]
    · rw [h₂.folded, h₁.folded, List.filterMap_append, List.mem_append, or_assoc]
    · rw [h₂.regexConditions, h₁.regexConditions, List.filterMap_append, List.length_append, Nat.add_assoc]
    · rw [h₂.regexBytes, h₁.regexBytes, List.filterMap_append, List.map_append, List.sum_append,
        Nat.add_assoc]

theorem not_mentions_build (sensitive folded : List String) (reference : PatternRef) (k : Nat) :
    ¬ Mentions (.build sensitive, .build folded) reference k := by
  have hempty : ∀ n i, (List.replicate n ([] : List Nat)).getD i [] = [] := by
    intro n i
    rw [List.getD_eq_getElem?_getD, List.getElem?_replicate]
    split
    · rfl
    · rfl
  unfold Mentions PatternRef.side PatternIndex.build
  split
  · rw [hempty]
    exact List.not_mem_nil
  · rw [hempty]
    exact List.not_mem_nil

theorem compileCatalog_ok {T : Tools ρ} {catalog : LorebookCatalog} {generation : Nat}
    {c : CompiledCatalog ρ} (h : compileCatalog T catalog generation = .ok c) :
    catalog.validate = .ok () ∧ ∃ p, Indexed T p.sensitive p.folded catalog.enabled c ∧
      Collects T (catalog.enabled.flatMap LoreEntry.conditions) ⟨[], [], 0, 0⟩ p := by
  obtain ⟨⟨⟩, hvalid, h⟩ := except_bind_ok.mp h
  obtain ⟨p, hp, h⟩ := except_bind_ok.mp h
  obtain ⟨-, -, h⟩ := except_bind_ok.mp h
  obtain ⟨-, -, h⟩ := except_bind_ok.mp h
  refine ⟨hvalid, p, ?_, collectConditions_ok hp⟩
  have hstart : Indexed T p.sensitive p.folded []
      ⟨catalog.revision, generation, [], .build p.sensitive, .build p.folded, []⟩ :=
    ⟨⟨rfl, rfl⟩, ⟨List.length_replicate, List.length_replicate⟩, .nil, rfl, fun k entry hk => (nomatch hk),
      fun reference k hk => absurd hk (not_mentions_build _ _ reference k)⟩
  exact compileEntries_ok hstart h

end Lorepia.Lorebook
