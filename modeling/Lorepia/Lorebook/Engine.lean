import Lorepia.Lib.Code
import Lorepia.Lib.Filter
import Lorepia.Lorebook.Model

/-!
# The selection engine (`engine.rs`)

The engine compiles a catalog once. Every literal condition is normalised and becomes a
pattern of one of two indexes, for exact and for folded case; an index knows which entries
mention each of its patterns. A selection searches the conversation for all patterns at once
and looks only at the entries that mention one that was found, and at those that have to be
looked at in any case.

Of the Aho-Corasick matcher the model keeps what it reports: one event for every place at which
a pattern ends (`findOverlapping`). The digests of a request are the bytes that are hashed.
-/

namespace Lorepia.Lorebook

open Code (utf8Bytes)

variable {ρ : Type}

/-! ## Digests -/

def digestU64 (n : Nat) : List UInt8 := Code.littleEndian 8 n

def digestText (value : String) : List UInt8 := digestU64 value.utf8ByteSize ++ utf8Bytes value

/-! ## The search text (engine.rs:524–600) -/

structure SearchInput where
  regex : String
  sensitive : String
  folded : String
  fingerprint : Digest

def appendSegment (target segment : String) : String :=
  if target = "" then segment else target ++ "\n" ++ segment

def ChatTurn.included (policy : PartialMessagePolicy) (turn : ChatTurn) : Bool :=
  match turn.state with
  | .complete => true
  | .incomplete => policy = .include
  | .failed => false

def SelectionRequest.turns (request : SelectionRequest) : List ChatTurn :=
  request.conversation.recentTurns.drop
    (request.conversation.recentTurns.length - request.settings.searchDepth)

def SummarySnapshot.text : SummarySnapshot → String
  | available _ content => content
  | _ => ""

def SelectionRequest.searchText (request : SelectionRequest) : String :=
  (request.turns.filter (·.included request.settings.partialMessages)).foldl
    (fun raw turn => appendSegment raw turn.content) request.conversation.summary.text

def SummarySnapshot.slice : SummarySnapshot → List UInt8
  | missing => [0]
  | corrupt revision => [1] ++ digestU64 revision.toNat
  | available revision content => [2] ++ digestU64 revision.toNat ++ digestText content

def MessageState.byte : MessageState → UInt8
  | complete => 0
  | incomplete => 1
  | failed => 2

def ChatTurn.slice (policy : PartialMessagePolicy) (turn : ChatTurn) : List UInt8 :=
  digestU64 turn.revision.toNat ++ [turn.state.byte] ++
    if turn.included policy then digestText turn.content else []

/-- What the fingerprint of the search text is a digest of. -/
def SelectionRequest.searchSlice (request : SelectionRequest) : List UInt8 :=
  utf8Bytes "lorepia-lorebook-search-slice-v1" ++ request.conversation.summary.slice ++
    request.turns.flatMap (·.slice request.settings.partialMessages)

def SearchInput.build (T : Tools ρ) (request : SelectionRequest) : SearchInput where
  regex := request.searchText
  sensitive := normalizeSearchText T request.searchText true
  folded := normalizeSearchText T request.searchText false
  fingerprint := T.sha256 request.searchSlice

/-! ## Pattern indexes (engine.rs:212–305) -/

structure LiteralWork where
  events : Nat
  maxEvents : Nat
  deriving DecidableEq

def LiteralWork.charge (work : LiteralWork) : Except LorebookError LiteralWork :=
  if work.maxEvents < work.events + 1 then .error (.searchLimitExceeded .literalMatchEvents)
  else .ok { work with events := work.events + 1 }

def findOverlapping (patterns : List String) (haystack : String) : List Nat :=
  haystack.toList.inits.flatMap fun seen =>
    (List.range patterns.length).filter fun i => ((patterns.getD i "").toList).isSuffixOf seen

structure PatternIndex where
  patterns : List String
  candidateEntries : List (List Nat)
  deriving DecidableEq

namespace PatternIndex

def build (patterns : List String) : PatternIndex :=
  ⟨patterns, List.replicate patterns.length []⟩

def lookup (index : PatternIndex) (pattern : String) : Except LorebookError Nat :=
  match index.patterns.findIdx? (· = pattern) with
  | some i => .ok i
  | none => .error (.invalidField "catalog.conditions" "search index is inconsistent")

/-- The loop of `matches` over the events of the matcher. -/
def markHits : List Nat → List Bool → LiteralWork → Except LorebookError (List Bool × LiteralWork)
  | [], hits, work => .ok (hits, work)
  | found :: rest, hits, work => do
    let work ← work.charge
    markHits rest (hits.set found true) work

/-- `PatternIndex::matches`. -/
def search (index : PatternIndex) (haystack : String) (work : LiteralWork) :
    Except LorebookError (List Bool × LiteralWork) :=
  markHits (findOverlapping index.patterns haystack) (List.replicate index.patterns.length false) work

end PatternIndex

structure PatternRef where
  folded : Bool
  index : Nat
  deriving DecidableEq

structure PatternHits where
  sensitive : List Bool
  folded : List Bool
  deriving DecidableEq

def PatternHits.contains (hits : PatternHits) (reference : PatternRef) : Bool :=
  if reference.folded then hits.folded.getD reference.index false
  else hits.sensitive.getD reference.index false

/-! ## Limits on regular expressions (engine.rs:677–738) -/

structure EvaluationLimits where
  maxEvaluations : Nat
  maxScanBytes : Nat
  maxMatches : Nat
  evaluations : Nat
  scanBytes : Nat
  matchCount : Nat
  deriving DecidableEq

namespace EvaluationLimits

def new (request : SelectionRequest) : EvaluationLimits where
  maxEvaluations := request.settings.maxRegexEvaluations
  maxScanBytes := request.settings.maxRegexScanBytes
  maxMatches := request.settings.maxRegexMatches
  evaluations := 0
  scanBytes := 0
  matchCount := 0

/-- The loop over the matches of a regular expression. -/
def countMatches : Nat → EvaluationLimits → Except LorebookError EvaluationLimits
  | 0, limits => .ok limits
  | n + 1, limits =>
    if limits.maxMatches < limits.matchCount + 1 then .error (.searchLimitExceeded .regexMatches)
    else countMatches n { limits with matchCount := limits.matchCount + 1 }

/-- `evaluate`, given how often the regular expression matches. -/
def evaluate (limits : EvaluationLimits) (found : Nat) (input : String) :
    Except LorebookError (Bool × EvaluationLimits) := do
  let limits := { limits with evaluations := limits.evaluations + 1 }
  ensure (limits.evaluations ≤ limits.maxEvaluations) (.searchLimitExceeded .regexEvaluations)
  let limits := { limits with scanBytes := limits.scanBytes + input.utf8ByteSize }
  ensure (limits.scanBytes ≤ limits.maxScanBytes) (.searchLimitExceeded .regexScanBytes)
  let limits ← countMatches found limits
  .ok (decide (found ≠ 0), limits)

end EvaluationLimits

abbrev Evaluation := EvaluationLimits → Except LorebookError (Bool × EvaluationLimits)

/-! ## Compiled entries (engine.rs:173–211, 740–837) -/

inductive CompiledCondition (ρ : Type) where
  | literal (reference : PatternRef)
  | regex (regex : ρ)

inductive CompiledSecondary (ρ : Type) where
  | none
  | any (conditions : List (CompiledCondition ρ))
  | all (conditions : List (CompiledCondition ρ))

def CompiledSecondary.values : CompiledSecondary ρ → List (CompiledCondition ρ)
  | none => []
  | any conditions => conditions
  | all conditions => conditions

structure CompiledConditions (ρ : Type) where
  primary : List (CompiledCondition ρ)
  secondary : CompiledSecondary ρ

inductive CompiledActivation (ρ : Type) where
  | constant
  | selective (conditions : CompiledConditions ρ)
  | probability (basisPoints : Nat) (conditions : Option (CompiledConditions ρ))

structure CompiledEntry (ρ : Type) where
  source : LoreEntry
  activation : CompiledActivation ρ

structure CompiledCatalog (ρ : Type) where
  revision : Nat
  generation : Nat
  entries : List (CompiledEntry ρ)
  sensitive : PatternIndex
  folded : PatternIndex
  unconditional : List Nat

def anyHolds {α : Type} (holds : α → Evaluation) : List α → Evaluation
  | [], limits => .ok (false, limits)
  | condition :: rest, limits => do
    let (held, limits) ← holds condition limits
    if held then .ok (true, limits) else anyHolds holds rest limits

def allHold {α : Type} (holds : α → Evaluation) : List α → Evaluation
  | [], limits => .ok (true, limits)
  | condition :: rest, limits => do
    let (held, limits) ← holds condition limits
    if held then allHold holds rest limits else .ok (false, limits)

def CompiledCondition.holds (T : Tools ρ) (hits : PatternHits) (input : String) :
    CompiledCondition ρ → Evaluation
  | literal reference, limits => .ok (hits.contains reference, limits)
  | regex r, limits => limits.evaluate (T.findIter r input) input

def CompiledConditions.holds (T : Tools ρ) (hits : PatternHits) (input : String)
    (conditions : CompiledConditions ρ) : Evaluation := fun limits => do
  let (held, limits) ← anyHolds (CompiledCondition.holds T hits input) conditions.primary limits
  if held then
    match conditions.secondary with
    | .none => .ok (true, limits)
    | .any values => anyHolds (CompiledCondition.holds T hits input) values limits
    | .all values => allHold (CompiledCondition.holds T hits input) values limits
  else .ok (false, limits)

def readLittleEndian : List UInt8 → Nat
  | [] => 0
  | byte :: rest => byte.toNat + 256 * readLittleEndian rest

def probabilityAdmits (T : Tools ρ) (seed : UInt64) (entryId : String) (basisPoints : Nat) : Bool :=
  if basisPoints = 0 then false
  else if basisPoints = 10000 then true
  else
    let digest := T.sha256
      (utf8Bytes "lorepia-lorebook-probability-v1" ++ digestU64 seed.toNat ++ digestText entryId)
    let value := readLittleEndian (digest.toList.take 8)
    value * 10000 / 2 ^ 64 < basisPoints

def CompiledActivation.holds (T : Tools ρ) (entry : LoreEntry) (hits : PatternHits) (input : String)
    (seed : UInt64) : CompiledActivation ρ → Evaluation
  | constant, limits => .ok (true, limits)
  | selective conditions, limits => conditions.holds T hits input limits
  | probability basisPoints none, limits =>
    .ok (probabilityAdmits T seed entry.id.text basisPoints, limits)
  | probability basisPoints (some conditions), limits => do
    let (held, limits) ← conditions.holds T hits input limits
    if held then .ok (probabilityAdmits T seed entry.id.text basisPoints, limits)
    else .ok (false, limits)

/-! ## Compiling a catalog (engine.rs:839–1098) -/

/-- What the first pass over the conditions collects. The sets of patterns are sorted. -/
structure Patterns where
  sensitive : List String
  folded : List String
  activeRegexConditions : Nat
  activeRegexPatternBytes : Nat
  deriving DecidableEq

def insertPattern (pattern : String) (patterns : List String) : List String :=
  if pattern ∈ patterns then patterns else patterns.orderedInsert (· ≤ ·) pattern

def collectCondition (T : Tools ρ) (p : Patterns) : MatchCondition → Except LorebookError Patterns
  | .literal value caseSensitive => do
    let normalized := normalizeSearchText T value caseSensitive
    ensure (normalized ≠ "")
      (.invalidField "entry.condition.key" "normalization cannot produce an empty key")
    if caseSensitive then .ok { p with sensitive := insertPattern normalized p.sensitive }
    else .ok { p with folded := insertPattern normalized p.folded }
  | .regex pattern _ _ =>
    .ok { p with
      activeRegexConditions := p.activeRegexConditions + 1
      activeRegexPatternBytes := p.activeRegexPatternBytes + pattern.utf8ByteSize }

def collectConditions (T : Tools ρ) : List MatchCondition → Patterns → Except LorebookError Patterns
  | [], p => .ok p
  | condition :: rest, p => do
    let p ← collectCondition T p condition
    collectConditions T rest p

def compileCondition (T : Tools ρ) (entryIndex : Nat) (sensitive folded : PatternIndex) :
    MatchCondition → Except LorebookError (CompiledCondition ρ)
  | .literal value caseSensitive => do
    let normalized := normalizeSearchText T value caseSensitive
    let index ← if caseSensitive then sensitive.lookup normalized else folded.lookup normalized
    .ok (.literal ⟨!caseSensitive, index⟩)
  | .regex pattern _ caseInsensitive =>
    match T.buildRegex pattern caseInsensitive with
    | some regex => .ok (.regex regex)
    | none => .error (.invalidRegex entryIndex)

def compileConditions (T : Tools ρ) (entryIndex : Nat) (sensitive folded : PatternIndex)
    (conditions : MatchConditions) : Except LorebookError (CompiledConditions ρ) := do
  let compileMany (values : List MatchCondition) :=
    values.mapM (compileCondition T entryIndex sensitive folded)
  let primary ← compileMany conditions.primary
  let secondary ← match conditions.secondary with
    | .none => .ok .none
    | .any values => (compileMany values).map .any
    | .all values => (compileMany values).map .all
  .ok ⟨primary, secondary⟩

def compileActivation (T : Tools ρ) (entryIndex : Nat) (sensitive folded : PatternIndex) :
    Activation → Except LorebookError (CompiledActivation ρ)
  | .constant => .ok .constant
  | .selective conditions => do
    let conditions ← compileConditions T entryIndex sensitive folded conditions
    .ok (.selective conditions)
  | .probability basisPoints none => .ok (.probability basisPoints none)
  | .probability basisPoints (some conditions) => do
    let conditions ← compileConditions T entryIndex sensitive folded conditions
    .ok (.probability basisPoints (some conditions))

def CompiledActivation.conditions : CompiledActivation ρ → Option (CompiledConditions ρ)
  | constant => none
  | selective conditions => some conditions
  | probability _ conditions => conditions

/-- The conditions of a compiled activation (`compiled_condition_iter`). -/
def CompiledActivation.conditionIter (activation : CompiledActivation ρ) : List (CompiledCondition ρ) :=
  (activation.conditions.map fun c => c.primary ++ c.secondary.values).getD []

def CompiledCondition.isRegex : CompiledCondition ρ → Bool
  | literal _ => false
  | regex _ => true

/-- `compiled_activation_contains_regex`. -/
def CompiledActivation.containsRegex (activation : CompiledActivation ρ) : Bool :=
  activation.conditionIter.any CompiledCondition.isRegex

/-- The entry has to be looked at whatever the conversation says. -/
def CompiledActivation.unconditional (activation : CompiledActivation ρ) : Bool :=
  activation.conditions.isNone || activation.containsRegex

/-- The entry becomes the last candidate of a pattern, unless it is already. -/
def pushCandidate (entryIndex : Nat) (candidates : List Nat) : List Nat :=
  if candidates.getLast? = some entryIndex then candidates else candidates ++ [entryIndex]

def PatternIndex.register (index : PatternIndex) (pattern entryIndex : Nat) : PatternIndex :=
  { index with candidateEntries := index.candidateEntries.modify pattern (pushCandidate entryIndex) }

/-- The loop of `register_activation_candidates`. -/
def registerCandidates (entryIndex : Nat) :
    List (CompiledCondition ρ) → PatternIndex × PatternIndex → PatternIndex × PatternIndex
  | [], indexes => indexes
  | .regex _ :: rest, indexes => registerCandidates entryIndex rest indexes
  | .literal reference :: rest, (sensitive, folded) =>
    registerCandidates entryIndex rest
      (if reference.folded then (sensitive, folded.register reference.index entryIndex)
      else (sensitive.register reference.index entryIndex, folded))

def compileEntries (T : Tools ρ) :
    List LoreEntry → CompiledCatalog ρ → Except LorebookError (CompiledCatalog ρ)
  | [], c => .ok c
  | entry :: rest, c => do
    let entryIndex := c.entries.length
    let activation ← compileActivation T entryIndex c.sensitive c.folded entry.activation
    let (sensitive, folded) :=
      registerCandidates entryIndex activation.conditionIter (c.sensitive, c.folded)
    compileEntries T rest { c with
      entries := c.entries ++ [⟨entry, activation⟩]
      sensitive
      folded
      unconditional :=
        if activation.unconditional then c.unconditional ++ [entryIndex] else c.unconditional }

def compileCatalog (T : Tools ρ) (catalog : LorebookCatalog) (generation : Nat) :
    Except LorebookError (CompiledCatalog ρ) := do
  catalog.validate
  let p ← collectConditions T (catalog.enabled.flatMap LoreEntry.conditions) ⟨[], [], 0, 0⟩
  ensure (p.activeRegexConditions ≤ maxActiveRegexConditions)
    (.tooManyItems "activeRegexConditions" maxActiveRegexConditions)
  ensure (p.activeRegexPatternBytes ≤ maxActiveRegexPatternBytes)
    (.payloadTooLarge "activeRegexPatterns" maxActiveRegexPatternBytes)
  compileEntries T catalog.enabled
    ⟨catalog.revision, generation, [], .build p.sensitive, .build p.folded, []⟩

/-! ## Selecting (engine.rs:372–522) -/

/-- The candidates so far, and which entries are among them. -/
structure Candidates where
  seen : List Bool
  found : List Nat
  deriving DecidableEq

/-- `add_candidate`. -/
def Candidates.add (c : Candidates) (entry : Nat) : Candidates :=
  if c.seen.getD entry true then c else ⟨c.seen.set entry true, c.found ++ [entry]⟩

/-- `add_pattern_candidates`. -/
def Candidates.addPatterns (c : Candidates) (index : PatternIndex) (hits : List Bool) : Candidates :=
  (hits.zip index.candidateEntries).foldl
    (fun c (hit, entries) => if hit then entries.foldl Candidates.add c else c) c

def CompiledCatalog.candidates (compiled : CompiledCatalog ρ) (hits : PatternHits) : List Nat :=
  let c : Candidates := ⟨List.replicate compiled.entries.length false, []⟩
  let c := compiled.unconditional.foldl Candidates.add c
  let c := c.addPatterns compiled.sensitive hits.sensitive
  let c := c.addPatterns compiled.folded hits.folded
  c.found

def compareEntries (left right : LoreEntry) : Ordering :=
  (compare right.priority left.priority).then <|
    (compare right.source.precedence left.source.precedence).then <|
      (compare left.order right.order).then (compare left.id.text right.id.text)

/-- `left` is ranked before `right`, or they are equal. -/
def rankedBefore (left right : LoreEntry) : Prop := compareEntries left right ≠ .gt

instance : DecidableRel rankedBefore := fun left right =>
  inferInstanceAs (Decidable (compareEntries left right ≠ .gt))

def CompiledCatalog.entryHolds (T : Tools ρ) (compiled : CompiledCatalog ρ) (hits : PatternHits)
    (input : String) (seed : UInt64) (entryIndex : Nat) : Evaluation := fun limits =>
  match compiled.entries[entryIndex]? with
  | some entry => entry.activation.holds T entry.source hits input seed limits
  | none => .ok (false, limits)

/-- What a selection has found before it assembles the prompt: the matched entries in their
rank, and what the search has cost. -/
structure Found where
  candidates : List Nat
  matched : List LoreEntry
  literalEvents : Nat
  limits : EvaluationLimits
  deriving DecidableEq

def CompiledCatalog.sources (compiled : CompiledCatalog ρ) (matched : List Nat) : List LoreEntry :=
  matched.filterMap fun entryIndex => compiled.entries[entryIndex]?.map (·.source)

/-- The first part of `select_uncached`. -/
def findMatches (T : Tools ρ) (compiled : CompiledCatalog ρ) (request : SelectionRequest)
    (search : SearchInput) : Except LorebookError Found := do
  let work : LiteralWork := ⟨0, request.settings.maxLiteralMatchEvents⟩
  let (sensitive, work) ← compiled.sensitive.search search.sensitive work
  let (folded, work) ← compiled.folded.search search.folded work
  let hits : PatternHits := ⟨sensitive, folded⟩
  let candidates := compiled.candidates hits
  let (matched, limits) ← passing (compiled.entryHolds T hits search.regex request.seed) candidates
    (.new request)
  .ok ⟨candidates, (compiled.sources matched).insertionSort rankedBefore, work.events, limits⟩

/-- The prompt text so far, with the entries in it and their tokens. -/
structure Admitted where
  promptText : String
  selectedIds : List EntryId
  selectedTokens : Nat
  deriving DecidableEq

/-- The loop that admits matched entries as long as they fit. -/
def admitEntries (settings : SelectionSettings) : List LoreEntry → Admitted → Admitted
  | [], a => a
  | entry :: rest, a =>
    let separator := if a.selectedIds = [] then "" else settings.separator
    let nextBytes := a.promptText.utf8ByteSize + separator.utf8ByteSize + entry.content.utf8ByteSize
    let nextTokens := a.selectedTokens + entry.reservedTokens
    if settings.maxOutputBytes < nextBytes ∨ settings.maxOutputTokens < nextTokens then
      admitEntries settings rest a
    else
      admitEntries settings rest
        ⟨a.promptText ++ separator ++ entry.content, a.selectedIds ++ [entry.id], nextTokens⟩

structure SelectionReceipt where
  catalogRevision : Nat
  chatRevision : UInt64
  branchRevision : UInt64
  cacheFingerprint : Digest
  cacheHit : Bool
  candidateCount : Nat
  matchedCount : Nat
  selectedIds : List EntryId
  selectedTokens : Nat
  selectedBytes : Nat
  literalMatchEvents : Nat
  regexEvaluations : Nat
  regexScanBytes : Nat
  regexMatches : Nat
  deriving DecidableEq

structure Selection where
  promptText : String
  receipt : SelectionReceipt
  deriving DecidableEq

def selectUncached (T : Tools ρ) (compiled : CompiledCatalog ρ) (request : SelectionRequest)
    (search : SearchInput) (cacheFingerprint : Digest) : Except LorebookError Selection := do
  let found ← findMatches T compiled request search
  let admitted := admitEntries request.settings found.matched ⟨"", [], 0⟩
  .ok {
    promptText := admitted.promptText
    receipt := {
      catalogRevision := compiled.revision
      chatRevision := request.conversation.chatRevision
      branchRevision := request.conversation.branchRevision
      cacheFingerprint
      cacheHit := false
      candidateCount := found.candidates.length
      matchedCount := found.matched.length
      selectedIds := admitted.selectedIds
      selectedTokens := admitted.selectedTokens
      selectedBytes := admitted.promptText.utf8ByteSize
      literalMatchEvents := found.literalEvents
      regexEvaluations := found.limits.evaluations
      regexScanBytes := found.limits.scanBytes
      regexMatches := found.limits.matchCount } }

end Lorepia.Lorebook
