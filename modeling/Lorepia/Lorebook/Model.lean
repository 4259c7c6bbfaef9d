import Mathlib
import Lorepia.Lib.Tx

/-!
# Lorebook catalogs and requests (`model.rs`, `normalize.rs`)

A catalog is a list of entries; an entry says when its text is to be put into a prompt. A
request holds the recent part of a conversation, the settings of a selection and a seed.
Both are validated before they are used.

What the crate takes from elsewhere is in `Tools`: the Unicode tables, the regular
expressions and SHA-256. Counters of the source are machine integers whose additions are
checked; where one would overflow, the source reports the same error as for a value past
the limit, so they are natural numbers here.
-/

namespace Lorepia.Lorebook

/-! ## Constants (lib.rs, model.rs) -/

def maxCatalogEntries : Nat := 100000
def maxCatalogBytes : Nat := 64 * 1024 * 1024
def maxEntryContentBytes : Nat := 256 * 1024
def maxEntryConditions : Nat := 64
def maxKeyBytes : Nat := 4 * 1024
def maxRegexBytes : Nat := 4 * 1024
def maxRecentTurns : Nat := 512
def maxTurnBytes : Nat := 256 * 1024
def maxSearchInputBytes : Nat := 2 * 1024 * 1024
def maxOutputBytes : Nat := 4 * 1024 * 1024
def maxOutputTokens : Nat := 1000000
def maxRegexScanBytes : Nat := 8 * 1024 * 1024
def maxRegexMatches : Nat := 8192
def maxRegexEvaluations : Nat := 1024
def maxLiteralMatchEvents : Nat := 4 * 1024 * 1024
def maxActiveRegexConditions : Nat := 1024
def maxActiveRegexPatternBytes : Nat := 1024 * 1024
def maxEntryIdBytes : Nat := 128
def maxTokenizerIdBytes : Nat := 256
def maxTokenizerRevisionBytes : Nat := 256

/-! ## Errors (error.rs) -/

inductive LimitKind where
  | literalMatchEvents
  | regexEvaluations
  | regexScanBytes
  | regexMatches
  deriving DecidableEq

inductive LorebookError where
  | invalidField (field reason : String)
  | tooManyItems (field : String) (max : Nat)
  | payloadTooLarge (field : String) (maxBytes : Nat)
  | duplicateEntryId
  | invalidRegex (entryIndex : Nat)
  | searchLimitExceeded (limit : LimitKind)
  deriving DecidableEq

/-! ## What the crate relies on -/

abbrev Digest := Vector UInt8 32

/-- The Unicode tables, regular expressions of the type `ρ`, and SHA-256. A regular
expression is built from its text and a flag for case-insensitive matching; `findIter`
counts its matches in a text. -/
structure Tools (ρ : Type) where
  nfkc : String → String
  toLowercase : Char → List Char
  isWhitespace : Char → Bool
  buildRegex : String → Bool → Option ρ
  findIter : ρ → String → Nat
  sha256 : List UInt8 → Digest

variable {ρ : Type}

/-- The loop of `normalize_search_text`: runs of white space become one space, and there is
none at either end. -/
def collapseSpaces (T : Tools ρ) : List Char → List Char → Bool → List Char
  | [], normalized, _ => normalized
  | c :: rest, normalized, pendingSpace =>
    if T.isWhitespace c then collapseSpaces T rest normalized (!normalized.isEmpty)
    else if pendingSpace then collapseSpaces T rest (normalized ++ [' ', c]) false
    else collapseSpaces T rest (normalized ++ [c]) false

def normalizeSearchText (T : Tools ρ) (value : String) (caseSensitive : Bool) : String :=
  let compatible := (T.nfkc value).toList
  let cased := if caseSensitive then compatible else compatible.flatMap T.toLowercase
  String.ofList (collapseSpaces T cased [] false)

/-! ## Entries -/

def isIdChar (c : Char) : Bool := c.isAlphanum || c = '-' || c = '_' || c = '.' || c = ':'

/-- `EntryId::parse` is the only constructor, so its checks are a field. -/
structure EntryId where
  text : String
  valid : text ≠ "" ∧ text.utf8ByteSize ≤ maxEntryIdBytes ∧ text.toList.all isIdChar = true
  deriving DecidableEq

inductive EntrySource where
  | global
  | characterCard
  | chat
  deriving DecidableEq

def EntrySource.precedence : EntrySource → Nat
  | .global => 0
  | .characterCard => 1
  | .chat => 2

inductive MatchCondition where
  | literal (value : String) (caseSensitive : Bool)
  | regex (pattern requiredLiteral : String) (caseInsensitive : Bool)
  deriving DecidableEq

inductive SecondaryConditions where
  | none
  | any (conditions : List MatchCondition)
  | all (conditions : List MatchCondition)
  deriving DecidableEq

def SecondaryConditions.values : SecondaryConditions → List MatchCondition
  | none => []
  | any conditions => conditions
  | all conditions => conditions

structure MatchConditions where
  primary : List MatchCondition
  secondary : SecondaryConditions
  deriving DecidableEq

inductive Activation where
  | constant
  | selective (conditions : MatchConditions)
  | probability (basisPoints : Nat) (conditions : Option MatchConditions)
  deriving DecidableEq

structure LoreEntry where
  id : EntryId
  source : EntrySource
  priority : Int
  order : Int
  enabled : Bool
  activation : Activation
  content : String
  reservedTokens : Nat
  deriving DecidableEq

structure LorebookCatalog where
  revision : Nat
  entries : List LoreEntry
  deriving DecidableEq

def activationConditions : Activation → Option MatchConditions
  | .constant => none
  | .selective conditions => some conditions
  | .probability _ conditions => conditions

def conditionIter (conditions : MatchConditions) : List MatchCondition :=
  conditions.primary ++ conditions.secondary.values

def LoreEntry.conditions (entry : LoreEntry) : List MatchCondition :=
  ((activationConditions entry.activation).map conditionIter).getD []

/-! ## Validation of a catalog -/

def MatchCondition.validate : MatchCondition → Except LorebookError Unit
  | literal value _ =>
    ensure (value ≠ "" ∧ value.utf8ByteSize ≤ maxKeyBytes)
      (.invalidField "entry.condition.key" "must be a bounded non-empty string")
  | regex pattern requiredLiteral _ => do
    ensure (requiredLiteral ≠ "" ∧ requiredLiteral.utf8ByteSize ≤ maxKeyBytes)
      (.invalidField "entry.condition.key" "must be a bounded non-empty string")
    ensure (pattern ≠ "" ∧ pattern.utf8ByteSize ≤ maxRegexBytes)
      (.invalidField "entry.condition.regex" "must be a bounded non-empty pattern")

def validateAll {α : Type} (check : α → Except LorebookError Unit) :
    List α → Except LorebookError Unit
  | [] => .ok ()
  | a :: rest => do
    check a
    validateAll check rest

def MatchConditions.validate (conditions : MatchConditions) : Except LorebookError Unit := do
  ensure (conditions.primary ≠ [])
    (.invalidField "entry.conditions.primary" "must contain at least one condition")
  ensure (conditions.secondary = .none ∨ conditions.secondary.values ≠ [])
    (.invalidField "entry.conditions.secondary" "enabled secondary conditions cannot be empty")
  ensure (conditions.primary.length + conditions.secondary.values.length ≤ maxEntryConditions)
    (.tooManyItems "entry.conditions" maxEntryConditions)
  validateAll MatchCondition.validate (conditionIter conditions)

def Activation.validate : Activation → Except LorebookError Unit
  | constant => .ok ()
  | selective conditions => conditions.validate
  | probability basisPoints conditions => do
    ensure (basisPoints ≤ 10000) (.invalidField "entry.activation.basisPoints" "must be in 0..=10000")
    checkSome MatchConditions.validate conditions

def LoreEntry.validate (entry : LoreEntry) : Except LorebookError Unit := do
  ensure (entry.content ≠ "") (.invalidField "entry.content" "must not be empty")
  ensure (entry.content.utf8ByteSize ≤ maxEntryContentBytes)
    (.payloadTooLarge "entry.content" maxEntryContentBytes)
  ensure (entry.reservedTokens ≠ 0 ∧ entry.reservedTokens ≤ maxOutputTokens)
    (.invalidField "entry.reservedTokens" "must be within the output token ceiling")
  entry.activation.validate

def MatchCondition.bytes : MatchCondition → Nat
  | literal value _ => value.utf8ByteSize
  | regex pattern requiredLiteral _ => pattern.utf8ByteSize + requiredLiteral.utf8ByteSize

def LoreEntry.bytes (entry : LoreEntry) : Nat :=
  entry.id.text.utf8ByteSize + entry.content.utf8ByteSize +
    (entry.conditions.map MatchCondition.bytes).sum

/-- The loop of `LorebookCatalog::validate`. -/
def validateEntries : List LoreEntry → List EntryId → Nat → Except LorebookError Unit
  | [], _, _ => .ok ()
  | entry :: rest, ids, bytes => do
    entry.validate
    ensure (entry.id ∉ ids) .duplicateEntryId
    ensure (bytes + entry.bytes ≤ maxCatalogBytes) (.payloadTooLarge "catalog" maxCatalogBytes)
    validateEntries rest (entry.id :: ids) (bytes + entry.bytes)

def LorebookCatalog.validate (catalog : LorebookCatalog) : Except LorebookError Unit := do
  ensure (catalog.revision ≠ 0) (.invalidField "catalog.revision" "must be at least one")
  ensure (catalog.entries.length ≤ maxCatalogEntries)
    (.tooManyItems "catalog.entries" maxCatalogEntries)
  validateEntries catalog.entries [] 0

def LorebookCatalog.enabled (catalog : LorebookCatalog) : List LoreEntry :=
  catalog.entries.filter (·.enabled)

theorem validateEntries_ok {entries : List LoreEntry} {ids : List EntryId} {bytes : Nat}
    (hbytes : bytes ≤ maxCatalogBytes) :
    validateEntries entries ids bytes = .ok () ↔
      (∀ entry ∈ entries, entry.validate = .ok ()) ∧ (entries.map (·.id)).Nodup ∧
        (∀ entry ∈ entries, entry.id ∉ ids) ∧
        bytes + (entries.map LoreEntry.bytes).sum ≤ maxCatalogBytes := by
  induction entries generalizing ids bytes with
  | nil => simp [validateEntries, hbytes]
  | cons entry rest ih =>
    rw [validateEntries]
    simp only [except_bind_ok, ensure_ok, exists_const, List.map_cons, List.nodup_cons, List.sum_cons,
      List.forall_mem_cons]
    constructor
    · rintro ⟨_, hvalid, hnew, hroom, hrest⟩
      obtain ⟨hall, hnodup, hfresh, hsum⟩ := (ih hroom).mp hrest
      refine ⟨⟨hvalid, hall⟩, ⟨fun hmem => ?_, hnodup⟩, ⟨hnew, fun e he hmem => ?_⟩, by omega⟩
      · obtain ⟨e, he, heq⟩ := List.mem_map.mp hmem
        exact hfresh e he (heq ▸ List.mem_cons_self)
      · exact hfresh e he (List.mem_cons_of_mem _ hmem)
    · rintro ⟨⟨hvalid, hall⟩, ⟨hnot, hnodup⟩, ⟨hnew, hfresh⟩, hsum⟩
      have hroom : bytes + entry.bytes ≤ maxCatalogBytes := by omega
      refine ⟨(), hvalid, hnew, hroom, (ih hroom).mpr ⟨hall, hnodup, fun e he => ?_, by omega⟩⟩
      refine List.not_mem_cons_of_ne_of_not_mem (fun heq => hnot ?_) (hfresh e he)
      exact heq ▸ List.mem_map_of_mem he

theorem LorebookCatalog.validate_ok {catalog : LorebookCatalog} :
    catalog.validate = .ok () ↔
      catalog.revision ≠ 0 ∧ catalog.entries.length ≤ maxCatalogEntries ∧
        (∀ entry ∈ catalog.entries, entry.validate = .ok ()) ∧ (catalog.entries.map (·.id)).Nodup ∧
        (catalog.entries.map LoreEntry.bytes).sum ≤ maxCatalogBytes := by
  rw [LorebookCatalog.validate]
  simp only [except_bind_ok, ensure_ok, exists_const, validateEntries_ok (Nat.zero_le _),
    List.not_mem_nil, not_false_eq_true, implies_true, true_and, Nat.zero_add]

theorem LorebookCatalog.validate_ids {catalog : LorebookCatalog} (h : catalog.validate = .ok ()) :
    (catalog.entries.map (·.id)).Nodup :=
  (LorebookCatalog.validate_ok.mp h).2.2.2.1

/-! ## Requests -/

inductive MessageState where
  | complete
  | incomplete
  | failed
  deriving DecidableEq

structure ChatTurn where
  revision : UInt64
  state : MessageState
  content : String
  deriving DecidableEq

inductive SummarySnapshot where
  | missing
  | corrupt (revision : UInt64)
  | available (revision : UInt64) (content : String)
  deriving DecidableEq

structure ConversationSnapshot where
  chatRevision : UInt64
  branchRevision : UInt64
  totalTurns : UInt64
  recentTurns : List ChatTurn
  summary : SummarySnapshot
  deriving DecidableEq

inductive PartialMessagePolicy where
  | exclude
  | include
  deriving DecidableEq

structure SelectionSettings where
  searchDepth : Nat
  partialMessages : PartialMessagePolicy
  maxOutputTokens : Nat
  maxOutputBytes : Nat
  maxLiteralMatchEvents : Nat
  maxRegexEvaluations : Nat
  maxRegexScanBytes : Nat
  maxRegexMatches : Nat
  tokenizerId : String
  tokenizerRevision : String
  separator : String
  deriving DecidableEq

structure SelectionRequest where
  conversation : ConversationSnapshot
  settings : SelectionSettings
  seed : UInt64
  deriving DecidableEq

def SelectionSettings.validate (s : SelectionSettings) : Except LorebookError Unit := do
  ensure (s.searchDepth ≤ maxRecentTurns) (.tooManyItems "searchDepth" maxRecentTurns)
  ensure (s.maxOutputTokens ≤ Lorebook.maxOutputTokens)
    (.invalidField "maxOutputTokens" "exceeds the product ceiling")
  ensure (s.maxOutputBytes ≤ Lorebook.maxOutputBytes)
    (.payloadTooLarge "output" Lorebook.maxOutputBytes)
  ensure (s.maxLiteralMatchEvents ≤ Lorebook.maxLiteralMatchEvents)
    (.tooManyItems "literalMatchEvents" Lorebook.maxLiteralMatchEvents)
  ensure (s.maxRegexEvaluations ≤ Lorebook.maxRegexEvaluations)
    (.tooManyItems "regexEvaluations" Lorebook.maxRegexEvaluations)
  ensure (s.maxRegexScanBytes ≤ Lorebook.maxRegexScanBytes)
    (.payloadTooLarge "regexScan" Lorebook.maxRegexScanBytes)
  ensure (s.maxRegexMatches ≤ Lorebook.maxRegexMatches)
    (.tooManyItems "regexMatches" Lorebook.maxRegexMatches)
  ensure (s.tokenizerId ≠ "" ∧ s.tokenizerId.utf8ByteSize ≤ maxTokenizerIdBytes)
    (.invalidField "tokenizerId" "must be a bounded non-empty identifier")
  ensure (s.tokenizerRevision ≠ "" ∧ s.tokenizerRevision.utf8ByteSize ≤ maxTokenizerRevisionBytes)
    (.invalidField "tokenizerRevision" "must be a bounded non-empty identifier")
  ensure (s.separator.utf8ByteSize ≤ maxKeyBytes) (.payloadTooLarge "separator" maxKeyBytes)

def SummarySnapshot.bytes : SummarySnapshot → Nat
  | available _ content => content.utf8ByteSize
  | _ => 0

def SelectionRequest.validate (request : SelectionRequest) : Except LorebookError Unit := do
  request.settings.validate
  let turns := request.conversation.recentTurns
  ensure (turns.length ≤ maxRecentTurns) (.tooManyItems "recentTurns" maxRecentTurns)
  ensure (turns.length ≤ request.conversation.totalTurns.toNat)
    (.invalidField "totalTurns" "cannot be smaller than the supplied recent tail")
  validateAll (fun turn => ensure (turn.content.utf8ByteSize ≤ maxTurnBytes)
    (.payloadTooLarge "turn.content" maxTurnBytes)) turns
  ensure (request.conversation.summary.bytes ≤ maxTurnBytes)
    (.payloadTooLarge "summary.content" maxTurnBytes)
  ensure ((turns.map fun turn => turn.content.utf8ByteSize).sum + request.conversation.summary.bytes ≤
      maxSearchInputBytes)
    (.payloadTooLarge "searchInput" maxSearchInputBytes)

end Lorepia.Lorebook
